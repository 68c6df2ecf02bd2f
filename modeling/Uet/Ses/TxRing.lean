import Uet.RingBuf
import Uet.Ses.TxMsg

/-!
# The transmit descriptors of an endpoint

Every message an endpoint sends holds one of its `n` transmit descriptors. A descriptor goes
from the free list to the transmit ring, where `uet_tx_msg_try` takes it up turn by turn, and
from there to the completion queue or straight back to the free list; a restart request waits
on a list of its own before it enters the ring, and a deferred send is also on the deferral
list while it is in the ring.

The packet layer is seen from above: `pds` holds the handle of every packet it has not seen
acknowledged, together with the number of the message the packet was sent for.
-/

namespace Uet.Ses

open Function

/-- `struct uet_av_entry`, as far as transmission reads it. -/
structure TxAv where
  seqNum : Nat
  nextTxSeqNum : Nat
  untaggedGen : BitVec 32
  taggedGen : BitVec 32

structure TxCqEntry (n : Nat) where
  err : Bool
  desc : Option (Fin n)
  context : Nat
  op : TxOp
  errCode : Nat
  deriving DecidableEq

def TxCqEntry.zero (n : Nat) : TxCqEntry n := ⟨false, none, 0, .send, 0⟩

/-- A packet PDS waits on: its `tx_pkt_handle` and the number of its message. -/
structure TxHandle (n : Nat) where
  desc : Fin n
  msgNo : Nat
  deriving DecidableEq

/-- The transmit side of `struct uet_ep`, with `n` descriptors and room for `m` completions.
`rdMsgId` and `rdActive` say which reads still wait for their data: by message id, and by
their receive descriptor being on the active list. `token` is `tx_rtr_token_cb`, `rdModLen`
the `rd_rsp.mod_len` of a read response. `removed` records every removal from the ring, the
descriptor meant and the one at the tail. -/
structure TxEp (n m : Nat) where
  cfg : TxCfg
  maxMsgRetransmits : Option Nat
  idleDsendMsgTimeout : Nat
  idleRtrMsgTimeout : Nat
  maxRtrQEntries : Nat
  desc : Fin n → TxDesc
  free : List (Fin n)
  ring : RingBuf (Fin n) n
  bufRtr : List (Fin n)
  bufTagRtr : List (Fin n)
  deferList : List (Fin n)
  cq : RingBuf (TxCqEntry n) m
  av : Nat → TxAv
  token : BitVec 16 → Option (Fin n)
  rdMsgId : BitVec 16 → Option (Fin n)
  rdActive : List (Fin n)
  rdModLen : Fin n → Nat
  pds : List (TxHandle n)
  nextMsgNo : Nat
  removed : List (Fin n × Fin n)

/-- `FI_ECANCELED`. -/
def fiEcanceled : Nat := 125

/-- A decrement of a `size_t`. -/
def decr (x : Nat) : Nat := if x = 0 then 2 ^ 64 - 1 else x - 1

/-- What is left of the kind of a descriptor when `desc_flags` is cleared. -/
def TxOp.cleared : TxOp → TxOp
  | .send | .rtr false => .send
  | .tsend | .rtr true => .tsend
  | _ => .write

/-- `UET_TX_DESC_FLAG_READ_RSP` or `UET_TX_DESC_FLAG_RTR_REQ`: sent for a peer, so that no
completion is due. -/
def TxOp.forPeer : TxOp → Bool
  | .readRsp | .rtr _ => true
  | _ => false

def TxOp.isRtr : TxOp → Bool
  | .rtr _ => true
  | _ => false

/-- `uet_tx_desc_expects_amo_rsp_data`. -/
def TxOp.expectsAmoRspData : TxOp → Bool
  | .fetchAtomic | .compareAtomic => true
  | _ => false

/-! ## Lists and the ring -/

namespace TxEp

variable {n m : Nat}

def setDesc (d : Fin n) (v : TxDesc) (s : TxEp n m) : TxEp n m :=
  { s with desc := update s.desc d v }

def modDesc (d : Fin n) (f : TxDesc → TxDesc) (s : TxEp n m) : TxEp n m := s.setDesc d (f (s.desc d))

end TxEp

/-- The fields `uet_tx_desc_list_insert` resets. -/
def TxDesc.release (d : TxDesc) : TxDesc :=
  { d with
    state := .inactive, op := d.op.cleared, postCq := false, immValid := false
    cancelPending := false, dsend := false, inDsendList := false, gotRtr := false, pktCnt := 0 }

section

variable {n m : Nat}

/-- `uet_tx_desc_list_insert`. -/
def txListInsert (d : Fin n) (s : TxEp n m) : TxEp n m :=
  TxEp.modDesc d .release { s with free := d :: s.free }

/-- `uet_tx_desc_ring_insert`. -/
def txRingInsert (d : Fin n) (s : TxEp n m) : TxEp n m :=
  TxEp.modDesc d (fun v => { v with state := .active }) { s with ring := s.ring.insert d }

/-- `uet_tx_desc_ring_remove`: the tail advances, whichever descriptor is there. -/
def txRingRemove (d : Fin n) (s : TxEp n m) : TxEp n m :=
  { s with ring := s.ring.tailAdvance, removed := s.removed ++ [(d, s.ring.atTail)] }

/-- `uet_tx_desc_ring_rotate`. -/
def txRingRotate (d : Fin n) (s : TxEp n m) : TxEp n m := { s with ring := s.ring.rotate d }

/-- `uet_tx_desc_buf_rtr_list_insert`. -/
def bufRtrListInsert (d : Fin n) (s : TxEp n m) : TxEp n m :=
  if (s.desc d).op = .rtr true then { s with bufTagRtr := s.bufTagRtr ++ [d] }
  else { s with bufRtr := s.bufRtr ++ [d] }

/-- `uet_tx_desc_buf_rtr_list_remove`. -/
def bufRtrListRemove (d : Fin n) (s : TxEp n m) : TxEp n m :=
  if (s.desc d).op.isRtr then
    { s with bufRtr := s.bufRtr.erase d, bufTagRtr := s.bufTagRtr.erase d }
  else s

/-- `uet_tx_desc_defer_list_insert`. A descriptor that is on the list already is linked to
itself by the source; here it is on the list twice. -/
def deferListInsert (now : Nat) (d : Fin n) (s : TxEp n m) : TxEp n m :=
  TxEp.modDesc d (fun v => { v with inDsendList := true, deferTime := now })
    { s with deferList := s.deferList ++ [d] }

/-- `uet_tx_desc_defer_list_remove`. -/
def deferListRemove (d : Fin n) (s : TxEp n m) : TxEp n m :=
  if (s.desc d).inDsendList then
    TxEp.modDesc d (fun v => { v with inDsendList := false })
      { s with deferList := s.deferList.erase d }
  else s

/-- `uet_dealloc_tx_rtr_token`. -/
def deallocTxRtrToken (d : Fin n) (s : TxEp n m) : TxEp n m :=
  if (s.desc d).dsend then
    let s := deferListRemove d s
    TxEp.modDesc d (fun v => { v with dsend := false })
      { s with token := update s.token (s.desc d).localRtrToken none }
  else s

/-- `uet_dealloc_msg_id`, as far as reads are found by their message id. -/
def deallocMsgId (msgId : BitVec 16) (s : TxEp n m) : TxEp n m :=
  { s with rdMsgId := update s.rdMsgId msgId none }

def rdRecycle (d : Fin n) (s : TxEp n m) : TxEp n m :=
  if (s.desc d).op = .read then { s with rdActive := s.rdActive.erase d } else s

/-- A message id is given back by what allocated one; a read response uses the message id of
the request. -/
def txMsgIdRelease (d : Fin n) (s : TxEp n m) : TxEp n m :=
  if (s.desc d).op = .readRsp then s else deallocMsgId (s.desc d).msgId s

/-- `uet_tx_desc_recycle`. -/
def txDescRecycle (d : Fin n) (makeDescAvailable : Bool) (s : TxEp n m) : TxEp n m :=
  let s := deallocTxRtrToken d (txMsgIdRelease d (txRingRemove d (rdRecycle d s)))
  if makeDescAvailable then txListInsert d s else s

/-! ## Completions -/

/-- `uet_inc_av_msg_next_tx_seq_num` for a message over ROD. -/
def incNextTxSeqNum (d : Fin n) (s : TxEp n m) : TxEp n m :=
  if (s.desc d).pdsMode = .rod then
    { s with
      av := update s.av (s.desc d).dst
        { s.av (s.desc d).dst with nextTxSeqNum := (s.av (s.desc d).dst).nextTxSeqNum + 1 } }
  else s

/-- `uet_tx_cq_post_entry`. -/
def txCqPostEntry (d : Fin n) (s : TxEp n m) : TxEp n m :=
  if (s.desc d).op.forPeer then txDescRecycle d true s
  else
    let s := incNextTxSeqNum d s
    if (s.desc d).postCq then
      let e : TxCqEntry n := ⟨false, some d, (s.desc d).context, (s.desc d).op, 0⟩
      { txDescRecycle d false s with cq := s.cq.insert e }
    else txDescRecycle d true s

/-- `uet_tx_cq_post_err`. -/
def txCqPostErr (d : Fin n) (errCode : Nat) (s : TxEp n m) : TxEp n m :=
  if (s.desc d).op.forPeer then txDescRecycle d true s
  else
    let s := incNextTxSeqNum d s
    let e : TxCqEntry n := ⟨true, some d, (s.desc d).context, (s.desc d).op, errCode⟩
    { txDescRecycle d false s with cq := s.cq.insert e }

def txCqReadEntry (s : TxEp n m) : TxEp n m :=
  let s' := { s with cq := s.cq.tailAdvance }
  match s.cq.atTail.desc with
  | some d => txListInsert d s'
  | none => s'

/-- The loop of `uet_cq_read` over a transmit queue, which stops at an error. -/
def txCqRead : Nat → TxEp n m → TxEp n m
  | 0, s => s
  | k + 1, s => if s.cq.cnt = 0 || s.cq.atTail.err then s else txCqRead k (txCqReadEntry s)

/-- `uet_cq_readerr`, which looks at the slot at the tail of an empty queue as well. -/
def txCqReaderr (s : TxEp n m) : TxEp n m := if s.cq.atTail.err then txCqReadEntry s else s

end

/-! ## The states of a descriptor -/

/-- `uet_retx_msg` on the descriptor, and whether another attempt is allowed. -/
def TxDesc.retx (maxRetx : Option Nat) (now backoff : Nat) (delayRetx : Bool) (d : TxDesc) :
    TxDesc × Bool :=
  let d := { d with retransmitCnt := d.retransmitCnt + 1 }
  if maxRetx.any (· < d.retransmitCnt) then (d.setErr fiEio .errComplete, false)
  else
    ({ d with
        remaining := d.len, transmitted := false, bufOff := 0, pktCnt := 0
        txTime := now + (if delayRetx then backoff else 0), state := .active }, true)

def TxDesc.rdRspDue (d : TxDesc) : Bool := d.op == .read && d.expectedRdRsp != 0

section

variable {n m : Nat}

/-- `uet_set_av_msg_tx_seq_num` for a message over ROD that is sent again. -/
def setTxSeqNum (d : Fin n) (s : TxEp n m) : TxEp n m :=
  if (s.desc d).pdsMode = .rod then
    { s with
      av := update s.av (s.desc d).dst
        { s.av (s.desc d).dst with
          nextTxSeqNum := min (s.av (s.desc d).dst).nextTxSeqNum (s.desc d).seqNum } }
  else s

/-- `uet_retx_msg` and the state that follows it. -/
def retxMsg (now backoff : Nat) (delayRetx : Bool) (d : Fin n) (s : TxEp n m) : TxEp n m :=
  match (s.desc d).retx s.maxMsgRetransmits now backoff delayRetx with
  | (v, true) => setTxSeqNum d (s.setDesc d v)
  | (v, false) => s.setDesc d v

/-- The error branch of `uet_tx_desc_state_transition`, once nothing is outstanding. -/
def txErrComplete (d : Fin n) (s : TxEp n m) : TxEp n m :=
  let due := (s.desc d).rdRspDue
  let s := if due then { s with rdActive := s.rdActive.erase d } else s
  s.modDesc d fun v =>
    { v with
      expectedRdRsp := if due then 0 else v.expectedRdRsp, remaining := 0, state := .errComplete }

/-- `uet_tx_desc_state_transition`. -/
def txStateTransition (now backoff : Nat) (d : Fin n) (s : TxEp n m) : TxEp n m :=
  let v := s.desc d
  match v.state with
  | .active =>
    if !v.allSent then s
    else if v.unackPkts != 0 || v.rdRspDue then s.modDesc d fun v => { v with state := .wait }
    else s.modDesc d fun v => { v with state := .complete }
  | .wait =>
    if v.unackPkts != 0 || v.rdRspDue then s
    else s.modDesc d fun v => { v with state := .complete }
  | .retx =>
    if v.unackPkts != 0 || v.rdRspDue then s else retxMsg now backoff v.delayRetx d s
  | .defer =>
    if v.unackPkts != 0 then s else s.modDesc d fun v => { v with state := .restartWait }
  | .restartWait =>
    if !v.gotRtr then s
    else retxMsg now backoff false d (s.modDesc d fun v => { v with gotRtr := false })
  | .err => if v.unackPkts != 0 then s else txErrComplete d s
  | _ => s

/-! ## Turns of the ring -/

structure TxEnv where
  now : Nat
  mrs : Nat → Region
  mem : Mem

/-- What is decided outside in one turn: the downcall for a cancel or a restart request, the
call of `uet_tx_msg`, and the back-off drawn for a retransmission. -/
structure TxTurn where
  rc : TxRc
  call : TxCall
  backoff : Nat
  deriving DecidableEq, Repr

/-- The packets taken for `d` are tracked from now on; a UUD packet is not. -/
def trackPkts (d : Fin n) (k : Nat) (s : TxEp n m) : TxEp n m :=
  if (s.desc d).pdsMode = .uud then s
  else { s with pds := s.pds ++ List.replicate k ⟨d, (s.desc d).msgNo⟩ }

/-- What `uet_tx_msg` reads for the destination of `d`. -/
def cfgFor (d : Fin n) (s : TxEp n m) : TxCfg :=
  { s.cfg with
    untaggedGen := (s.av (s.desc d).dst).untaggedGen
    taggedGen := (s.av (s.desc d).dst).taggedGen }

def TxEp.freeToken (s : TxEp n m) (c : TxCall) : TxCall :=
  { c with token := c.token.filter fun t => (s.token t).isNone }

/-- `uet_tx_msg` on `d`, as the descriptor sees it. -/
def txMsgOf (env : TxEnv) (c : TxCall) (d : Fin n) (s : TxEp n m) : TxDesc × List TxPkt × TxRc :=
  txMsg (cfgFor d s) env.mrs env.mem (s.freeToken c) (s.desc d)

/-- `uet_tx_msg` on `d`. -/
def txMsgAt (env : TxEnv) (c : TxCall) (d : Fin n) (s : TxEp n m) : TxEp n m :=
  let v := (txMsgOf env c d s).1
  let s' := trackPkts d (txMsgOf env c d s).2.1.length (s.setDesc d v)
  if v.dsend then { s' with token := update s'.token v.localRtrToken (some d) } else s'

/-- `unack_pkts++` of a packet with no payload. -/
def TxDesc.countPkt (d : TxDesc) : TxDesc :=
  { d with unackPkts := if d.pdsMode = .uud then d.unackPkts else d.unackPkts + 1 }

/-- `uet_tx_cancel`. -/
def txCancel (rc : TxRc) (d : Fin n) (s : TxEp n m) : TxEp n m :=
  if (s.desc d).remaining = 0 then s.modDesc d fun v => { v with cancelPending := false }
  else
    let s := s.modDesc d fun v => { v with pktCnt := v.pktCnt + 1 }
    match rc with
    | .ok => trackPkts d 1 (s.modDesc d fun v => { v.countPkt with cancelPending := false })
    | .eagain => s
    | .fail err =>
      s.modDesc d fun v => { v with cancelPending := false, errCode := err, state := .errComplete }

/-- `uet_tx_rtr`. -/
def txRtr (rc : TxRc) (d : Fin n) (s : TxEp n m) : TxEp n m :=
  let s := s.modDesc d fun v => { v with pktCnt := v.pktCnt + 1 }
  match rc with
  | .ok => trackPkts d 1 (s.modDesc d fun v => { v.countPkt with state := .wait })
  | .eagain => s
  | .fail err => s.modDesc d (.setErr err .errComplete)

/-- A message over ROD waits for those before it. The address of a peer that a read response
goes to is kept in the descriptor, and its one message is always next. -/
def rodBlocked (d : Fin n) (s : TxEp n m) : Bool :=
  (s.desc d).pdsMode == .rod && (s.desc d).op != .readRsp &&
    (s.av (s.desc d).dst).nextTxSeqNum != (s.desc d).seqNum

def txActive (env : TxEnv) (c : TxCall) (d : Fin n) (s : TxEp n m) : TxEp n m :=
  let s' := txMsgAt env c d s
  match (txMsgOf env c d s).2.2 with
  | .fail _ =>
    if (s'.desc d).state = .errComplete then txCqPostErr d (s'.desc d).errCode s'
    else txRingRotate d s'
  | _ => txRingRotate d s'

/-- The switch of `uet_tx_msg_try` on the state a descriptor has come to. -/
def txAdvance (env : TxEnv) (t : TxTurn) (prev : TxState) (d : Fin n) (s : TxEp n m) : TxEp n m :=
  match (s.desc d).state with
  | .active => if prev = .active then txActive env t.call d s else txRingRotate d s
  | .errComplete => txCqPostErr d (s.desc d).errCode s
  | .complete => txCqPostEntry d s
  | _ => txRingRotate d s

/-- One turn of `uet_tx_msg_try`, on the descriptor at the tail. -/
def txTurn (env : TxEnv) (t : TxTurn) (d : Fin n) (s : TxEp n m) : TxEp n m :=
  if rodBlocked d s || env.now < (s.desc d).txTime then txRingRotate d s
  else if (s.desc d).cancelPending then txRingRotate d (txCancel t.rc d s)
  else if (s.desc d).op.isRtr && (s.desc d).state == .active then txRingRotate d (txRtr t.rc d s)
  else txAdvance env t (s.desc d).state d (txStateTransition env.now t.backoff d s)

/-- The loop of `uet_tx_msg_try`, from turn `i` on: it ends when the ring is empty or when the
descriptor of the first turn is back at the tail. -/
def txMsgTryLoop (env : TxEnv) (turns : Nat → TxTurn) :
    Nat → Nat → Option (Fin n) → TxEp n m → TxEp n m
  | 0, _, _, s => s
  | k + 1, i, start, s =>
    if s.ring.cnt = 0 || start == some s.ring.atTail then s
    else
      txMsgTryLoop env turns k (i + 1) (start.or (some s.ring.atTail))
        (txTurn env (turns i) s.ring.atTail s)

/-- `uet_tx_msg_try`. -/
def txMsgTry (env : TxEnv) (turns : Nat → TxTurn) (s : TxEp n m) : TxEp n m :=
  txMsgTryLoop env turns n 0 none s

end

/-! ## Responses -/

/-- `uet_ses_rsp_opcode_t`. -/
inductive RspOpcode where
  | defaultRsp | rsp | rspData | noRsp | other
  deriving DecidableEq, Repr

inductive RspRc where
  | null | ok | badGeneration | noMatch | disabledGen | other
  deriving DecidableEq, Repr

/-- A response. `dataOk` is the outcome of `uet_rx_read_data` or `uet_rx_atomic_data`. -/
structure SesRsp where
  verOk : Bool
  opcode : RspOpcode
  rc : RspRc
  modLen : Nat
  gen : BitVec 32
  dataOk : Bool
  deriving DecidableEq, Repr

/-- Where `uet_pds_to_ses_rx_rsp` leaves a message. -/
inductive RspAction where
  | none | defer | retx (delay : Bool) | err
  deriving DecidableEq, Repr

/-- The switch of `uet_pds_to_ses_rx_rsp` on the return code. -/
def TxDesc.rcAction (rdModLen modLen : Nat) (d : TxDesc) (r : SesRsp) : RspAction :=
  match r.rc with
  | .ok =>
    if r.opcode = .rspData then
      if d.op.expectsAmoRspData then (if r.dataOk then .none else .err)
      else if modLen != d.len || !r.dataOk then .err
      else .none
    else if d.op = .readRsp then (if modLen != rdModLen then .err else .none)
    else if modLen != d.len then (if d.dsend && modLen == 0 then .defer else .err)
    else .none
  | .badGeneration => .retx false
  | .noMatch | .disabledGen => .retx true
  | _ => .err

/-- The checks of `uet_pds_to_ses_rx_rsp` up to the return code. -/
def TxDesc.rspAction (rdModLen : Nat) (d : TxDesc) (r : SesRsp) : RspAction :=
  if !r.verOk then .err
  else if d.state != .active && d.state != .wait then .none
  else
    match r.opcode, r.rc with
    | .defaultRsp, .null => .none
    | .defaultRsp, .ok => d.rcAction rdModLen (if r.modLen = 0 then d.len % 2 ^ 32 else r.modLen) r
    | .defaultRsp, _ => .err
    | .noRsp, _ => .none
    | .other, _ => .err
    | _, _ => d.rcAction rdModLen r.modLen r

/-- `retx_exit` and `err_exit`. -/
def TxDesc.rspExit (d : TxDesc) : RspAction → TxDesc
  | .retx delay =>
    let d := { d with delayRetx := delay }
    if d.op.forPeer then { d with errCode := fiEio, state := .err }
    else { d with cancelPending := true, state := .retx }
  | .err =>
    { d with errCode := fiEio, state := .err, cancelPending := d.cancelPending || !d.op.forPeer }
  | .defer => { d with cancelPending := true, state := .defer }
  | .none => d

/-- `unack_pkts--`, with the count of a read's responses. -/
def TxDesc.uncount (d : TxDesc) (r : Option SesRsp) : TxDesc :=
  let due := d.op = .read ∧ r.any fun r =>
    r.opcode == .rspData || (r.opcode == .rsp && r.rc != .ok)
  { d with
    unackPkts := decr d.unackPkts
    expectedRdRsp := if due then decr d.expectedRdRsp else d.expectedRdRsp }

section

variable {n m : Nat}

/-- The generation a target answered with. What is sent for a peer has the address of the
peer in its descriptor, and its generation is not read again. -/
def setGen (d : Fin n) (r : SesRsp) (s : TxEp n m) : TxEp n m :=
  if (s.desc d).op.forPeer then s
  else if (s.desc d).op = .tsend then
    { s with
      av := update s.av (s.desc d).dst
        { s.av (s.desc d).dst with taggedGen := r.gen } }
  else
    { s with
      av := update s.av (s.desc d).dst
        { s.av (s.desc d).dst with untaggedGen := r.gen } }

/-- `uet_pds_to_ses_rx_rsp`. `none` is a packet acknowledged by a CACK. -/
def pdsToSesRxRsp (now : Nat) (d : Fin n) (r : Option SesRsp) (s : TxEp n m) : TxEp n m :=
  let s := s.modDesc d (·.uncount r)
  match r with
  | none => s
  | some r =>
    let a := (s.desc d).rspAction (s.rdModLen d) r
    let s := if a = .retx false then setGen d r s else s
    let s := if a = .defer then deferListInsert now d s else s
    s.modDesc d (·.rspExit a)

/-- `uet_pds_to_ses_pds_err`. -/
def pdsToSesPdsErr (d : Fin n) (s : TxEp n m) : TxEp n m :=
  s.modDesc d fun v => (v.uncount none).setErr fiEio .err

def TxEp.untrack (i : Nat) (s : TxEp n m) : TxEp n m := { s with pds := s.pds.eraseIdx i }

end

/-! ## New descriptors -/

/-- `uet_send_req_api_t`. -/
inductive SendApi where
  | send | tsend | write | writeSync | read | atomic | atomicSync | fetchAtomic | compareAtomic
  deriving DecidableEq, Repr

def SendApi.op : SendApi → TxOp
  | .send => .send
  | .tsend => .tsend
  | .write => .write
  | .writeSync => .writeSync
  | .read => .read
  | .atomic => .atomic
  | .atomicSync => .atomicSync
  | .fetchAtomic => .fetchAtomic
  | .compareAtomic => .compareAtomic

def SendApi.takesImm : SendApi → Bool
  | .send | .write | .writeSync => true
  | _ => false

def SendApi.isRma : SendApi → Bool
  | .send | .tsend => false
  | _ => true

/-- A call of `uet_send_req_api_common` that has its message id. `pdsMode` is the mode the
endpoint or the environment variables choose; `rxDesc` and `rxSeg` say whether a read gets a
receive descriptor and a copy of its segment list. -/
structure SendReq where
  api : SendApi
  kind : MsgBufKind
  buf : Nat
  len : Nat
  dst : Nat
  jobId : JobId
  msgId : BitVec 16
  tag : BitVec 64
  imm : Option (BitVec 64)
  remoteMemAddr : BitVec 64
  remoteKey : BitVec 64
  syncGrp : BitVec 16
  context : Nat
  pdsMode : PdsReq
  rxDesc : Bool
  rxSeg : Bool

def SendReq.hasSeg (r : SendReq) : Bool :=
  match r.kind with
  | .seg _ => true
  | _ => false

def SendReq.desc (now seqNum msgNo : Nat) (r : SendReq) : TxDesc :=
  { TxDesc.zero with
    op := r.api.op, postCq := true, immValid := r.api.takesImm && r.imm.isSome
    kind := r.kind, buf := r.buf, len := r.len, remaining := r.len
    txTime := now, pdsMode := r.pdsMode, seqNum := if r.pdsMode = .rod then seqNum else 0
    dst := r.dst, msgId := r.msgId, jobId := r.jobId
    remoteStartOff := if r.api.isRma then r.remoteMemAddr else 0
    remoteKey := if r.api.isRma then r.remoteKey else 0
    tagOrImm := if r.api = .tsend then r.tag
      else if r.api.takesImm then r.imm.getD 0 else 0
    syncGrp := if r.api.op.isSync then r.syncGrp else 0
    context := r.context, msgNo }

/-- A read request a target answers with data of its own. `scattered`, `alloc` and `gathered`
say whether the region is in pieces and whether its bytes could be collected. -/
structure RdReq where
  scattered : Bool
  alloc : Bool
  gathered : Bool
  buf : Nat
  len : Nat
  reqLen : Nat
  jobId : JobId
  msgId : BitVec 16
  pdsMode : PdsReq
  deriving DecidableEq, Repr

structure DsendReq where
  tagged : Bool
  initiator : BitVec 32
  tag : BitVec 64
  remoteRtrToken : BitVec 32
  jobId : JobId
  msgId : BitVec 16
  deriving DecidableEq, Repr

section

variable {n m : Nat}

/-- `uet_alloc_av_msg_seq_num` for a message over ROD. -/
def allocSeqNum (r : SendReq) (s : TxEp n m) : TxEp n m :=
  if r.pdsMode = .rod then
    { s with av := update s.av r.dst { s.av r.dst with seqNum := (s.av r.dst).seqNum + 1 } }
  else s

def rdStart (d : Fin n) (r : SendReq) (s : TxEp n m) : TxEp n m :=
  if r.api = .read then
    { s with rdMsgId := update s.rdMsgId r.msgId (some d), rdActive := s.rdActive ++ [d] }
  else s

def newMsg (d : Fin n) (v : TxDesc) (s : TxEp n m) : TxEp n m :=
  TxEp.setDesc d v { s with nextMsgNo := s.nextMsgNo + 1 }

/-- `uet_send_req_api_common` from the allocation of the descriptor to the ring, with the
descriptor if it gets there. -/
def sendReqStart (now : Nat) (r : SendReq) (s : TxEp n m) : TxEp n m × Option (Fin n) :=
  match s.free with
  | [] => (s, none)
  | d :: free =>
    let s := { s with free }
    if r.api = .read ∧ !r.rxDesc then (txListInsert d s, none)
    else if r.api = .read ∧ r.hasSeg ∧ !r.rxSeg then (s, none)
    else
      let v := r.desc now (s.av r.dst).seqNum s.nextMsgNo
      (txRingInsert d (newMsg d v (allocSeqNum r (rdStart d r s))), some d)

/-- `uet_send_req_api_common`: a message that is alone in the ring is sent at once. -/
def sendReqApi (env : TxEnv) (c : TxCall) (r : SendReq) (s : TxEp n m) : TxEp n m :=
  match sendReqStart env.now r s with
  | (s, none) => s
  | (s, some d) => if s.ring.cnt = 1 then txMsgAt env c d s else s

/-- `uet_get_rd_tx_desc`. -/
def getRdTxDesc (now : Nat) (r : RdReq) (s : TxEp n m) : TxEp n m :=
  match s.free with
  | [] => s
  | d :: free =>
    let s := { s with free }
    let v : TxDesc :=
      { TxDesc.zero with
        op := .readRsp, buf := r.buf, len := r.len, remaining := r.len, txTime := now
        pdsMode := r.pdsMode, msgId := r.msgId, jobId := r.jobId, msgNo := s.nextMsgNo }
    if r.scattered ∧ (!r.alloc ∨ !r.gathered) then txListInsert d s
    else
      let s := newMsg d v s
      txRingInsert d { s with rdModLen := update s.rdModLen d r.reqLen }

/-- `uet_rx_dsend`. The address of the peer is represented by the initiator it names. -/
def rxDsend (now : Nat) (r : DsendReq) (s : TxEp n m) : TxEp n m :=
  if !s.cfg.rud || s.bufRtr.length + s.bufTagRtr.length == s.maxRtrQEntries then s
  else
    match s.free with
    | [] => s
    | d :: free =>
      let v : TxDesc :=
        { TxDesc.zero with
          op := .rtr r.tagged, txTime := now, deferTime := now, jobId := r.jobId, msgId := r.msgId
          remoteRtrToken := r.remoteRtrToken, msgNo := s.nextMsgNo
          dst := if r.tagged then r.initiator.toNat else 0
          tagOrImm := if r.tagged then r.tag else 0 }
      bufRtrListInsert d (newMsg d v { s with free })

/-! ## Restarting deferred sends -/

/-- A posted receive, as `uet_tx_rtr_try` compares it with buffered restart requests. -/
inductive RtrFor where
  | recv
  | trecv (initiator : Option (BitVec 32)) (tag : BitVec 64)
  deriving DecidableEq, Repr

def rtrMatch (k : RtrFor) (s : TxEp n m) : Option (Fin n) :=
  match k with
  | .recv => s.bufRtr.head?
  | .trecv initiator tag =>
    s.bufTagRtr.find? fun d =>
      initiator.all (fun i => (s.desc d).dst == i.toNat) && (s.desc d).tagOrImm == tag

/-- `uet_tx_rtr_try`. -/
def txRtrTry (k : RtrFor) (s : TxEp n m) : TxEp n m :=
  match rtrMatch k s with
  | none => s
  | some d => txRingInsert d (bufRtrListRemove d s)

/-- `uet_rx_rtr_req_pkt` for a request that names an endpoint and a job it may. -/
def rxRtrReqPkt (token : BitVec 16) (remote : BitVec 32) (s : TxEp n m) : TxEp n m :=
  match s.token token with
  | none => s
  | some d =>
    let s := deferListRemove d (s.modDesc d fun v => { v with remoteRtrToken := remote })
    s.modDesc d fun v => { v with gotRtr := true }

/-! ## Timers and flush -/

def dsendAged (now : Nat) (s : TxEp n m) (d : Fin n) : Bool :=
  s.idleDsendMsgTimeout ≤ now - (s.desc d).deferTime

/-- The loop of `uet_dsend_msg_age`. -/
def dsendMsgAgeLoop (now : Nat) : Nat → TxEp n m → TxEp n m
  | 0, s => s
  | k + 1, s =>
    match s.deferList with
    | [] => s
    | d :: _ => if dsendAged now s d then dsendMsgAgeLoop now k (txCqPostErr d fiEio s) else s

/-- `uet_dsend_msg_age`. Each turn takes the first descriptor off the list. -/
def dsendMsgAge (now : Nat) (s : TxEp n m) : TxEp n m := dsendMsgAgeLoop now s.deferList.length s

def rtrMsgDrop (d : Fin n) (s : TxEp n m) : TxEp n m :=
  txListInsert d (deallocMsgId (s.desc d).msgId (bufRtrListRemove d s))

/-- The loop of `uet_rtr_msg_age_common` over one of the lists. -/
def rtrMsgAgeLoop (now : Nat) (list : TxEp n m → List (Fin n)) : Nat → TxEp n m → TxEp n m
  | 0, s => s
  | k + 1, s =>
    match list s with
    | [] => s
    | d :: _ =>
      if s.idleRtrMsgTimeout ≤ now - (s.desc d).deferTime then
        rtrMsgAgeLoop now list k (rtrMsgDrop d s)
      else s

/-- `uet_rtr_msg_age`. -/
def rtrMsgAge (now : Nat) (s : TxEp n m) : TxEp n m :=
  let s := rtrMsgAgeLoop now (·.bufRtr) s.bufRtr.length s
  rtrMsgAgeLoop now (·.bufTagRtr) s.bufTagRtr.length s

/-- `uet_rx_msg_age` for a read whose data has stopped coming. -/
def rdTimeout (d : Fin n) (s : TxEp n m) : TxEp n m :=
  if d ∈ s.rdActive then
    TxEp.modDesc d (fun v => ({ v with expectedRdRsp := 0 }).setErr fiEio .err)
      { s with rdActive := s.rdActive.erase d }
  else s

def rdRspData (msgId : BitVec 16) (s : TxEp n m) : TxEp n m :=
  match s.rdMsgId msgId with
  | none => s
  | some d => s.modDesc d fun v => { v with expectedRdRsp := decr v.expectedRdRsp }

/-- One turn of `uet_ep_flush`; `uet_pds_drop_tx_pkts` goes by the handle. -/
def flushOne (d : Fin n) (s : TxEp n m) : TxEp n m :=
  let s := { s with pds := s.pds.filter (·.desc != d) }
  let s := s.modDesc d fun v =>
    ({ v with cancelPending := false, unackPkts := 0 }).setErr fiEcanceled .errComplete
  txCqPostErr d fiEcanceled s

/-- `uet_ep_flush`. -/
def epFlush : Nat → TxEp n m → TxEp n m
  | 0, s => s
  | k + 1, s => if s.ring.cnt = 0 then s else epFlush k (flushOne s.ring.atTail s)

end

/-- What can happen to the transmit side. `letGo` is a packet that PDS stops waiting for
without a word: an ACK with no SES header, a PDC freed with packets on it, and the other
packets of a message when a retry count runs out. -/
inductive TxEvent (n : Nat) where
  | send (env : TxEnv) (c : TxCall) (r : SendReq)
  | rdReq (now : Nat) (r : RdReq)
  | dsend (now : Nat) (r : DsendReq)
  | recv (k : RtrFor)
  | rtrReq (token : BitVec 16) (remote : BitVec 32)
  | rsp (now : Nat) (i : Nat) (r : Option SesRsp)
  | pdsErr (i : Nat)
  | letGo (i : Nat)
  | rdRspData (msgId : BitVec 16)
  | rdTimeout (d : Fin n)
  | msgTry (env : TxEnv) (turns : Nat → TxTurn)
  | dsendAge (now : Nat)
  | rtrAge (now : Nat)
  | flush (max : Nat)
  | cqRead (count : Nat)
  | cqReaderr

section

variable {n m : Nat}

def txStep (s : TxEp n m) : TxEvent n → TxEp n m
  | .send env c r => sendReqApi env c r s
  | .rdReq now r => getRdTxDesc now r s
  | .dsend now r => rxDsend now r s
  | .recv k => txRtrTry k s
  | .rtrReq token remote => rxRtrReqPkt token remote s
  | .rsp now i r =>
    match s.pds[i]? with
    | none => s
    | some t => pdsToSesRxRsp now t.desc r (s.untrack i)
  | .pdsErr i =>
    match s.pds[i]? with
    | none => s
    | some t => pdsToSesPdsErr t.desc (s.untrack i)
  | .letGo i => s.untrack i
  | .rdRspData msgId => rdRspData msgId s
  | .rdTimeout d => rdTimeout d s
  | .msgTry env turns => txMsgTry env turns s
  | .dsendAge now => dsendMsgAge now s
  | .rtrAge now => rtrMsgAge now s
  | .flush max => epFlush max s
  | .cqRead count => txCqRead count s
  | .cqReaderr => txCqReaderr s

def txRun (s : TxEp n m) (es : List (TxEvent n)) : TxEp n m := es.foldl txStep s

/-- An endpoint with its queue bound and nothing posted. The parameters are those of the
instance. -/
def TxEp.init (n m : Nat) [NeZero n] (cfg : TxCfg) (maxMsgRetransmits : Option Nat)
    (idleDsendMsgTimeout idleRtrMsgTimeout maxRtrQEntries : Nat) (av : Nat → TxAv) : TxEp n m :=
  { cfg, maxMsgRetransmits, idleDsendMsgTimeout, idleRtrMsgTimeout, maxRtrQEntries, av
    desc := fun _ => TxDesc.zero
    free := (List.finRange n).reverse
    ring := .init n 0
    bufRtr := [], bufTagRtr := [], deferList := []
    cq := .init m (.zero n)
    token := fun _ => none, rdMsgId := fun _ => none, rdActive := [], rdModLen := fun _ => 0
    pds := [], nextMsgNo := 0, removed := [] }

end

end Uet.Ses
