import Uet.Ses.MemRegion

/-!
# Receiving requests

The receive side of an endpoint: its descriptors with the containers they move through
(free list, untagged ring, tag table, message table with the active list, completion queue,
sync groups), and the functions that take a request packet from the lookup of its message
to the completion.

Lists stand for the containers: the free list and the ring from the entry taken next, the
active list from the oldest entry, hash tables from the last insertion. Whether `uet_rx_dsend`
can buffer a deferred send and whether `calloc` finds memory come from outside (`RxEnv`),
with the time.
-/

namespace Uet.Ses

open Function

abbrev DescId := Nat
abbrev SyncId := Nat

/-- `uet_ses_rc_t`, the codes of the receive functions. -/
inductive SesRc where
  | ok | uncorTrnsnt | badGeneration | disabled | disabledGen | noMatch | unsupportedOp
  | unsupportedSize | initiatorErr | badMkey | badAddr | permViolation | opViolation
  | badJobId | deferSend
  deriving DecidableEq, Repr

/-- `uet_pds_type_t` of a packet that carries a request. -/
inductive PdsReq where
  | rud | rod | rudi | uud
  deriving DecidableEq, Repr

inductive SesOpcode where
  | send | deferSend | taggedSend | deferTsend | write | syncWrite | read | msgErr
  | atomic | syncAtomic | fetchAtomic | other
  deriving DecidableEq, Repr

/-- A parsed packet with a standard request header. The word holds `cmpl_data` or
`payload_len_msg_off`, and `bufOff` the restart token of a deferred send; `frameLen` bytes of
the frame stand from the payload on, trailer included, and `byteAt` reads the receive buffer
from there. -/
structure SesReq where
  pds : PdsReq
  opcode : SesOpcode
  som : Bool
  eom : Bool
  hd : Bool
  ie : Bool
  src : Nat
  spdcid : BitVec 16
  msgId : BitVec 16
  gen : BitVec 32
  jobId : JobId
  reqLen : BitVec 32
  bufOff : BitVec 64
  word : BitVec 64
  matchBits : BitVec 64
  initiator : BitVec 32
  syncGrp : BitVec 16
  syncCnt : BitVec 16
  frameLen : Nat
  trailerLen : Nat
  byteAt : Nat → Byte

/-- `pkt_payload_len`. -/
def SesReq.pktPayloadLen (p : SesReq) : Nat :=
  (BitVec.ofNat 16 p.frameLen - BitVec.ofNat 16 p.trailerLen).toNat

/-- The offset in `payload_len_msg_off`. -/
def SesReq.msgOff (p : SesReq) : BitVec 64 := p.word &&& 0x00000000ffffffff

/-- The length in `payload_len_msg_off`. -/
def SesReq.wordLen (p : SesReq) : Nat := ((p.word &&& 0x00003fff00000000) >>> 32).toNat

/-- `uet_get_ses_req_payload_len`. -/
def SesReq.payloadLen (p : SesReq) (maxPayloadLen : Nat) : Nat :=
  if p.som then
    let len := if p.opcode = .read then maxPayloadLen else p.pktPayloadLen
    if p.reqLen.toNat < len then p.reqLen.toNat else len
  else p.wordLen

/-- `ses_payload_len` of a request that carries its payload. -/
def SesReq.sesPayloadLen (p : SesReq) : Nat := p.payloadLen 0

/-- `n` bytes from the payload on. -/
def SesReq.read (p : SesReq) (n : Nat) : List Byte := (List.range n).map p.byteAt

@[simp] theorem SesReq.length_read (p : SesReq) (n : Nat) : (p.read n).length = n := by
  simp [SesReq.read]

/-- `struct uet_rx_msg_key`. -/
structure RxMsgKey where
  src : Nat
  spdcid : BitVec 16
  msgId : BitVec 16
  deriving DecidableEq, Repr

/-- `uet_rx_msg_key_init`. -/
def SesReq.msgKey (p : SesReq) : RxMsgKey := ⟨p.src, p.spdcid, p.msgId⟩

/-- `struct uet_tag_initiator_key`. -/
structure TagKey where
  tag : BitVec 64
  initiatorInvalid : Bool
  initiator : BitVec 32
  deriving DecidableEq, Repr

/-- `UET_INITIATOR_NONE`. -/
def initiatorNone : BitVec 32 := 0

/-- `uet_tag_initiator_key_init`. -/
def SesReq.tagKey (p : SesReq) : TagKey := ⟨p.matchBits, false, p.initiator⟩

def SesReq.tagOnlyKey (p : SesReq) : TagKey := ⟨p.matchBits, true, initiatorNone⟩

/-- `uet_msg_buf_type_t` with the union it selects. -/
inductive MsgBufKind where
  | contig
  | iov (iov : List Iovec)
  | mr
  | seg (seg : List MrSeg)

structure CqFlags where
  recv : Bool
  msg : Bool
  tagged : Bool
  remoteCqData : Bool
  deriving DecidableEq, Repr

def CqFlags.none : CqFlags := ⟨false, false, false, false⟩

/-- `struct uet_rx_desc`; the flags of `desc_flags` one by one. -/
structure RxDesc where
  active : Bool
  inHash : Bool
  postCq : Bool
  write : Bool
  writeImm : Bool
  dsend : Bool
  cancelled : Bool
  errTrack : Bool
  sesRc : SesRc
  kind : MsgBufKind
  buf : Nat
  len : Nat
  context : Nat
  cqFlags : CqFlags
  remaining : Nat
  msgLen : Nat
  msgKey : RxMsgKey
  tagKey : TagKey
  mr : Option MrIdx
  immData : BitVec 64
  srcId : BitVec 32
  jobId : JobId
  prevPktTime : Nat
  sync : Option SyncId

def RxDesc.zero : RxDesc :=
  { active := false, inHash := false, postCq := false, write := false, writeImm := false,
    dsend := false, cancelled := false, errTrack := false, sesRc := .ok, kind := .contig,
    buf := 0, len := 0, context := 0, cqFlags := .none, remaining := 0, msgLen := 0,
    msgKey := ⟨0, 0, 0⟩, tagKey := ⟨0, false, 0⟩, mr := none, immData := 0, srcId := 0,
    jobId := 0, prevPktTime := 0, sync := none }

inductive CqFormat where
  | context | msg | data | tagged
  deriving DecidableEq, Repr

def CqFormat.size : CqFormat → Nat
  | .context => 8
  | .msg => 24
  | .data => 40
  | .tagged => 48

/-- `FI_EIO`. -/
def fiEio : Nat := 5

/-- `struct uet_cq_ring_entry` of a receive; what the format has no room for is zero. -/
structure RxCqEntry where
  err : Option Nat
  desc : DescId
  context : Nat
  flags : CqFlags
  len : Nat
  buf : Nat
  data : BitVec 64
  tag : BitVec 64
  srcId : BitVec 32
  deriving DecidableEq, Repr

/-- `struct uet_sync_grp_src_fep_key`. -/
structure SyncKey where
  src : Nat
  syncGrp : BitVec 16
  deriving DecidableEq, Repr

/-- `struct uet_sync_grp_src_fep_entry`. -/
structure SyncEntry where
  key : SyncKey
  curCnt : BitVec 16
  totCnt : BitVec 16
  cmplCnt : BitVec 16
  terminatingAtomic : Bool
  atomicAddr : Nat
  atomicData : BitVec 64
  terminatingRxDesc : Option DescId
  terminatingErr : Bool
  terminatingErrCode : Nat
  timeout : Nat

def SyncEntry.new (key : SyncKey) (timeout : Nat) : SyncEntry :=
  { key, curCnt := 0, totCnt := 0, cmplCnt := 0, terminatingAtomic := false, atomicAddr := 0,
    atomicData := 0, terminatingRxDesc := none, terminatingErr := false,
    terminatingErrCode := 0, timeout }

/-- `UET_JOB_ID_ANY`. -/
def jobIdAny : JobId := 0xffffffff

/-- The receive side of `struct uet_ep` with the host memory and the regions of its domain.
A freed sync entry keeps what it held. -/
structure RxEp where
  ep : EpId
  dom : Domain
  mem : Mem
  desc : DescId → RxDesc
  free : List DescId
  ring : List DescId
  tags : List DescId
  msgs : List DescId
  active : List DescId
  cq : List RxCqEntry
  sync : SyncId → SyncEntry
  syncs : List SyncId
  nextSync : SyncId
  cqDown : Bool
  cqFormat : CqFormat
  maxPayloadLen : Nat
  untaggedGen : BitVec 32
  untaggedGenDisabled : Bool
  taggedGen : BitVec 32
  taggedGenDisabled : Bool
  rod : Bool
  syncLifetime : Nat
  idleTimeout : Nat

structure RxEnv where
  now : Nat
  dsend : Bool
  calloc : Bool

def RxEp.setDesc (s : RxEp) (id : DescId) (f : RxDesc → RxDesc) : RxEp :=
  { s with desc := update s.desc id (f (s.desc id)) }

def RxEp.setSync (s : RxEp) (e : SyncId) (f : SyncEntry → SyncEntry) : RxEp :=
  { s with sync := update s.sync e (f (s.sync e)) }

def RxEp.setRemaining (s : RxEp) (id : DescId) (n : Nat) : RxEp :=
  s.setDesc id fun d => { d with remaining := n }

/-! ## Descriptors and their containers -/

/-- `uet_rx_desc_list_insert`. -/
def rxDescListInsert (s : RxEp) (id : DescId) : RxEp :=
  { s.setDesc id fun d => { d with
      active := false, inHash := false, postCq := false, write := false, writeImm := false,
      dsend := false, cancelled := false, errTrack := false } with
    free := id :: s.free }

/-- `uet_rx_desc_list_pop`. -/
def rxDescListPop (s : RxEp) : Option (DescId × RxEp) :=
  match s.free with
  | [] => none
  | id :: rest => some (id, { s with free := rest })

/-- `uet_rx_desc_active_list_insert`. -/
def rxDescActiveListInsert (s : RxEp) (now : Nat) (id : DescId) : RxEp :=
  { s.setDesc id fun d => { d with active := true, prevPktTime := now } with
    active := s.active ++ [id] }

/-- `uet_rx_desc_active_list_move_to_tail`. -/
def rxDescActiveListMoveToTail (s : RxEp) (now : Nat) (id : DescId) : RxEp :=
  { s.setDesc id fun d => { d with prevPktTime := now } with
    active := s.active.filter (· ≠ id) ++ [id] }

/-- `uet_rx_desc_active_list_remove`. -/
def rxDescActiveListRemove (s : RxEp) (id : DescId) : RxEp :=
  if (s.desc id).active then
    { s.setDesc id fun d => { d with active := false } with
      active := s.active.filter (· ≠ id) }
  else s

/-- `uet_rx_msg_hash_insert`. -/
def rxMsgHashInsert (s : RxEp) (id : DescId) : RxEp :=
  { s.setDesc id fun d => { d with inHash := true } with msgs := id :: s.msgs }

/-- `uet_rx_msg_hash_remove`. -/
def rxMsgHashRemove (s : RxEp) (id : DescId) : RxEp :=
  if (s.desc id).inHash then
    { s.setDesc id fun d => { d with inHash := false } with msgs := s.msgs.filter (· ≠ id) }
  else s

/-- `uet_rx_msg_hash_lookup`. -/
def rxMsgHashLookup (s : RxEp) (key : RxMsgKey) : Option DescId :=
  s.msgs.find? fun id => (s.desc id).msgKey == key

/-- `uet_tag_initiator_hash_lookup`. -/
def tagInitiatorHashLookup (s : RxEp) (key : TagKey) : Option DescId :=
  s.tags.find? fun id => (s.desc id).tagKey == key

/-- `uet_tag_initiator_hash_remove`. -/
def tagInitiatorHashRemove (s : RxEp) (id : DescId) : RxEp :=
  { s with tags := s.tags.filter (· ≠ id) }

/-- `uet_rx_desc_ring_remove` only advances the tail. -/
def rxDescRingRemove (s : RxEp) : RxEp := { s with ring := s.ring.tail }

/-- `uet_rx_desc_recycle`. -/
def rxDescRecycle (s : RxEp) (id : DescId) (makeDescAvailable : Bool) : RxEp :=
  let s := rxMsgHashRemove (rxDescActiveListRemove s id) id
  if makeDescAvailable then rxDescListInsert s id else s

/-! ## Completions -/

/-- `uet_rx_desc_cq_buf`. -/
def rxDescCqBuf (s : RxEp) (d : RxDesc) : Nat :=
  match d.kind with
  | .iov (v :: _) => v.base
  | .mr =>
    match d.mr.map fun i => (s.dom.mr i).region.buf.kind with
    | some (.iov (v :: _)) => v.base
    | _ => d.buf
  | _ => d.buf

def rxCqEntry (s : RxEp) (id : DescId) : RxCqEntry :=
  let d := s.desc id
  let msgFmt := CqFormat.msg.size ≤ s.cqFormat.size
  { err := none, desc := id, context := d.context,
    flags := { d.cqFlags with
      remoteCqData := d.cqFlags.remoteCqData || (decide msgFmt && d.writeImm) },
    len := d.msgLen
    buf := if msgFmt then rxDescCqBuf s d else 0
    data := if msgFmt ∧ d.writeImm then d.immData else 0
    tag := if CqFormat.tagged.size ≤ s.cqFormat.size ∧ d.cqFlags.tagged then d.tagKey.tag else 0
    srcId := d.srcId }

def rxCqErrEntry (s : RxEp) (id : DescId) (errCode : Nat) : RxCqEntry :=
  let d := s.desc id
  { err := some errCode, desc := id, context := d.context, flags := d.cqFlags, len := 0,
    buf := rxDescCqBuf s d
    data := if d.writeImm then d.immData else 0
    tag := if d.cqFlags.tagged then d.tagKey.tag else 0
    srcId := 0 }

def rxCqPost (s : RxEp) (id : DescId) (entry : RxCqEntry) : RxEp :=
  let s := rxDescRecycle s id false
  { s with cq := s.cq ++ [entry] }

/-- `uet_sync_grp_src_fep_hash_remove`. -/
def syncGrpSrcFepHashRemove (s : RxEp) (e : SyncId) : RxEp :=
  { s with syncs := s.syncs.filter (· ≠ e) }

/-- The end of `uet_rx_cq_post_err`; `terminating` is the held descriptor of a group that
is complete. -/
def rxCqErrFinish (s : RxEp) (id : DescId) (errCode : Nat) (terminating : Option (DescId × Nat)) :
    RxEp :=
  let d := s.desc id
  if d.write || d.errTrack || d.dsend then
    let s := rxDescRecycle s id true
    match terminating with
    | some (t, code) => rxCqPost s t (rxCqErrEntry s t code)
    | none => s
  else rxCqPost s id (rxCqErrEntry s id errCode)

/-- `uet_rx_cq_post_err`. The branch that posts a terminating descriptor without error
is not there: the error has just been noted in its group. -/
def rxCqPostErr (s : RxEp) (id : DescId) (errCode : Nat) : RxEp :=
  match (s.desc id).sync with
  | none => rxCqErrFinish s id errCode none
  | some e =>
    let g := s.sync e
    let code := if g.terminatingErr then g.terminatingErrCode else errCode
    let s := s.setSync e fun g => { g with
      terminatingErr := true, terminatingErrCode := code, cmplCnt := g.cmplCnt + 1 }
    if g.cmplCnt + 1 = g.totCnt then
      rxCqErrFinish (syncGrpSrcFepHashRemove s e) id errCode
        ((g.terminatingRxDesc.filter (· ≠ id)).map fun t => (t, code))
    else rxCqErrFinish s id errCode none

def peek64 (m : Mem) (a : Nat) : BitVec 64 :=
  (List.range 8).foldr (fun k w => (w <<< 8) ||| (m (a + k)).zeroExtend 64) 0

def bytes64 (w : BitVec 64) : List Byte :=
  (List.range 8).map fun k => (w >>> (8 * k)).truncate 8

/-- `__atomic_fetch_add` on a 64-bit location. -/
def fetchAdd64 (m : Mem) (a : Nat) (w : BitVec 64) : Mem := memcpy m a (bytes64 (peek64 m a + w))

/-- The end of `uet_rx_cq_post_entry`. -/
def rxCqFinish (s : RxEp) (id : DescId) (terminating : Option (DescId × Bool × Nat)) : RxEp :=
  if (s.desc id).postCq then rxCqPost s id (rxCqEntry s id)
  else
    let s := rxDescRecycle s id true
    match terminating with
    | some (t, true, code) => rxCqPostErr s t code
    | some (t, false, _) => rxCqPost s t (rxCqEntry s t)
    | none => s

/-- `uet_rx_cq_post_entry`. The last message of a sync group runs the atomic of the group or
completes the descriptor held for it; a terminating message that is not the last is held. -/
def rxCqPostEntry (s : RxEp) (id : DescId) : RxEp :=
  match (s.desc id).sync with
  | none => rxCqFinish s id none
  | some e =>
    let g := s.sync e
    let counted := s.setSync e fun g => { g with cmplCnt := g.cmplCnt + 1 }
    if g.cmplCnt + 1 = g.totCnt then
      let done := syncGrpSrcFepHashRemove counted e
      if g.terminatingAtomic then
        if g.terminatingErr then rxCqFinish done id none
        else rxCqFinish { done with mem := fetchAdd64 s.mem g.atomicAddr g.atomicData } id none
      else
        rxCqFinish done id ((g.terminatingRxDesc.filter (· ≠ id)).map fun t =>
          (t, g.terminatingErr, g.terminatingErrCode))
    else if g.terminatingRxDesc = some id then counted
    else rxCqFinish counted id none

/-! ## Errored messages -/

def RxDesc.start (p : SesReq) (d : RxDesc) : RxDesc :=
  { d with msgLen := p.reqLen.toNat, remaining := p.reqLen.toNat, msgKey := p.msgKey }

def rxMsgStart (s : RxEp) (now : Nat) (p : SesReq) (id : DescId) : RxEp :=
  rxMsgHashInsert (rxDescActiveListInsert (s.setDesc id (.start p)) now id) id

def RxDesc.trackErr (rc : SesRc) (d : RxDesc) : RxDesc :=
  { d with sesRc := rc, errTrack := true, dsend := d.dsend || rc == .deferSend }

/-- `uet_init_err_rx_desc`. -/
def initErrRxDesc (s : RxEp) (now : Nat) (p : SesReq) (id : DescId) (rc : SesRc) : RxEp :=
  rxMsgStart (s.setDesc id (.trackErr rc)) now p id

/-- `uet_rx_msg_truncate`: the bytes left, `none` where the offset is not valid. -/
def rxMsgTruncate (p : SesReq) (d : RxDesc) : Option Nat :=
  if p.msgOff.toNat < d.msgLen then
    let truncated := d.msgLen - p.msgOff.toNat
    if d.remaining < truncated then none else some (d.remaining - truncated)
  else none

/-- The end of `uet_rx_msg_err`: the packet is counted, the last one completes the message. -/
def rxMsgErrCount (s : RxEp) (sesPayloadLen : Nat) (id : DescId) : RxEp :=
  if (s.desc id).remaining ≤ sesPayloadLen then rxCqPostErr (s.setRemaining id 0) id fiEio
  else s.setRemaining id ((s.desc id).remaining - sesPayloadLen)

/-- `uet_rx_msg_err` once the descriptor has its code. -/
def rxMsgErrDesc (s : RxEp) (p : SesReq) (sesPayloadLen : Nat) (id : DescId) : RxEp :=
  if (s.desc id).dsend && p.eom && sesPayloadLen == 0 then
    match rxMsgTruncate p (s.desc id) with
    | none => rxCqPostErr s id fiEio
    | some 0 => rxCqPostErr (s.setRemaining id 0) id fiEio
    | some left => rxMsgErrCount (s.setRemaining id left) sesPayloadLen id
  else rxMsgErrCount s sesPayloadLen id

def RxDesc.markErr (rc : SesRc) (d : RxDesc) : RxDesc :=
  { d with sesRc := if d.sesRc = .ok then rc else d.sesRc }

/-- `uet_rx_msg_err`: the code goes back to the initiator. -/
def rxMsgErr (s : RxEp) (now : Nat) (p : SesReq) (sesPayloadLen : Nat) (id : Option DescId)
    (rc : SesRc) : RxEp × SesRc :=
  match id with
  | none =>
    match rxDescListPop s with
    | none => (s, rc)
    | some (id, s) =>
      let s := initErrRxDesc (s.setDesc id fun _ => .zero) now p id rc
      (rxMsgErrDesc s p sesPayloadLen id, rc)
  | some id => (rxMsgErrDesc (s.setDesc id (.markErr rc)) p sesPayloadLen id, rc)

/-! ## Sync groups -/

/-- The group of the descriptor: its own, the one of the source with the number in the
packet, or a new one. -/
def syncGrpFind (s : RxEp) (env : RxEnv) (p : SesReq) (id : DescId) : Option (RxEp × SyncId) :=
  match (s.desc id).sync with
  | some e => some (s, e)
  | none =>
    let key : SyncKey := ⟨p.src, p.syncGrp⟩
    match s.syncs.find? fun e => (s.sync e).key == key with
    | some e => some (s.setDesc id fun d => { d with sync := some e }, e)
    | none =>
      if env.calloc then
        let e := s.nextSync
        some ({ (s.setSync e fun _ => .new key (env.now + s.syncLifetime)).setDesc id
            (fun d => { d with sync := some e }) with
          syncs := e :: s.syncs, nextSync := e + 1 }, e)
      else none

def SyncEntry.count (g : SyncEntry) (p : SesReq) (id : DescId) (newMsg : Bool) : SyncEntry × SesRc :=
  if p.hd && (g.totCnt != 0 || p.syncCnt == 0) then (g, .opViolation)
  else
    let g := if p.hd then { g with totCnt := p.syncCnt, terminatingRxDesc := some id } else g
    if newMsg then
      if g.totCnt ≠ 0 ∧ g.totCnt.toNat < g.curCnt.toNat + 1 then
        if p.hd then
          ({ g with terminatingErr := true, terminatingErrCode := fiEio,
                    totCnt := g.curCnt + 1, curCnt := g.curCnt + 1 }, .ok)
        else (g, .opViolation)
      else ({ g with curCnt := g.curCnt + 1 }, .ok)
    else (g, .ok)

/-- `uet_get_sync_grp_src_fep`. -/
def getSyncGrpSrcFep (s : RxEp) (env : RxEnv) (p : SesReq) (id : DescId) (newMsg : Bool) :
    RxEp × SesRc :=
  match syncGrpFind s env p id with
  | none => (s, .uncorTrnsnt)
  | some (s, e) =>
    let counted := (s.sync e).count p id newMsg
    (s.setSync e fun _ => counted.1, counted.2)

def syncGrpIf (sync : Bool) (s : RxEp) (env : RxEnv) (p : SesReq) (id : DescId) (newMsg : Bool) :
    RxEp × SesRc :=
  if sync then getSyncGrpSrcFep s env p id newMsg else (s, .ok)

/-! ## The lookup of the message -/

/-- How a packet stands to the messages in progress: refused with the endpoint's answer, a
later packet, or a first one with the descriptor of a write. -/
inductive RxLookup where
  | done (rc : SesRc)
  | later (id : DescId)
  | first (id : Option DescId)
  deriving DecidableEq, Repr

def RxDesc.target (i : MrIdx) (r : MrDesc) (d : RxDesc) : RxDesc :=
  { d with
    kind := match r.region.buf.kind with
      | .contig _ => .contig
      | _ => .mr
    buf := match r.region.buf.kind with
      | .contig b => b
      | _ => 0
    len := r.region.buf.len, context := r.context, mr := some i, sesRc := .ok }

def SesRc.orElse (rc rc' : SesRc) : SesRc := if rc ≠ .ok then rc else rc'

/-- `uet_get_rx_desc` for a message in progress. -/
def getRxDescLater (s : RxEp) (env : RxEnv) (p : SesReq) (sync : Bool) (rc : SesRc)
    (id : DescId) : RxEp × RxLookup :=
  let s := rxDescActiveListMoveToTail (syncGrpIf sync s env p id false).1 env.now id
  let rc := (s.desc id).sesRc.orElse rc
  if rc ≠ .ok then
    let err := rxMsgErr s env.now p p.sesPayloadLen (some id) rc
    (err.1, .done err.2)
  else (s, .later id)

/-- `uet_get_rx_desc` with a new descriptor: the region of a write, or a message that is
tracked for its error. -/
def getRxDescNew (s : RxEp) (env : RxEnv) (p : SesReq) (write sync : Bool) (rc : SesRc)
    (id : DescId) : RxEp × RxLookup :=
  let s := s.setDesc id fun _ => { RxDesc.zero with write }
  let grp := syncGrpIf sync s env p id true
  let s := grp.1
  let rc := grp.2.orElse rc
  let errExit (rc : SesRc) : RxEp × RxLookup :=
    let err := rxMsgErr (initErrRxDesc s env.now p id rc) env.now p p.sesPayloadLen (some id) rc
    (err.1, .done err.2)
  if rc ≠ .ok then errExit rc
  else
    match getMrDesc s.dom s.ep p.matchBits p.jobId with
    | none => errExit .badMkey
    | some i => (s.setDesc id (.target i (s.dom.mr i)), .first (some id))

/-- `uet_get_rx_desc`. -/
def getRxDesc (s : RxEp) (env : RxEnv) (p : SesReq) (write sync : Bool) (rc : SesRc) :
    RxEp × RxLookup :=
  match rxMsgHashLookup s p.msgKey with
  | some id => getRxDescLater s env p sync rc id
  | none =>
    if !write && rc == .ok then (s, .first none)
    else
      match rxDescListPop s with
      | none => (s, .done (if write then .uncorTrnsnt else rc))
      | some (id, s) => getRxDescNew s env p write sync rc id

/-! ## The packets of a message -/

def SesReq.rxBufOff (p : SesReq) (write : Bool) : BitVec 64 :=
  let startOff := if write then p.bufOff else 0
  if p.som then startOff else startOff + p.msgOff

def rudiWrite (s : RxEp) (p : SesReq) : RxEp × SesRc :=
  match getMrDesc s.dom s.ep p.matchBits p.jobId with
  | none => (s, .badMkey)
  | some i =>
    let r := s.dom.mr i
    if !r.access.remoteWrite then (s, .permViolation)
    else if r.fullKey &&& keyIdempotentSafe = 0 then (s, .opViolation)
    else
      match r.region.toOffset (p.rxBufOff true).toNat p.sesPayloadLen with
      | none => (s, .badAddr)
      | some off =>
        let (m, n) := mrScatter s.mem r.region.buf off (p.read p.sesPayloadLen)
        ({ s with mem := m }, if n ≠ p.sesPayloadLen then .badAddr else .ok)

def invalidPayloadLen (s : RxEp) (p : SesReq) : Bool :=
  (p.som && p.sesPayloadLen != p.reqLen.toNat && p.sesPayloadLen != s.maxPayloadLen) ||
    decide (p.pktPayloadLen < p.sesPayloadLen)

def laterPktErr (s : RxEp) (p : SesReq) (write : Bool) (id : DescId) : Option SesRc :=
  if !write then none
  else
    match (s.desc id).mr with
    | none => some .opViolation
    | some i =>
      if !(s.desc id).write then some .opViolation
      else if (s.dom.mr i).fullKey ≠ p.matchBits then some .permViolation
      else none

def genErr (s : RxEp) (p : SesReq) (tagged : Bool) : Option SesRc :=
  if p.pds = .uud then none
  else if (if tagged then s.taggedGenDisabled else s.untaggedGenDisabled) then some .disabledGen
  else if p.gen ≠ (if tagged then s.taggedGen else s.untaggedGen) then some .badGeneration
  else none

/-- A stage that stops hands the descriptor to `uet_rx_msg_err`. -/
abbrev RxStop := RxEp × Option DescId × SesRc

def rxUnexpected (s : RxEp) (env : RxEnv) (p : SesReq) (tagged : Bool) : RxStop :=
  let defer := if tagged then p.opcode = .deferTsend else p.opcode = .deferSend
  let rc := if defer ∧ env.dsend then .deferSend else .noMatch
  let s :=
    if tagged then
      if s.rod then { s with taggedGenDisabled := true } else s
    else if s.rod && p.pds != .uud then { s with untaggedGenDisabled := true } else s
  (s, none, rc)

/-- `start_off + req_len` in 64 bits is more than the buffer holds. -/
def bufferTooSmall (p : SesReq) (write : Bool) (len : Nat) : Bool :=
  decide (len < ((if write then p.bufOff else 0) + p.reqLen.zeroExtend 64).toNat)

def rxFindBuffer (s : RxEp) (env : RxEnv) (p : SesReq) (tagged : Bool) (id : Option DescId) :
    Except RxStop (RxEp × DescId) :=
  if tagged then
    match (tagInitiatorHashLookup s p.tagKey).or (tagInitiatorHashLookup s p.tagOnlyKey) with
    | none => .error (rxUnexpected s env p true)
    | some id =>
      if bufferTooSmall p false (s.desc id).len then .error (s, some id, .unsupportedSize)
      else .ok (tagInitiatorHashRemove s id, id)
  else
    match id with
    | none =>
      match s.ring with
      | [] => .error (rxUnexpected s env p false)
      | id :: _ =>
        if bufferTooSmall p false (s.desc id).len then .error (s, some id, .unsupportedSize)
        else .ok (rxDescRingRemove s, id)
    | some id =>
      match (s.desc id).mr with
      | none => .error (s, some id, .permViolation)
      | some i =>
        if !(s.dom.mr i).access.remoteWrite then .error (s, some id, .permViolation)
        else if bufferTooSmall p true (s.dom.mr i).region.buf.len then
          .error (s, some id, .unsupportedSize)
        else .ok (s, id)

def RxDesc.setImm (p : SesReq) (write : Bool) (d : RxDesc) : RxDesc :=
  { d with immData := p.word, writeImm := true, postCq := d.postCq || write }

def rxFirstPkt (s : RxEp) (env : RxEnv) (p : SesReq) (tagged write : Bool)
    (id : Option DescId) : Except RxStop (RxEp × DescId) :=
  match genErr s p tagged with
  | some rc => .error (s, id, rc)
  | none =>
    match rxFindBuffer s env p tagged id with
    | .error stop => .error stop
    | .ok (s, id) =>
      if !write && (s.desc id).jobId != jobIdAny && (s.desc id).jobId != p.jobId then
        .error (s, some id, .badJobId)
      else
        let s := rxMsgStart s env.now p id
        if p.hd then
          if s.cqFormat.size < CqFormat.data.size then .error (s, some id, .opViolation)
          else
            .ok (s.setDesc id (.setImm p write), id)
        else .ok (s, id)

def rxScatter (s : RxEp) (p : SesReq) (d : RxDesc) (off : Nat) : Mem × Bool :=
  let pkt := p.read p.pktPayloadLen
  match d.kind with
  | .mr =>
    match d.mr with
    | none => (s.mem, false)
    | some i =>
      let (m, n) := mrScatter s.mem (s.dom.mr i).region.buf off pkt
      (m, n == p.pktPayloadLen)
  | .seg segs =>
    let (m, n) := scatterFlatToSeg (fun i => (s.dom.mr i).region) s.mem segs pkt off
    (m, n == p.pktPayloadLen)
  | .iov iov =>
    let (m, n) := scatterFlatToIov s.mem iov pkt off
    (m, n == p.pktPayloadLen)
  | .contig => (memcpy s.mem ((d.buf + off) % 2 ^ 64) (p.read p.sesPayloadLen), true)

def RxDesc.received (p : SesReq) (d : RxDesc) : RxDesc :=
  { d with srcId := p.initiator, remaining := d.remaining - p.sesPayloadLen }

def rxAccount (s : RxEp) (p : SesReq) (id : DescId) : RxEp :=
  let s := s.setDesc id (.received p)
  if (s.desc id).remaining = 0 then rxCqPostEntry s id else s

def rxPlace (s : RxEp) (now : Nat) (p : SesReq) (write : Bool) (id : DescId) : RxEp × SesRc :=
  let d := s.desc id
  let off := p.rxBufOff write
  if d.len < (off + BitVec.ofNat 64 p.sesPayloadLen).toNat then
    rxMsgErr s now p p.sesPayloadLen (some id) .badAddr
  else if d.remaining < p.sesPayloadLen then
    rxMsgErr s now p p.sesPayloadLen (some id) .opViolation
  else if p.ie then rxMsgErr s now p p.sesPayloadLen (some id) .initiatorErr
  else
    let copied := rxScatter s p d off.toNat
    let s := { s with mem := copied.1 }
    if copied.2 then (rxAccount s p id, .ok)
    else rxMsgErr s now p p.sesPayloadLen (some id) .badAddr

/-- `uet_rx_req_pkt` once the descriptor of the message is known. -/
def rxReqBody (s : RxEp) (env : RxEnv) (p : SesReq) (tagged write : Bool)
    (later : Bool) (id : Option DescId) : RxEp × SesRc :=
  if p.som && (!write || p.hd) && s.cqDown then
    rxMsgErr s env.now p p.sesPayloadLen id .disabled
  else if invalidPayloadLen s p then rxMsgErr s env.now p p.sesPayloadLen id .opViolation
  else
    match later, id with
    | true, some id =>
      match laterPktErr s p write id with
      | some rc => rxMsgErr s env.now p p.sesPayloadLen (some id) rc
      | none => rxPlace s env.now p write id
    | _, _ =>
      match rxFirstPkt s env p tagged write id with
      | .error (s, id, rc) => rxMsgErr s env.now p p.sesPayloadLen id rc
      | .ok (s, id) => rxPlace s env.now p write id

/-- `uet_rx_req_pkt`. -/
def rxReqPkt (s : RxEp) (env : RxEnv) (p : SesReq) (tagged write sync : Bool) : RxEp × SesRc :=
  if write && p.pds == .rudi then rudiWrite s p
  else
    match getRxDesc s env p write sync .ok with
    | (s, .done rc) => (s, rc)
    | (s, .later id) => rxReqBody s env p tagged write true (some id)
    | (s, .first id) => rxReqBody s env p tagged write false id

end Uet.Ses
