import Uet.Ses.RxMsg

/-!
# Transmitting a message

The descriptor of a transmit and the loop of `uet_tx_msg`, which cuts a message into
packets: what each packet carries and the header built for it. The packet layer decides with
every downcall whether the packet is taken, so the outcomes come from outside.
-/

namespace Uet.Ses

open Flat

/-- `uet_tx_desc_state_t`. -/
inductive TxState where
  | inactive | active | wait | retx | defer | restartWait | err | errComplete | complete
  deriving DecidableEq, Repr

/-- What a transmit descriptor is for: `cq_flags` with the bits of `desc_flags` that say
the kind of request. -/
inductive TxOp where
  | send | tsend | write | writeSync | read | readRsp | rtr (tagged : Bool)
  | atomic | atomicSync | fetchAtomic | compareAtomic
  deriving DecidableEq, Repr

/-- `FI_MSG` or `FI_TAGGED` in `cq_flags`, of a request with data. -/
def TxOp.isSend : TxOp → Bool
  | .send | .tsend => true
  | _ => false

/-- `UET_TX_DESC_FLAG_SYNC_REQ`. -/
def TxOp.isSync : TxOp → Bool
  | .writeSync | .atomicSync => true
  | _ => false

def TxOp.noPayload : TxOp → Bool
  | .read | .atomic | .atomicSync | .fetchAtomic | .compareAtomic => true
  | _ => false

/-- `struct uet_tx_desc`. `expectedRdRsp` is kept in the receive descriptor of a read, and
`msgNo` counts the messages the descriptor is used for. -/
structure TxDesc where
  state : TxState
  op : TxOp
  postCq : Bool
  immValid : Bool
  cancelPending : Bool
  dsend : Bool
  inDsendList : Bool
  gotRtr : Bool
  kind : MsgBufKind
  buf : Nat
  len : Nat
  bufOff : Nat
  remaining : Nat
  transmitted : Bool
  pktCnt : Nat
  unackPkts : Nat
  expectedRdRsp : Nat
  errCode : Nat
  retransmitCnt : Nat
  delayRetx : Bool
  txTime : Nat
  deferTime : Nat
  pdsMode : PdsReq
  seqNum : Nat
  dst : Nat
  msgId : BitVec 16
  jobId : JobId
  remoteStartOff : BitVec 64
  remoteKey : BitVec 64
  tagOrImm : BitVec 64
  localRtrToken : BitVec 16
  remoteRtrToken : BitVec 32
  syncGrp : BitVec 16
  context : Nat
  msgNo : Nat

def TxDesc.zero : TxDesc :=
  { state := .inactive, op := .send, postCq := false, immValid := false, cancelPending := false,
    dsend := false, inDsendList := false, gotRtr := false, kind := .contig, buf := 0, len := 0,
    bufOff := 0, remaining := 0, transmitted := false, pktCnt := 0, unackPkts := 0,
    expectedRdRsp := 0, errCode := 0, retransmitCnt := 0, delayRetx := false, txTime := 0,
    deferTime := 0, pdsMode := .rud, seqNum := 0, dst := 0, msgId := 0, jobId := 0,
    remoteStartOff := 0, remoteKey := 0, tagOrImm := 0, localRtrToken := 0, remoteRtrToken := 0,
    syncGrp := 0, context := 0, msgNo := 0 }

/-- What the transmit functions read of the endpoint, the instance and the address vector
entry of the destination. -/
structure TxCfg where
  maxPayloadLen : Nat
  initiator : BitVec 32
  untaggedGen : BitVec 32
  taggedGen : BitVec 32
  rud : Bool
  msgRndzSize : Nat
  tagRndzSize : Nat
  syncCnt : BitVec 16

/-! ## The header -/

/-- `struct uet_ses_req_std` as the receiver parses it. -/
structure SesHdr where
  opcode : SesOpcode
  som : Bool
  eom : Bool
  hd : Bool
  gen : BitVec 32
  jobId : JobId
  msgId : BitVec 16
  reqLen : BitVec 32
  bufOff : BitVec 64
  word : BitVec 64
  matchBits : BitVec 64
  initiator : BitVec 32
  syncGrp : BitVec 16
  syncCnt : BitVec 16

/-- `ri_gen_job_id`. -/
def riGenJobId (gen : BitVec 32) (jobId : JobId) : BitVec 32 := gen <<< 24 ||| jobId

/-- `uet_build_ses_rtr_token`. -/
def buildSesRtrToken (src : BitVec 16) (dst : BitVec 32) : BitVec 64 :=
  ((src.zeroExtend 64 <<< 32) &&& 0xffffffff00000000) ||| (dst.zeroExtend 64 &&& 0x00000000ffffffff)

/-- `payload_len_msg_off`. -/
def payloadLenMsgOff (off len : Nat) : BitVec 64 :=
  (BitVec.ofNat 64 off &&& (0x00000000ffffffff : BitVec 64)) |||
    ((BitVec.ofNat 64 len <<< 32) &&& (0x00003fff00000000 : BitVec 64))

def TxDesc.opcode (d : TxDesc) : SesOpcode :=
  match d.op with
  | .send => if d.dsend then .deferSend else .send
  | .tsend => if d.dsend then .deferTsend else .taggedSend
  | .write => .write
  | .writeSync => .syncWrite
  | .read => .read
  | _ => .other

/-- `match_bits`. -/
def TxDesc.matchBits (d : TxDesc) : BitVec 64 :=
  match d.op with
  | .send => 0
  | .tsend => d.tagOrImm
  | _ => d.remoteKey

def TxDesc.som (d : TxDesc) : Bool := d.remaining == d.len

/-- `payload_len` of the header: a read says how much it asks for. -/
def TxDesc.hdrPayloadLen (cfg : TxCfg) (d : TxDesc) (pktLen : Nat) : Nat :=
  if !d.som && d.op == .read then min d.remaining cfg.maxPayloadLen else pktLen

/-- `buf_off`, or the restart token in its place. -/
def TxDesc.hdrBufOff (d : TxDesc) : BitVec 64 :=
  if d.op.isSend && d.dsend then buildSesRtrToken d.localRtrToken d.remoteRtrToken
  else d.remoteStartOff

/-- `UET_SES_REQ_FLAG_HD`: immediate data travels with the first packet. -/
def TxDesc.hdrData (d : TxDesc) : Bool :=
  d.som && d.immValid && (d.op == .send || d.op == .write || d.op == .writeSync)

/-- `uet_build_ses_hdr` for the requests with a standard header; the other kinds have
builders of their own. A cancel turns the request into the end of its message. -/
def buildSesHdr (cfg : TxCfg) (d : TxDesc) (pktLen : Nat) : SesHdr :=
  let payloadLen := d.hdrPayloadLen cfg pktLen
  let ri := riGenJobId (if d.op = .tsend then cfg.taggedGen else cfg.untaggedGen) d.jobId
  { opcode :=
      if d.cancelPending then
        if d.inDsendList then (if d.op = .send then .deferSend else .deferTsend) else .msgErr
      else d.opcode
    som := d.som
    eom := (if d.som then payloadLen == d.len else payloadLen == d.remaining) || d.cancelPending
    hd := d.hdrData
    gen := (ri &&& 0xff000000) >>> 24
    jobId := ri &&& 0x00ffffff
    msgId := d.msgId
    reqLen := BitVec.ofNat 32 d.len
    bufOff :=
      if d.cancelPending && d.inDsendList then buildSesRtrToken d.localRtrToken d.remoteRtrToken
      else d.hdrBufOff
    word :=
      if d.cancelPending then payloadLenMsgOff d.bufOff 0
      else if d.som then (if d.hdrData then d.tagOrImm else 0)
      else payloadLenMsgOff d.bufOff payloadLen
    matchBits := d.matchBits
    initiator := cfg.initiator
    syncGrp := if d.op.isSync then d.syncGrp else 0
    syncCnt := if d.op.isSync then cfg.syncCnt else 0 }

/-! ## The loop -/

/-- The outcome of the `tx_pkt` downcall. -/
inductive TxRc where
  | ok | eagain | fail (err : Nat)
  deriving DecidableEq, Repr

/-- One turn of the loop as far as it is decided outside: whether the buffer of a packet
can be allocated, and the outcome of the downcall. -/
structure TxTry where
  alloc : Bool
  rc : TxRc
  deriving DecidableEq, Repr

structure TxPkt where
  hdr : SesHdr
  payload : List Byte

/-- `FI_ENOMEM`. -/
def fiEnomem : Nat := 12

/-- `uet_tx_desc_set_err`. -/
def TxDesc.setErr (errCode : Nat) (state : TxState) (d : TxDesc) : TxDesc := { d with errCode, state }

/-- The bytes of a packet; `none` where a vector or a segment list gives no buffer. -/
def txPayload (mrs : Nat → Region) (m : Mem) (alloc : Bool) (d : TxDesc) (payloadLen : Nat) :
    Option (List Byte) :=
  match d.kind with
  | .seg segs =>
    let bytes := gatherSegToFlat mrs m segs payloadLen d.bufOff
    if alloc && bytes.length == payloadLen then some bytes else none
  | .iov iov => if alloc then gatherIovToBuffer m iov payloadLen d.bufOff else none
  | _ => some ((run (d.buf + d.bufOff) payloadLen).map m)

/-- The packet has been taken. A UUD packet is acknowledged within the downcall, which
leaves the number of packets outstanding as it was. -/
def TxDesc.sent (payloadLen : Nat) (d : TxDesc) : TxDesc :=
  { d with
    unackPkts := if d.pdsMode = .uud then d.unackPkts else d.unackPkts + 1
    bufOff := d.bufOff + payloadLen, remaining := d.remaining - payloadLen, transmitted := true
    expectedRdRsp := if d.op = .read then d.expectedRdRsp + 1 else d.expectedRdRsp }

def TxDesc.allSent (d : TxDesc) : Bool := d.remaining == 0 && d.transmitted

def TxDesc.nextPkt (cfg : TxCfg) (d : TxDesc) (bytes : List Byte) : TxPkt :=
  let pktLen := if d.op.noPayload then 0 else bytes.length
  ⟨buildSesHdr cfg d pktLen, bytes.take pktLen⟩

/-- The loop of `uet_tx_msg`, with the packets taken. -/
def txMsgLoop (cfg : TxCfg) (mrs : Nat → Region) (m : Mem) :
    List TxTry → TxDesc → TxDesc × List TxPkt × TxRc
  | [], d => (d, [], if d.allSent then .ok else .eagain)
  | t :: ts, d =>
    if d.allSent then (d, [], .ok)
    else
      let payloadLen := min d.remaining cfg.maxPayloadLen
      match txPayload mrs m t.alloc d payloadLen with
      | none => (d.setErr fiEnomem .errComplete, [], .fail fiEnomem)
      | some bytes =>
        let pkt := d.nextPkt cfg bytes
        let d := { d with pktCnt := d.pktCnt + 1 }
        match t.rc with
        | .ok =>
          let (d, pkts, rc) := txMsgLoop cfg mrs m ts (d.sent payloadLen)
          (d, pkt :: pkts, rc)
        | .eagain => (d, [], .eagain)
        | .fail err => (d.setErr err .errComplete, [], .fail err)

/-- `uet_dsend_init`: a large send over RUD gets the restart token that can be allocated. -/
def dsendInit (cfg : TxCfg) (token : Option (BitVec 16)) (d : TxDesc) : TxDesc :=
  if d.dsend || !cfg.rud || !d.op.isSend then d
  else if d.len < (if d.op = .send then cfg.msgRndzSize else cfg.tagRndzSize) then d
  else
    match token with
    | none => d
    | some token => { d with dsend := true, localRtrToken := token }

/-- A call of `uet_tx_msg` as far as it is decided outside. -/
structure TxCall where
  token : Option (BitVec 16)
  tries : List TxTry
  deriving DecidableEq, Repr

/-- `uet_tx_msg`. -/
def txMsg (cfg : TxCfg) (mrs : Nat → Region) (m : Mem) (c : TxCall) (d : TxDesc) :
    TxDesc × List TxPkt × TxRc :=
  txMsgLoop cfg mrs m c.tries (if d.som then dsendInit cfg c.token d else d)

def txCalls (cfg : TxCfg) (mrs : Nat → Region) (m : Mem) : List TxCall → TxDesc → TxDesc × List TxPkt
  | [], d => (d, [])
  | c :: calls, d =>
    let first := txMsg cfg mrs m c d
    let rest := txCalls cfg mrs m calls first.1
    (rest.1, first.2.1 ++ rest.2)

end Uet.Ses
