import Uet.PtrBitmap
import Uet.Pds.Wire

/-!
# The PDC record and its surroundings

`struct uet_pdc` and `struct uet_pdc_pkt` with the fields the delivery layer reads
and writes: `TxSide` is the initiator side (and the target's return direction),
`RxSide` the target side (and the initiator's return direction). A transmitted
packet is reached through pointers from both `tx_bm` and the retransmit list, so the transmit side keeps a
heap of packets by identifier; a received packet is reached from `rx_bm` alone.

What PDS calls and does not compute (SES, the NIC, the clock, the allocator, the
random close test) is an argument of the step, `Env`; what it does besides
updating the record is the list of `Out` of the step.
-/

namespace Uet.Pds

/-- `pdc_state_t`. `PDC_STATE_ERROR` is tested in the source and never assigned. -/
inductive PdcState where
  | unalloc | syn | pending | established | closing | error
  deriving DecidableEq, Repr

abbrev Handle := Nat
abbrev PktId := Nat

/-- A received packet held in `rx_bm`: `pkt_pp` and the receive fields of
`struct uet_pdc_pkt`. A NULL `ack` pointer is `none`. -/
structure RxPkt where
  psn : Psn
  pp : ParsedPkt
  needsClear : Bool := false
  reordered : Bool := false
  ack : Option AckHdr := none

/-- The transmit fields of `struct uet_pdc_pkt`; `hdr` is the packet as built. -/
structure TxPkt where
  psn : Psn
  msgId : MsgId
  txPktHandle : Option Handle
  hdr : PdsHdr
  txPktAcked : Bool := false
  dstRecvd : Bool := false
  txRetryCnt : Nat := 0
  txTime : Nat := 0

structure RxSide where
  rxBm : PtrBitmap RxPkt 2
  rxBmBasePsn : Psn
  cackPsn : Psn
  maxClearPsn : Psn
  prevArPsn : Psn
  maxRcvdPsn : Psn
  acceptedBytes : BitVec 32
  sackBaseTrack : Psn

/-- The initiator side fields. `pkts` and `nextId` are the heap of transmitted packets. -/
structure TxSide where
  txPktList : List PktId
  txBm : PtrBitmap PktId 2
  pkts : PktId → Option TxPkt
  nextId : PktId
  nextPsn : Psn
  txBmBasePsn : Psn
  maxCackPsn : Psn
  peerMpRange : BitVec 32
  mprUpdateCackPsn : Psn
  mprUpdateValid : Bool

/-- `struct uet_pdc`. Times are milliseconds, 0 where the source stores 0. -/
structure Pdc where
  state : PdcState
  isInitiator : Bool
  pdcId : PdcId
  dpdcid : PdcId
  activeMsgId : MsgId
  activeMsgIdValid : Bool
  closeRequested : Bool
  closeStarted : Bool
  closeCmdPsn : Psn
  srcAddr : Fa
  dstAddr : Fa
  synOffset : BitVec 16
  startPsn : Psn
  pendingTime : Nat
  closeReqTime : Nat
  secEnabled : Bool
  sdi : BitVec 32
  tx : TxSide
  rx : RxSide

/-- `uet->pds.ack_type`. -/
inductive AckType where
  | ack | ackCc | ackCcx
  deriving DecidableEq, Repr

def AckType.pdsType : AckType → PdsType
  | .ack => .ack
  | .ackCc => .ackCc
  | .ackCcx => .ackCcx

/-- `uet_pds_psn_method_t`. -/
inductive PsnMethod where
  | zeroRtt | oneRtt
  deriving DecidableEq, Repr

/-- `uet->pds` and the static settings of `uet_pds.c`. -/
structure Cfg where
  perPktAckEnabled : Bool
  ackType : AckType
  ackGenMinPktAdd : BitVec 32
  ackGenTrigger : BitVec 32
  maxTxRetries : Nat
  txTimeout : Nat
  newPdcTimeMs : Nat
  closeReqTimeMs : Nat
  psnMethod : PsnMethod

/-- What SES answers to an `rx_req` upcall; `noBuf` is a failed allocation of the
response buffer, where the upcall is not made. -/
inductive SesOutcome where
  | ok (gtdDel : Bool) (nextHdr : NextHdr) (rsp : List (BitVec 8))
  | sesNack
  | fail
  | noBuf
  deriving DecidableEq, Repr

/-- The per-SDI start PSNs of `uet_sec_sd.c`. -/
structure Sd where
  iniStartPsn : Psn
  tgtStartPsn : Psn
  deriving DecidableEq, Repr

/-- What a step takes from outside PDS. `nic` says whether a packet could be
allocated and was accepted for transmission, `rspOk` whether an `rx_rsp` upcall
returned 0. -/
structure Env where
  cfg : Cfg
  now : Nat
  ses : Psn → SesOutcome
  nic : Frame → Bool
  rspOk : Bool
  mapOk : Bool
  randClose : Bool
  sd : Sd

inductive Out where
  /-- A request, NACK or control packet handed to the NIC. -/
  | tx (f : Frame)
  /-- An ACK for the packet with PSN `acked`; `resent` marks a stored ACK sent again. -/
  | txAck (acked : Psn) (resent : Bool) (f : Frame)
  /-- An `rx_req` upcall for `psn`, its answer, and `cack_psn` once the answer was taken in. -/
  | rxReq (psn : Psn) (ans : SesOutcome) (cack : Psn)
  /-- An `rx_rsp` upcall; `rsp` is the SES header of an explicit ACK, `none` a NULL packet. -/
  | rxRsp (id : PktId) (handle : Option Handle) (rsp : Option SesHdr)
  | pdsErr (id : PktId) (handle : Handle)
  /-- A packet dropped by `uet_pds_drop_tx_pkts`. -/
  | dropped (id : PktId)
  | freedPkt (id : PktId)
  | setIniStartPsn (v : Psn)
  | setTgtStartPsn (v : Psn)
  | freedPdc

def Out.frame? : Out → Option Frame
  | .tx f => some f
  | .txAck _ _ f => some f
  | _ => none

def framesOf (os : List Out) : List Frame := os.filterMap Out.frame?

/-- `uet_pds_sec_tx_pkt` for a packet that is not an ACK. -/
def sendFrame (env : Env) (f : Frame) : List Out := if env.nic f then [.tx f] else []

/-- `uet_pds_sec_tx_pkt` for an ACK. -/
def sendAck (env : Env) (acked : Psn) (resent : Bool) (f : Frame) : List Out :=
  if env.nic f then [.txAck acked resent f] else []

/-- `uet_pds_tx_nack`; the source builds it with PDC identifier 0 when there is no PDC. -/
def txNack (env : Env) (pdcId : PdcId) (orig : ParsedPkt) (code : NackCode) (payload : BitVec 32) :
    List Out :=
  sendFrame env ⟨orig.dst, orig.src,
    .nack ⟨orig.retx, code, orig.psn, pdcId, orig.spdcid, payload⟩⟩

end Uet.Pds
