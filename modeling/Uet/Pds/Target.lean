import Uet.Pds.Pdc

/-!
# The receive side of a PDC

ACK building, the cumulative acknowledgement, the SES upcall, delivery of RUD and
ROD requests and the receive window, as `uet_pds.c` computes them. `ids` are the
PDC's own and its peer's identifier, which ACK headers carry.
-/

namespace Uet.Pds

structure PdcIds where
  pdcId : PdcId
  dpdcid : PdcId

/-- `uet_pds_update_sack_base`. -/
def updateSackBase (rx : RxSide) (psn : Psn) (isSackTrigger : Bool) : RxSide :=
  if isSackTrigger then
    if psnAfter rx.maxRcvdPsn (rx.sackBaseTrack + 63) then
      { rx with sackBaseTrack := rx.sackBaseTrack + 64 }
    else rx
  else if psnAfter rx.cackPsn rx.sackBaseTrack then { rx with sackBaseTrack := rx.cackPsn }
  else if psnAfter psn rx.cackPsn && psnAfter rx.sackBaseTrack psn then
    { rx with sackBaseTrack := psn }
  else rx

/-- `uet_pds_build_ack_cc_ext` for the packet with PSN `psn`. -/
def buildAckCcExt (env : Env) (rx : RxSide) (psn : Psn) (h : AckHdr) : RxSide × AckHdr :=
  let sackBasePsn := if env.cfg.perPktAckEnabled then psn else rx.sackBaseTrack
  let rx := if env.cfg.perPktAckEnabled then rx else updateSackBase rx psn true
  let bmStartIdx := psnOffset sackBasePsn rx.rxBmBasePsn
  (rx, { h with
    mpr := BitVec.ofNat 8 (mpRange / mprGranularity)
    sackPsnOffset := psn2cOffset rx.cackPsn sackBasePsn
    sackBitmap := rx.rxBm.extract64 bmStartIdx })

/-- The header both ACK builders fill in, with the CC extension when configured:
`uet_pds_build_ack_pkt`, and the same lines of `uet_pds_tx_def_rsp_ack_pkt`. -/
def buildAckPkt (env : Env) (ids : PdcIds) (rx : RxSide) (pp : ParsedPkt) (nextHdr : NextHdr)
    (reqClr : Bool) (ses : SesHdr) : RxSide × AckHdr :=
  let h : AckHdr :=
    { pdsType := env.cfg.ackType.pdsType, nextHdr, reqClr, epsn := false,
      ackPsnOffset := psn2cOffset rx.cackPsn pp.psn, cackPsn := rx.cackPsn,
      spdcid := ids.pdcId, dpdcid := ids.dpdcid,
      mpr := 0, sackPsnOffset := 0, sackBitmap := 0, payload := 0, ses }
  if isCcAck env.cfg.ackType.pdsType then buildAckCcExt env rx pp.psn h else (rx, h)

def ackFrame (pp : ParsedPkt) (h : AckHdr) : Frame := ⟨pp.dst, pp.src, .ack h⟩

/-- `uet_pds_tx_ack_pkt`; the header is what the packet's `ack` then points to. -/
def txAckPkt (env : Env) (ids : PdcIds) (rx : RxSide) (pkt : RxPkt) (nextHdr : NextHdr)
    (ses : SesHdr) : RxSide × AckHdr × List Out :=
  let (rx, h) := buildAckPkt env ids rx pkt.pp nextHdr pkt.needsClear ses
  (rx, h, sendAck env pkt.pp.psn false (ackFrame pkt.pp h))

/-- `uet_pds_tx_close_ack_epsn`. -/
def txCloseAckEpsn (env : Env) (ids : PdcIds) (rx : RxSide) (pp : ParsedPkt)
    (payload : BitVec 32) : List Out :=
  let h : AckHdr :=
    { pdsType := .ack, nextHdr := .none, reqClr := false, epsn := true,
      ackPsnOffset := psn2cOffset rx.cackPsn pp.psn, cackPsn := rx.cackPsn,
      spdcid := ids.pdcId, dpdcid := ids.dpdcid,
      mpr := 0, sackPsnOffset := 0, sackBitmap := 0, payload, ses := .none }
  sendAck env pp.psn false (ackFrame pp h)

/-- `uet_pds_tx_def_rsp_ack_pkt`; the default response is not kept. -/
def txDefRspAckPkt (env : Env) (ids : PdcIds) (rx : RxSide) (pp : ParsedPkt) :
    RxSide × List Out :=
  let (rx, h) := buildAckPkt env ids rx pp .rsp false (.defRsp pp.sesMsgId)
  (rx, sendAck env pp.psn false (ackFrame pp h))

/-- The loop test of `uet_pds_update_cack`: the entry is there and not waiting for a clear. -/
def cackPasses (maxClearPsn : Psn) : Option RxPkt → Bool
  | none => false
  | some temp => !(temp.needsClear && psnAfter temp.psn maxClearPsn)

/-- The loop of `uet_pds_update_cack` from index `i`, `n` iterations at most. -/
def cackScan (rxBm : PtrBitmap RxPkt 2) (maxClearPsn : Psn) : (n i : Nat) → Nat
  | 0, i => i
  | n + 1, i =>
    if cackPasses maxClearPsn (rxBm.get i) then cackScan rxBm maxClearPsn n (i + 1) else i

/-- `uet_pds_update_cack`. -/
def updateCack (rx : RxSide) (pdsClearPsn : Psn) : RxSide :=
  let maxClearPsn := updatePsn rx.maxClearPsn pdsClearPsn
  let i := cackScan rx.rxBm maxClearPsn (rx.rxBm.max + 1).toNat 0
  { rx with
    maxClearPsn
    cackPsn := rx.rxBmBasePsn + BitVec.ofNat 32 i - 1 }

/-- `uet_pds_should_sack`. -/
def shouldSack (env : Env) (rx : RxSide) (pkt : RxPkt) : Bool :=
  pkt.pp.ar || pkt.pp.syn || pkt.needsClear ||
    decide (env.cfg.ackGenTrigger.toNat ≤ rx.acceptedBytes.toNat) ||
    rx.prevArPsn == rx.maxRcvdPsn

def acceptedAdd (env : Env) (pp : ParsedPkt) : BitVec 32 :=
  if env.cfg.ackGenMinPktAdd.toNat < pp.pktPayloadLen.toNat then pp.pktPayloadLen.setWidth 32
  else env.cfg.ackGenMinPktAdd

/-- The receive state before `uet_pds_update_cack` runs for a packet SES accepted. -/
def noteAccepted (env : Env) (rx : RxSide) (i : Int) (pkt : RxPkt) : RxSide :=
  { rx with
    rxBm := rx.rxBm.set i pkt
    acceptedBytes := rx.acceptedBytes + acceptedAdd env pkt.pp
    maxRcvdPsn := updatePsn rx.maxRcvdPsn pkt.pp.psn
    prevArPsn := if pkt.pp.ar then updatePsn rx.prevArPsn pkt.pp.psn else rx.prevArPsn }

def takeAnswer (env : Env) (rx : RxSide) (i : Int) (pkt : RxPkt) : RxSide :=
  updateSackBase (updateCack (noteAccepted env rx i pkt) pkt.pp.clearPsn) pkt.pp.psn false

/-- The branch of `uet_pds_upcall_ses_rx_req` for a packet SES accepted; `i` is
its index in `rx_bm`. -/
def acceptReq (env : Env) (ids : PdcIds) (rx : RxSide) (i : Int) (pkt : RxPkt) (gtdDel : Bool)
    (nextHdr : NextHdr) (rsp : List (BitVec 8)) : RxSide × List Out :=
  let pkt := { pkt with needsClear := gtdDel }
  let rx := takeAnswer env rx i pkt
  let upcall := Out.rxReq pkt.pp.psn (.ok gtdDel nextHdr rsp) rx.cackPsn
  if shouldSack env rx pkt then
    let (rx, h, outs) := txAckPkt env ids rx pkt nextHdr (.rsp rsp)
    ({ rx with rxBm := rx.rxBm.set i { pkt with ack := some h }, acceptedBytes := 0 },
      upcall :: outs)
  else (rx, [upcall])

/-- `uet_pds_upcall_ses_rx_req`; the Bool says that it returned 0. -/
def upcallSesRxReq (env : Env) (ids : PdcIds) (rx : RxSide) (i : Int) (pkt : RxPkt) :
    RxSide × List Out × Bool :=
  match env.ses pkt.pp.psn with
  | .ok gtdDel nextHdr rsp =>
    let (rx, outs) := acceptReq env ids rx i pkt gtdDel nextHdr rsp
    (rx, outs, true)
  | .sesNack =>
    (rx, .rxReq pkt.pp.psn .sesNack rx.cackPsn :: txNack env ids.pdcId pkt.pp .noSesMsgAvail 0,
      false)
  | .fail =>
    (rx, .rxReq pkt.pp.psn .fail rx.cackPsn :: txNack env ids.pdcId pkt.pp .unexpEvent 0, false)
  | .noBuf => (rx, txNack env ids.pdcId pkt.pp .noSesMsgAvail 0, false)

/-- `uet_pds_shift_rx_window`. -/
def shiftRxWindow (rx : RxSide) : RxSide :=
  let shiftCount := psnOffset (rx.cackPsn + 1) rx.rxBmBasePsn
  if shiftCount ≤ 0 then rx
  else { rx with
    rxBm := rx.rxBm.shiftRight shiftCount.toNat
    rxBmBasePsn := rx.rxBmBasePsn + BitVec.ofInt 32 shiftCount }

/-- `temp_pdc_pkt->reordered = true` for the packet at index `i`. -/
def markReordered (rx : RxSide) (i : Int) : RxSide :=
  match rx.rxBm.get i with
  | some t => { rx with rxBm := rx.rxBm.set i { t with reordered := true } }
  | none => rx

/-- The ROD loop of `uet_pds_process_data_pkt` from index `i`, `n` iterations at most. -/
def rodDeliver (env : Env) (ids : PdcIds) : (n : Nat) → (rx : RxSide) → (i : Nat) →
    RxSide × List Out
  | 0, rx, _ => (rx, [])
  | n + 1, rx, i =>
    match rx.rxBm.get i with
    | none => (rx, [])
    | some temp =>
      if temp.reordered then rodDeliver env ids n rx (i + 1)
      else
        match upcallSesRxReq env ids rx i temp with
        | (rx, outs, true) =>
          let (rx, rest) := rodDeliver env ids n (markReordered rx i) (i + 1)
          (rx, outs ++ rest)
        | (rx, outs, false) => ({ rx with rxBm := rx.rxBm.unset i }, outs)

/-- `uet_pds_process_data_pkt` for the packet just placed at index `i` of `rx_bm`. -/
def processDataPkt (env : Env) (ids : PdcIds) (rx : RxSide) (i : Int) (pkt : RxPkt) :
    RxSide × List Out :=
  match pkt.pp.pdsType with
  | .rudReq =>
    match upcallSesRxReq env ids rx i pkt with
    | (rx, outs, true) => (shiftRxWindow rx, outs)
    | (rx, outs, false) => ({ rx with rxBm := rx.rxBm.unset i }, outs)
  | .rodReq =>
    let (rx, outs) := rodDeliver env ids (rx.rxBm.max + 1).toNat rx 0
    (shiftRxWindow rx, outs)
  | _ => (shiftRxWindow rx, [])

/-- `uet_pds_sec_tx_pkt` of the ACK stored with a received packet. -/
def resendAck (env : Env) (orig : RxPkt) (h : AckHdr) : List Out :=
  sendAck env orig.pp.psn true (ackFrame orig.pp h)

/-- What `uet_pds_check_duplicate_and_rtx` found. -/
inductive DupCheck where
  | newPsn | rtx | invalid
  deriving DecidableEq, Repr

/-- The reply to a duplicate of the packet `orig` that is still in the window and
has no stored ACK, here and in `uet_pds_process_ack_req_cp`: `pp` is what the
default response would acknowledge. -/
def replyNoAck (env : Env) (ids : PdcIds) (rx : RxSide) (orig : RxPkt) (nacked pp : ParsedPkt) :
    RxSide × List Out :=
  if orig.pp.pdsType == .rodReq && !orig.reordered then
    (rx, txNack env ids.pdcId nacked .rcvdSesProcg 0)
  else txDefRspAckPkt env ids rx pp

/-- `uet_pds_check_duplicate_and_rtx`. -/
def checkDuplicateAndRtx (env : Env) (ids : PdcIds) (rx : RxSide) (pp : ParsedPkt) :
    RxSide × List Out × DupCheck :=
  if psnInPriorMpr pp.psn rx.rxBmBasePsn then
    let (rx, outs) := txDefRspAckPkt env ids rx pp
    (rx, outs, .rtx)
  else if psnInMpr pp.psn rx.rxBmBasePsn then
    match rx.rxBm.get (psnOffset pp.psn rx.rxBmBasePsn) with
    | none => (rx, [], .newPsn)
    | some orig =>
      match orig.ack with
      | some h => (rx, resendAck env orig h, .rtx)
      | none =>
        let (rx, outs) := replyNoAck env ids rx orig pp pp
        (rx, outs, .rtx)
  else
    (rx, txNack env ids.pdcId pp (if pp.syn then .invalidSyn else .psnOorWindow) 0, .invalid)

/-- The common end of `uet_pds_process_request` and `uet_pds_process_syn_pkt`: the
duplicate check, the drop of a new PSN where `dropNew` says so, `bm_set` and delivery. -/
def receiveReq (env : Env) (ids : PdcIds) (dropNew : Bool) (rx : RxSide) (pp : ParsedPkt) :
    RxSide × List Out :=
  match checkDuplicateAndRtx env ids rx pp with
  | (rx, outs, .newPsn) =>
    let i := psnOffset pp.psn rx.rxBmBasePsn
    let pkt : RxPkt := { psn := pp.psn, pp }
    if dropNew then (rx, outs)
    else if rx.rxBm.settable i pkt then
      let (rx, outs') := processDataPkt env ids { rx with rxBm := rx.rxBm.set i pkt } i pkt
      (rx, outs ++ outs')
    else (rx, outs)
  | (rx, outs, _) => (rx, outs)

/-- `uet_pds_process_ack_req_cp`. -/
def processAckReqCp (env : Env) (ids : PdcIds) (rx : RxSide) (pp : ParsedPkt) :
    RxSide × List Out :=
  if psnInMpr pp.psn rx.rxBmBasePsn then
    match rx.rxBm.get (psnOffset pp.psn rx.rxBmBasePsn) with
    | none => (rx, txNack env ids.pdcId pp .pktNotRcvd 0)
    | some orig =>
      match orig.ack with
      | some h => (rx, resendAck env orig h)
      | none => replyNoAck env ids rx orig pp orig.pp
  else (rx, [])

/-- `uet_pds_process_clear_cp`. -/
def processClearCp (rx : RxSide) (pp : ParsedPkt) : RxSide :=
  shiftRxWindow (updateCack rx pp.ctrlPayload)

end Uet.Pds
