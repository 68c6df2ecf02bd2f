import Uet.Pds.Initiator

/-!
# One PDC under every event

Requests, control packets and timers, and the step function that puts every entry
point of `uet_pds.c` on one PDC together: the SES calls, the packets the receive
path routes to the PDC, and the timer sweep. A frame that names no allocated PDC
changes nothing but may be NACKed.
-/

namespace Uet.Pds

def Pdc.ids (p : Pdc) : PdcIds := ⟨p.pdcId, p.dpdcid⟩

/-! ## Requests -/

/-- `uet_pds_process_syn_pkt` when `uet_pdsm_assign_tgt_pdc` finds this target PDC
under the packet's key. -/
def processSynPkt (env : Env) (p : Pdc) (pp : ParsedPkt) : Pdc × List Out :=
  if pp.nextHdr != .reqSmall && pp.nextHdr != .reqMedium && pp.nextHdr != .reqStd then
    (p, txNack env 0 pp .pdcHdrMismatch 0)
  else if p.state == .pending && pp.psn - pp.synOff.setWidth 32 != p.startPsn then
    (p, txNack env 0 pp .newStartPsn p.startPsn)
  else
    let p := if p.state == .pending then { p with state := .established } else p
    let (rx, outs) := receiveReq env p.ids false p.rx pp
    ({ p with rx }, outs)

/-- `uet_pds_process_request` without the SYN flag, on the PDC it names. -/
def processRequest (env : Env) (p : Pdc) (pp : ParsedPkt) : Pdc × List Out :=
  if p.dstAddr ≠ pp.src then (p, txNack env p.pdcId pp .pdcHdrMismatch 0)
  else if pp.spdcid != p.dpdcid then (p, txNack env p.pdcId pp .pdcHdrMismatch 0)
  else if !p.isInitiator && p.state == .closing && psnAfter pp.psn p.closeCmdPsn then
    (p, txNack env p.pdcId pp .closing 0)
  else
    let (rx, outs) := receiveReq env p.ids (p.isInitiator && p.state == .closing) p.rx pp
    ({ p with rx }, outs)

/-! ## Control packets -/

/-- The receive state once a new Close Request, `pkt` at index `i`, is recorded. -/
def noteCloseReq (rx : RxSide) (i : Int) (pkt : RxPkt) : RxSide :=
  { rx with
    rxBm := rx.rxBm.set i pkt
    maxRcvdPsn := updatePsn rx.maxRcvdPsn pkt.pp.psn
    prevArPsn := if pkt.pp.ar then updatePsn rx.prevArPsn pkt.pp.psn else rx.prevArPsn }

/-- The part of `uet_pds_process_close_req_cp` for a new Close Request at index `i`. -/
def takeCloseReq (env : Env) (p : Pdc) (pp : ParsedPkt) (i : Int) : Pdc × List Out :=
  let pkt : RxPkt := { psn := pp.psn, pp, reordered := true }
  let (rx, h, outs) := txAckPkt env p.ids (noteCloseReq p.rx i pkt) pkt .none .none
  let rx := { rx with rxBm := rx.rxBm.set i { pkt with ack := some h } }
  let (p, outs', _) := initiatePdcClose env { p with rx, closeRequested := true }
  (p, outs ++ outs')

/-- `uet_pds_process_close_req_cp`. -/
def processCloseReqCp (env : Env) (p : Pdc) (pp : ParsedPkt) : Pdc × List Out :=
  if !p.isInitiator then (p, txNack env p.pdcId pp .unexpEvent 0)
  else if psnInPriorMpr pp.psn p.rx.rxBmBasePsn then
    let (rx, _, outs) := txAckPkt env p.ids p.rx { psn := pp.psn, pp } .none .none
    ({ p with rx }, outs)
  else if !psnInMpr pp.psn p.rx.rxBmBasePsn then (p, txNack env p.pdcId pp .psnOorWindow 0)
  else
    let i := psnOffset pp.psn p.rx.rxBmBasePsn
    match p.rx.rxBm.get i with
    | some orig =>
      match orig.ack with
      | some h => (p, resendAck env orig h)
      | none => (p, [])
    | none =>
      if p.rx.rxBm.settable i { psn := pp.psn, pp, reordered := true } then takeCloseReq env p pp i
      else (p, [])

/-- The last part of `uet_pds_process_close_command_cp`: the Expected_PSN, the
closing ACK and the release of the PDC. -/
def finishClose (env : Env) (p : Pdc) (pp : ParsedPkt) : Pdc × List Out :=
  if p.secEnabled && env.cfg.psnMethod == .zeroRtt then
    let expectedPsn :=
      if psnAfterEq p.startPsn env.sd.tgtStartPsn then p.startPsn + 1 else env.sd.tgtStartPsn
    let outs1 := if psnAfterEq p.startPsn env.sd.tgtStartPsn then
        [Out.setTgtStartPsn (p.startPsn + 1)] else []
    let outs2 := txCloseAckEpsn env p.ids p.rx pp expectedPsn
    let (p, outs3) := freePdc p
    (p, outs1 ++ outs2 ++ outs3)
  else
    let (rx, _, outs1) := txAckPkt env p.ids p.rx { psn := pp.psn, pp } .none .none
    let (p, outs2) := freePdc { p with rx }
    (p, outs1 ++ outs2)

/-- `uet_pds_process_close_command_cp`. -/
def processCloseCommandCp (env : Env) (p : Pdc) (pp : ParsedPkt) : Pdc × List Out :=
  if p.isInitiator then (p, txNack env p.pdcId pp .unexpEvent 0)
  else if !psnAfter pp.psn p.rx.cackPsn then (p, txNack env p.pdcId pp .psnOorWindow 0)
  else
    let rx := shiftRxWindow
      { p.rx with maxClearPsn := p.rx.maxRcvdPsn, cackPsn := p.rx.maxRcvdPsn }
    let p := { p with closeStarted := true, closeCmdPsn := pp.psn, state := .closing, rx }
    if 0 < p.tx.txBm.count then
      let outs := txNack env p.pdcId pp .closingInErr (BitVec.ofNat 32 p.tx.txBm.count)
      let (p, outs') := closePdcInError env p
      (p, outs ++ outs')
    else finishClose env p pp

/-- The error exit of `uet_pds_process_control`. -/
def exitErr (env : Env) (p : Pdc) (pp : ParsedPkt) (code : NackCode) : Pdc × List Out :=
  (p, if pp.ar then txNack env p.pdcId pp code 0 else [])

/-- `uet_pds_process_control` on the PDC it names. -/
def processControl (env : Env) (p : Pdc) (pp : ParsedPkt) : Pdc × List Out :=
  if p.dstAddr ≠ pp.src then exitErr env p pp .pdcHdrMismatch
  else if p.dpdcid != pp.spdcid then exitErr env p pp .pdcHdrMismatch
  else if p.state != .established && p.state != .closing then exitErr env p pp .unexpEvent
  else
    match pp.ctrlType with
    | .ackReq =>
      let (rx, outs) := processAckReqCp env p.ids p.rx pp
      ({ p with rx }, outs)
    | .closeReq => processCloseReqCp env p pp
    | .close => processCloseCommandCp env p pp
    | .clear => ({ p with rx := processClearCp p.rx pp }, [])
    | _ => exitErr env p pp .unexpEvent

/-! ## The dispatcher -/

/-- The answer to a packet for a PDC that `uet_pdsm_get_pdc` refuses. -/
def rxNoPdc (env : Env) (pp : ParsedPkt) : List Out :=
  match pp.pdsType with
  | .rudReq | .rodReq => txNack env 0 pp .invDpdcid 0
  | .ctrl => if pp.ar then txNack env 0 pp .invDpdcid 0 else []
  | _ => []

/-- `uet_pds_progress_rx` for a packet routed to this PDC: by the target key when
it is a SYN request, by `dpdcid` otherwise. -/
def progressRx (env : Env) (p : Pdc) (f : Frame) : Pdc × List Out :=
  let pp := parsePkt f
  if p.state == .unalloc || p.state == .error then (p, rxNoPdc env pp)
  else
    match pp.pdsType with
    | .ack | .ackCc | .ackCcx => processAck env p pp
    | .nack => processNack env p pp
    | .ctrl => processControl env p pp
    | .rudReq | .rodReq =>
      if pp.syn then
        if p.isInitiator then (p, txNack env 0 pp .invalidSyn 0) else processSynPkt env p pp
      else processRequest env p pp

/-! ## Timers and the remaining SES calls -/

/-- The `New_PDC_Time` reaper of `uet_pds_progress_tx`. -/
def reapPending (env : Env) (p : Pdc) : Pdc × List Out :=
  if p.state == .pending && decide (p.pendingTime + env.cfg.newPdcTimeMs < env.now) then freePdc p
  else (p, [])

/-- The `Close_REQ_Time` check of `uet_pds_progress_tx`. -/
def closeReqTimer (env : Env) (p : Pdc) : Pdc × List Out :=
  if p.state != .unalloc && p.state != .pending && !p.isInitiator && p.closeStarted &&
      p.closeReqTime != 0 && decide (p.closeReqTime + env.cfg.closeReqTimeMs < env.now) then
    closePdcInError env p
  else (p, [])

/-- `uet_pds_msg_cmpl_ind` on the PDC the message is mapped to. -/
def msgCmplInd (env : Env) (p : Pdc) : Pdc × List Out :=
  let p := { p with activeMsgId := 0, activeMsgIdValid := false }
  if p.closeRequested && !p.closeStarted then
    let (p, outs, _) := initiatePdcClose env p
    (p, outs)
  else (p, [])

inductive Event where
  | rx (f : Frame)
  | txPkt (r : TxReq)
  | progressTxPkt (id : PktId)
  | dropTxPkts (h : Handle)
  | msgCmplInd
  | reapPending
  | closeReqTimer

/-- One entry point of `uet_pds.c` on one PDC. The timer sweep visits packets on
the retransmit list of a PDC that is not PENDING; it and `uet_pds_drop_tx_pkts`
visit allocated PDCs only. -/
def step (env : Env) (p : Pdc) : Event → Pdc × List Out
  | .rx f => progressRx env p f
  | .txPkt r =>
    let (p, outs, _) := txPkt env p r
    (p, outs)
  | .progressTxPkt id =>
    if p.state != .unalloc && p.state != .pending && id ∈ p.tx.txPktList then
      progressTxPkt env p id
    else (p, [])
  | .dropTxPkts h =>
    if p.state != .unalloc then
      let (tx, outs) := dropTxPkts h p.tx
      ({ p with tx }, outs)
    else (p, [])
  | .msgCmplInd => msgCmplInd env p
  | .reapPending => reapPending env p
  | .closeReqTimer => closeReqTimer env p

end Uet.Pds
