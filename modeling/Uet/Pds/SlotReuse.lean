import Uet.Pds.AckEncoding

/-!
# Reuse of a PDC slot

A slot is handed out again with what its previous connection left in it.
`uet_pdsm_assign_tgt_pdc` overwrites every field, so a target does not depend on the
slot's past. `uet_pdsm_assign_ini_pdc` leaves six fields of the receive side as they
were: `Pdc.leftover` puts another past's values there, and each entry point that does
not read them commutes with it.
-/

namespace Uet.Pds

/-! ## What a hand-out leaves behind -/

/-- `rx` with the six fields that are not assigned for an initiator taken from `r`. -/
def RxSide.leftover (rx r : RxSide) : RxSide :=
  { rx with
    cackPsn := r.cackPsn
    maxClearPsn := r.maxClearPsn
    prevArPsn := r.prevArPsn
    maxRcvdPsn := r.maxRcvdPsn
    acceptedBytes := r.acceptedBytes
    sackBaseTrack := r.sackBaseTrack }

def Pdc.leftover (p : Pdc) (r : RxSide) : Pdc := { p with rx := p.rx.leftover r }

def keepPast {β : Type} (r : RxSide) (x : Pdc × β) : Pdc × β := (x.1.leftover r, x.2)

/-- An output as the peer and SES see it: the record of an `rx_req` upcall keeps
`cack_psn` for reference only. -/
def Out.seen : Out → Out
  | .rxReq psn ans _ => .rxReq psn ans 0
  | o => o

theorem clear_eq {α : Type} (a b : PtrBitmap α 2) : a.clear = b.clear :=
  PtrBitmap.ext_get fun i => by rw [PtrBitmap.get_clear, PtrBitmap.get_clear]

variable (slot slot' : Pdc)

/-- Everything a target starts from is assigned when the slot is handed out. Packet
identifiers are names of the model; both histories name the next packet alike. -/
theorem newTgtPdc_slot (hid : slot'.pdcId = slot.pdcId)
    (hnext : slot'.tx.nextId = slot.tx.nextId) (sec : Bool) (pp : ParsedPkt) (base : Psn) :
    newTgtPdc slot' sec pp base = newTgtPdc slot sec pp base := by
  simp only [newTgtPdc, initPdc, getSdi, seedTgtPsns, hid, hnext]
  rw [clear_eq slot'.tx.txBm slot.tx.txBm, clear_eq slot'.rx.rxBm slot.rx.rxBm]

theorem newIniPdc_slot (hid : slot'.pdcId = slot.pdcId)
    (hnext : slot'.tx.nextId = slot.tx.nextId) (sec : Bool) (l q : Fa) (s : Psn) :
    newIniPdc slot' sec l q s = (newIniPdc slot sec l q s).leftover slot'.rx := by
  simp only [newIniPdc, initPdc, getSdi, Pdc.leftover, RxSide.leftover, hid, hnext]
  rw [clear_eq slot'.tx.txBm slot.tx.txBm, clear_eq slot'.rx.rxBm slot.rx.rxBm]

/-! ## Steps that do not read it -/

section

variable (env : Env) (p : Pdc) (r : RxSide)

theorem freePdc_leftover : freePdc (p.leftover r) = keepPast r (freePdc p) := rfl

theorem sendTrackedCtrl_leftover (ct : CtrlType) :
    sendTrackedCtrl env (p.leftover r) ct = keepPast r (sendTrackedCtrl env p ct) := by
  simp only [sendTrackedCtrl, apply_ite (keepPast r)]
  rfl

theorem initiatePdcClose_leftover :
    initiatePdcClose env (p.leftover r) = keepPast r (initiatePdcClose env p) := by
  have h : sendTrackedCtrl env { p.leftover r with closeRequested := true } .close =
      keepPast r (sendTrackedCtrl env { p with closeRequested := true } .close) :=
    sendTrackedCtrl_leftover env { p with closeRequested := true } r .close
  simp only [initiatePdcClose, h, apply_ite (keepPast r)]
  generalize sendTrackedCtrl env { p with closeRequested := true } .close = x
  obtain ⟨q, outs, rc⟩ := x
  cases rc <;> rfl

theorem targetPdcClose_leftover : targetPdcClose env (p.leftover r) = keepPast r (targetPdcClose env p) := by
  simp only [targetPdcClose, sendTrackedCtrl_leftover, apply_ite (keepPast r)]
  generalize sendTrackedCtrl env p .closeReq = x
  obtain ⟨q, outs, rc⟩ := x
  cases rc <;> rfl

theorem closeDrained_leftover : closeDrained env (p.leftover r) = keepPast r (closeDrained env p) := by
  simp only [closeDrained, initiatePdcClose_leftover, targetPdcClose_leftover, apply_ite (keepPast r)]
  rfl

theorem closePdcInError_leftover :
    closePdcInError env (p.leftover r) = keepPast r (closePdcInError env p) := by
  have h := closeDrained_leftover env { p with tx := (drainTxPkts p.tx).1 } r
  rw [closePdcInError_eq, closePdcInError_eq]
  exact congrArg (fun x : Pdc × List Out => (x.1, (drainTxPkts p.tx).2 ++ x.2)) h

theorem txEndOfMsg_leftover (q : TxReq) :
    txEndOfMsg env (p.leftover r) q = (txEndOfMsg env p q).leftover r := by
  rw [txEndOfMsg, txEndOfMsg]
  dsimp only [Pdc.leftover]
  split_ifs <;> rfl

theorem txClose_leftover : txClose env (p.leftover r) = keepPast r (txClose env p) := by
  simp only [txClose, initiatePdcClose_leftover, apply_ite (keepPast r)]
  rfl

theorem txSend_leftover (q : TxReq) : txSend env (p.leftover r) q = keepPast r (txSend env p q) := by
  have hm : mapMsg (sentReq env (p.leftover r) q) q = (mapMsg (sentReq env p q) q).leftover r := by
    simp only [mapMsg, apply_ite (Pdc.leftover · r)]
    rfl
  have hu : unmapMsg (p.leftover r) q = (unmapMsg p q).leftover r := by
    simp only [unmapMsg, apply_ite (Pdc.leftover · r)]
    rfl
  simp only [txSend, hm, hu, txEndOfMsg_leftover, txClose_leftover, apply_ite (keepPast r)]
  rfl

theorem txPkt_leftover (q : TxReq) : txPkt env (p.leftover r) q = keepPast r (txPkt env p q) := by
  have hl : txLookup (p.leftover r) q = txLookup p q := rfl
  rw [txPkt, txPkt, hl, txSend_leftover]
  cases txLookup p q with
  | ok =>
    simp only [apply_ite (keepPast r)]
    rfl
  | again => rfl
  | err => rfl

theorem rtxPkt_leftover (id : PktId) (k : TxPkt) :
    rtxPkt env (p.leftover r) id k = keepPast r (rtxPkt env p id k) := by
  have h : sendUntrackedCtrl env (p.leftover r) .ackReq k.psn (k.msgId.setWidth 32) =
    sendUntrackedCtrl env p .ackReq k.psn (k.msgId.setWidth 32) := rfl
  rw [rtxPkt, rtxPkt, h]
  generalize sendUntrackedCtrl env p .ackReq k.psn (k.msgId.setWidth 32) = x
  obtain ⟨outs, rc⟩ := x
  simp only [apply_ite (keepPast r)]
  cases rc <;> rfl

theorem checkRtxPkt_leftover (id : PktId) (k : TxPkt) :
    checkRtxPkt env (p.leftover r) id k = keepPast r (checkRtxPkt env p id k) := by
  rw [checkRtxPkt, checkRtxPkt, rtxPkt_leftover]
  generalize rtxPkt env p id k = x
  obtain ⟨q, outs, rc⟩ := x
  simp only [apply_ite (keepPast r)]
  cases rc <;> rfl

theorem progressTxPkt_leftover (id : PktId) :
    progressTxPkt env (p.leftover r) id = keepPast r (progressTxPkt env p id) := by
  have hp : (p.leftover r).tx = p.tx := rfl
  rw [progressTxPkt, progressTxPkt, hp]
  cases p.tx.pkts id with
  | none => rfl
  | some k =>
    dsimp only
    rw [checkRtxPkt_leftover]
    generalize checkRtxPkt env p id k = x
    obtain ⟨q, outs, rc⟩ := x
    cases rc with
    | ok => rfl
    | again => rfl
    | err =>
      have hc := closePdcInError_leftover env q r
      dsimp only [keepPast] at hc ⊢
      rw [hc]
      cases k.txPktHandle <;> rfl

/-! ## Acknowledgements -/

theorem ackClose_leftover : ackClose env (p.leftover r) = keepPast r (ackClose env p) := by
  simp only [ackClose, initiatePdcClose_leftover, apply_ite (keepPast r)]
  rfl

theorem ackDeliver_leftover (pp : ParsedPkt) (id : PktId) :
    ackDeliver env (p.leftover r) pp id = keepPast r (ackDeliver env p pp id) := by
  have he : ackEstablish (p.leftover r) pp = (ackEstablish p pp).leftover r := by
    simp only [ackEstablish, apply_ite (Pdc.leftover · r)]
    rfl
  rw [ackDeliver, ackDeliver, he]
  generalize ackEstablish p pp = q
  have hc : ackClose env { q.leftover r with tx := (shiftTxWindow q.tx).1 } =
      keepPast r (ackClose env { q with tx := (shiftTxWindow q.tx).1 }) :=
    ackClose_leftover env { q with tx := (shiftTxWindow q.tx).1 } r
  have hq : (q.leftover r).tx = q.tx := rfl
  simp only [hq, hc, apply_ite (keepPast r)]
  rfl

theorem ackTracked_leftover (pp : ParsedPkt) (id : PktId) :
    ackTracked env (p.leftover r) pp id = keepPast r (ackTracked env p pp id) := by
  have hp : (p.leftover r).tx = p.tx := rfl
  have h : ackDeliver env
      { p.leftover r with tx := (processAckState (markAcked p.tx id) pp).1 } pp id =
      keepPast r (ackDeliver env { p with tx := (processAckState (markAcked p.tx id) pp).1 } pp id) :=
    ackDeliver_leftover env { p with tx := (processAckState (markAcked p.tx id) pp).1 } r pp id
  simp only [ackTracked, hp, h, apply_ite (keepPast r)]
  rfl

theorem processAck_leftover (pp : ParsedPkt) :
    processAck env (p.leftover r) pp = keepPast r (processAck env p pp) := by
  have hp : (p.leftover r).tx = p.tx := rfl
  rw [processAck, processAck, hp]
  cases classifyAck p.tx pp with
  | invalid =>
    simp only [apply_ite (keepPast r)]
    rfl
  | duplicate =>
    simp only [apply_ite (keepPast r)]
    rfl
  | tracked id =>
    simp only [ackTracked_leftover, apply_ite (keepPast r)]
    rfl

/-! ## NACKs -/

theorem reestablishStartPsn_leftover (v : Psn) :
    reestablishStartPsn env (p.leftover r) v = keepPast r (reestablishStartPsn env p v) := by
  simp only [reestablishStartPsn, apply_ite (keepPast r)]
  rfl

theorem nackRetx_leftover (pp : ParsedPkt) :
    nackRetx env (p.leftover r) pp = keepPast r (nackRetx env p pp) := by
  have hp : (p.leftover r).tx = p.tx := rfl
  rw [nackRetx, nackRetx, hp]
  cases p.tx.txBm.get (psnOffset pp.psn p.tx.txBmBasePsn) with
  | none => rfl
  | some id =>
    dsimp only
    cases p.tx.pkts id with
    | none => rfl
    | some k =>
      dsimp only
      rw [closePdcInError_leftover, rtxPkt_leftover]
      generalize rtxPkt env p id k = x
      obtain ⟨q, outs, rc⟩ := x
      simp only [apply_ite (keepPast r)]
      cases rc <;> rfl

theorem processNack_leftover (pp : ParsedPkt) :
    processNack env (p.leftover r) pp = keepPast r (processNack env p pp) := by
  have he : nackEstablish (p.leftover r) pp = (nackEstablish p pp).leftover r := by
    simp only [nackEstablish, apply_ite (Pdc.leftover · r)]
    rfl
  simp only [processNack, he, reestablishStartPsn_leftover, closePdcInError_leftover,
    nackRetx_leftover, apply_ite (keepPast r)]
  rfl

end

/-! ## Steps that read it -/

def buildsReply (orig : RxPkt) : Bool :=
  orig.ack.isNone && !(orig.pp.pdsType == .rodReq && !orig.reordered)

/-- The request makes the receive side read a field that was not assigned: it is
answered by a default response, or it is new and goes to the delivery loop or is
accepted by SES. `closing` is whether new requests are dropped. -/
def reqReads (env : Env) (closing : Bool) (rx : RxSide) (pp : ParsedPkt) : Bool :=
  if psnInPriorMpr pp.psn rx.rxBmBasePsn then true
  else if psnInMpr pp.psn rx.rxBmBasePsn then
    match rx.rxBm.get (psnOffset pp.psn rx.rxBmBasePsn) with
    | none => !closing && (pp.pdsType == .rodReq || sesTakes env pp.psn)
    | some orig => buildsReply orig
  else false

def ctrlReads (rx : RxSide) (pp : ParsedPkt) : Bool :=
  match pp.ctrlType with
  | .ackReq =>
    psnInMpr pp.psn rx.rxBmBasePsn &&
      match rx.rxBm.get (psnOffset pp.psn rx.rxBmBasePsn) with
      | none => false
      | some orig => buildsReply orig
  | .closeReq =>
    psnInPriorMpr pp.psn rx.rxBmBasePsn ||
      psnInMpr pp.psn rx.rxBmBasePsn && (rx.rxBm.get (psnOffset pp.psn rx.rxBmBasePsn)).isNone
  | .clear => true
  | _ => false

def readsLeftover (env : Env) (p : Pdc) : Event → Bool
  | .rx f =>
    let pp := parsePkt f
    p.state != .unalloc && p.state != .error && p.dstAddr == pp.src && p.dpdcid == pp.spdcid &&
      match pp.pdsType with
      | .rudReq | .rodReq => !pp.syn && reqReads env (p.state == .closing) p.rx pp
      | .ctrl => (p.state == .established || p.state == .closing) && ctrlReads p.rx pp
      | _ => false
  | _ => false

structure SamePast (r : RxSide) (x y : RxSide × List Out) : Prop where
  rx : y.1 = x.1.leftover r
  outs : y.2.map Out.seen = x.2.map Out.seen

section

variable {env : Env} {pp : ParsedPkt} (ids : PdcIds) (rx r : RxSide)

theorem replyNoAck_past {orig : RxPkt} (q : ParsedPkt) (ha : orig.ack = none)
    (hb : buildsReply orig = false) :
    SamePast r (replyNoAck env ids rx orig pp q) (replyNoAck env ids (rx.leftover r) orig pp q) := by
  have hc : (orig.pp.pdsType == .rodReq && !orig.reordered) = true := by
    simpa [buildsReply, ha] using hb
  rw [replyNoAck, replyNoAck, if_pos hc, if_pos hc]
  exact ⟨rfl, rfl⟩

theorem upcallSesRxReq_past {i : Int} {t : RxPkt} (hs : sesTakes env t.pp.psn = false) :
    ∃ os os', upcallSesRxReq env ids rx i t = (rx, os, false) ∧
      upcallSesRxReq env ids (rx.leftover r) i t = (rx.leftover r, os', false) ∧
      os'.map Out.seen = os.map Out.seen := by
  rw [upcallSesRxReq, upcallSesRxReq]
  rw [sesTakes] at hs
  cases hses : env.ses t.pp.psn with
  | ok g nh rsp =>
    rw [hses] at hs
    cases hs
  | sesNack => exact ⟨_, _, rfl, rfl, rfl⟩
  | fail => exact ⟨_, _, rfl, rfl, rfl⟩
  | noBuf => exact ⟨_, _, rfl, rfl, rfl⟩

/-- A new request inside the window goes to `uet_pds_process_data_pkt`. -/
theorem receiveReq_new (h1 : psnInPriorMpr pp.psn rx.rxBmBasePsn = false)
    (h2 : psnInMpr pp.psn rx.rxBmBasePsn = true) (hg : rx.rxBm.get (psnOffset pp.psn rx.rxBmBasePsn) = none) :
    receiveReq env ids false rx pp =
      processDataPkt env ids (placeReq rx pp) (psnOffset pp.psn rx.rxBmBasePsn) (newRxPkt pp) := by
  have hset : rx.rxBm.settable (psnOffset pp.psn rx.rxBmBasePsn) (newRxPkt pp) = true :=
    (PtrBitmap.settable_iff _ _ _).2 ((psnInMpr_iff _ _).1 h2)
  rw [receiveReq, checkDuplicateAndRtx, if_neg (by rw [h1]; decide), if_pos h2, hg]
  dsimp only
  rw [if_neg (by decide)]
  exact if_pos hset

theorem receiveReq_refused (hrud : pp.pdsType = .rudReq) (hs : sesTakes env pp.psn = false)
    (h1 : psnInPriorMpr pp.psn rx.rxBmBasePsn = false) (h2 : psnInMpr pp.psn rx.rxBmBasePsn = true)
    (hg : rx.rxBm.get (psnOffset pp.psn rx.rxBmBasePsn) = none) :
    SamePast r (receiveReq env ids false rx pp) (receiveReq env ids false (rx.leftover r) pp) := by
  obtain ⟨os, os', he, he', ho⟩ := upcallSesRxReq_past ids (placeReq rx pp) r
    (i := psnOffset pp.psn rx.rxBmBasePsn) (t := newRxPkt pp) hs
  have ht : (newRxPkt pp).pp.pdsType = .rudReq := hrud
  rw [receiveReq_new ids rx h1 h2 hg, receiveReq_new ids (rx.leftover r) h1 h2 hg, processDataPkt,
    processDataPkt, ht]
  rw [show placeReq (rx.leftover r) pp = (placeReq rx pp).leftover r from rfl]
  have hi : psnOffset pp.psn (rx.leftover r).rxBmBasePsn = psnOffset pp.psn rx.rxBmBasePsn := rfl
  rw [hi, he, he']
  exact ⟨rfl, ho⟩

theorem receiveReq_past {d : Bool} (ht : pp.isReq) (hr : reqReads env d rx pp = false) :
    SamePast r (receiveReq env ids d rx pp) (receiveReq env ids d (rx.leftover r) pp) := by
  rw [reqReads] at hr
  split_ifs at hr with h1 h2
  · cases hg : rx.rxBm.get (psnOffset pp.psn rx.rxBmBasePsn) with
    | none =>
      simp only [hg, Bool.and_eq_false_iff, Bool.not_eq_false', Bool.or_eq_false_iff] at hr
      cases d with
      | false =>
        rcases hr with hr | ⟨hrod, hs⟩
        · cases hr
        · exact receiveReq_refused ids rx r (ht.resolve_right (by simpa using hrod)) hs (by simpa using h1)
            h2 hg
      | true =>
        have hd : ∀ rx' : RxSide, rx'.rxBmBasePsn = rx.rxBmBasePsn → rx'.rxBm = rx.rxBm →
            receiveReq env ids true rx' pp = (rx', []) := by
          intro rx' hb hbm
          rw [receiveReq, checkDuplicateAndRtx, hb, hbm, if_neg h1, if_pos h2, hg]
          rfl
        rw [hd rx rfl rfl, hd (rx.leftover r) rfl rfl]
        exact ⟨rfl, rfl⟩
    | some orig =>
      simp only [hg] at hr
      have hd : ∀ rx' : RxSide, rx'.rxBmBasePsn = rx.rxBmBasePsn → rx'.rxBm = rx.rxBm →
          receiveReq env ids d rx' pp =
            orig.ack.elim (replyNoAck env ids rx' orig pp pp) fun h => (rx', resendAck env orig h) := by
        intro rx' hb hbm
        rw [receiveReq, checkDuplicateAndRtx, hb, hbm, if_neg h1, if_pos h2, hg]
        cases ha : orig.ack <;> simp only [ha, Option.elim]
      rw [hd rx rfl rfl, hd (rx.leftover r) rfl rfl]
      cases ha : orig.ack with
      | some h => exact ⟨rfl, rfl⟩
      | none => exact replyNoAck_past ids rx r pp ha hr
  · have hd : ∀ rx' : RxSide, rx'.rxBmBasePsn = rx.rxBmBasePsn → receiveReq env ids d rx' pp =
        (rx', txNack env ids.pdcId pp (if pp.syn then .invalidSyn else .psnOorWindow) 0) := by
      intro rx' hb
      rw [receiveReq, checkDuplicateAndRtx, hb, if_neg h1, if_neg h2]
    rw [hd rx rfl, hd (rx.leftover r) rfl]
    exact ⟨rfl, rfl⟩

theorem processAckReqCp_past (ht : pp.ctrlType = .ackReq) (hr : ctrlReads rx pp = false) :
    SamePast r (processAckReqCp env ids rx pp) (processAckReqCp env ids (rx.leftover r) pp) := by
  have hb : (rx.leftover r).rxBmBasePsn = rx.rxBmBasePsn := rfl
  have hbm : (rx.leftover r).rxBm = rx.rxBm := rfl
  rw [processAckReqCp, processAckReqCp, hb, hbm]
  simp only [ctrlReads, ht] at hr
  by_cases h : psnInMpr pp.psn rx.rxBmBasePsn = true
  · rw [if_pos h, if_pos h]
    rw [h, Bool.true_and] at hr
    cases hg : rx.rxBm.get (psnOffset pp.psn rx.rxBmBasePsn) with
    | none => exact ⟨rfl, rfl⟩
    | some orig =>
      rw [hg] at hr
      cases ha : orig.ack with
      | some h => simp only [ha]; exact ⟨rfl, rfl⟩
      | none => simp only [ha]; exact replyNoAck_past ids rx r orig.pp ha hr
  · rw [if_neg h, if_neg h]
    exact ⟨rfl, rfl⟩

end

/-! ## One step -/

structure SameStep (r : RxSide) (x y : Pdc × List Out) : Prop where
  pdc : y.1 = x.1.leftover r
  outs : y.2.map Out.seen = x.2.map Out.seen

theorem SameStep.of_keepPast {r : RxSide} {x y : Pdc × List Out} (h : y = keepPast r x) : SameStep r x y := by
  rw [h]
  exact ⟨rfl, rfl⟩

theorem SamePast.step {r : RxSide} {x y : RxSide × List Out} (h : SamePast r x y) (p : Pdc) :
    SameStep r ({ p with rx := x.1 }, x.2) ({ p.leftover r with rx := y.1 }, y.2) := by
  refine ⟨?_, h.outs⟩
  rw [h.rx]
  rfl

section

variable {env : Env} {p : Pdc} (r : RxSide)

theorem processRequest_initiator {pp : ParsedPkt} (hi : p.isInitiator = true) :
    processRequest env p pp =
      if p.dstAddr ≠ pp.src ∨ p.dpdcid ≠ pp.spdcid then (p, txNack env p.pdcId pp .pdcHdrMismatch 0)
      else ({ p with rx := (receiveReq env p.ids (p.state == .closing) p.rx pp).1 },
        (receiveReq env p.ids (p.state == .closing) p.rx pp).2) := by
  rw [processRequest]
  by_cases h1 : p.dstAddr ≠ pp.src
  · rw [if_pos h1, if_pos (Or.inl h1)]
  rw [if_neg h1]
  by_cases h2 : p.dpdcid = pp.spdcid
  · rw [if_neg (by simp [h2]), if_neg (by simp [hi]), if_neg (by simp [h2, not_not.1 h1])]
    rw [show (p.isInitiator && p.state == .closing) = (p.state == .closing) by rw [hi, Bool.true_and]]
  · rw [if_pos (by simpa using Ne.symm h2), if_pos (Or.inr h2)]

theorem processRequest_past {pp : ParsedPkt} (hi : p.isInitiator = true) (ht : pp.isReq)
    (hr : p.dstAddr = pp.src → p.dpdcid = pp.spdcid → reqReads env (p.state == .closing) p.rx pp = false) :
    SameStep r (processRequest env p pp) (processRequest env (p.leftover r) pp) := by
  rw [processRequest_initiator hi, processRequest_initiator (p := p.leftover r) hi]
  by_cases h : p.dstAddr ≠ pp.src ∨ p.dpdcid ≠ pp.spdcid
  · rw [if_pos h, if_pos (by exact h)]
    exact ⟨rfl, rfl⟩
  rw [if_neg h, if_neg (by exact h)]
  have h' := not_or.1 h
  exact (receiveReq_past p.ids p.rx r ht (hr (not_not.1 h'.1) (not_not.1 h'.2))).step p

theorem processCloseReqCp_past {pp : ParsedPkt} (ht : pp.ctrlType = .closeReq)
    (hr : ctrlReads p.rx pp = false) :
    SameStep r (processCloseReqCp env p pp) (processCloseReqCp env (p.leftover r) pp) := by
  simp only [ctrlReads, ht, Bool.or_eq_false_iff] at hr
  have hprior : ¬ psnInPriorMpr pp.psn p.rx.rxBmBasePsn = true := by simp [hr.1]
  have hb : (p.leftover r).rx.rxBmBasePsn = p.rx.rxBmBasePsn := rfl
  have hbm : (p.leftover r).rx.rxBm = p.rx.rxBm := rfl
  have hi : (p.leftover r).isInitiator = p.isInitiator := rfl
  rw [processCloseReqCp, processCloseReqCp, hb, hbm, hi, if_neg hprior, if_neg hprior]
  by_cases h : psnInMpr pp.psn p.rx.rxBmBasePsn = true
  · rw [h, Bool.true_and] at hr
    cases hg : p.rx.rxBm.get (psnOffset pp.psn p.rx.rxBmBasePsn) with
    | none =>
      rw [hg] at hr
      cases hr.2
    | some orig =>
      dsimp only
      rw [hg]
      cases ha : orig.ack <;> simp only [ha] <;> split_ifs <;> exact ⟨rfl, rfl⟩
  · have hn : (!psnInMpr pp.psn p.rx.rxBmBasePsn) = true := by simpa using h
    rw [if_pos hn, if_pos hn]
    split_ifs <;> exact ⟨rfl, rfl⟩

theorem processControl_past {pp : ParsedPkt} (hi : p.isInitiator = true)
    (hr : p.dstAddr = pp.src → p.dpdcid = pp.spdcid →
      (p.state = .established ∨ p.state = .closing) → ctrlReads p.rx pp = false) :
    SameStep r (processControl env p pp) (processControl env (p.leftover r) pp) := by
  have hexit : ∀ c, exitErr env (p.leftover r) pp c = keepPast r (exitErr env p pp c) := fun c => rfl
  rw [processControl, processControl]
  have hd : (p.leftover r).dstAddr = p.dstAddr := rfl
  have hid : (p.leftover r).dpdcid = p.dpdcid := rfl
  have hst : (p.leftover r).state = p.state := rfl
  rw [hd, hid, hst]
  split_ifs with h1 h2 h3
  · exact .of_keepPast (hexit _)
  · exact .of_keepPast (hexit _)
  · exact .of_keepPast (hexit _)
  have hread := hr (not_not.1 h1) (by simpa using h2) (by
    simp only [Bool.and_eq_true, bne_iff_ne, ne_eq, not_and_or, not_not] at h3
    exact h3)
  cases hc : pp.ctrlType with
  | ackReq => exact (processAckReqCp_past p.ids p.rx r hc hread).step p
  | closeReq => exact processCloseReqCp_past r hc hread
  | clear =>
    rw [ctrlReads, hc] at hread
    cases hread
  | close =>
    rw [processCloseCommandCp, processCloseCommandCp, if_pos hi,
      if_pos (show (p.leftover r).isInitiator = true from hi)]
    exact ⟨rfl, rfl⟩
  | _ => exact .of_keepPast (hexit _)

theorem progressRx_past {f : Frame} (hi : p.isInitiator = true) (hr : readsLeftover env p (.rx f) = false) :
    SameStep r (progressRx env p f) (progressRx env (p.leftover r) f) := by
  rw [progressRx, progressRx]
  have hst : (p.leftover r).state = p.state := rfl
  rw [hst]
  by_cases hu : (p.state == .unalloc || p.state == .error) = true
  · rw [if_pos hu, if_pos hu]
    exact ⟨rfl, rfl⟩
  rw [if_neg hu, if_neg hu]
  have hu' : (p.state != .unalloc && p.state != .error) = true := by
    simpa [bne] using hu
  have hini : (p.leftover r).isInitiator = true := hi
  simp only [readsLeftover, hu', Bool.true_and] at hr
  cases ht : (parsePkt f).pdsType with
  | ack => exact .of_keepPast (processAck_leftover env p r _)
  | ackCc => exact .of_keepPast (processAck_leftover env p r _)
  | ackCcx => exact .of_keepPast (processAck_leftover env p r _)
  | nack => exact .of_keepPast (processNack_leftover env p r _)
  | ctrl =>
    refine processControl_past r hi fun h1 h2 h3 => ?_
    simp only [ht, h1, h2, beq_self_eq_true, Bool.true_and] at hr
    rcases h3 with h3 | h3
    · simpa [h3] using hr
    · simpa [h3] using hr
  | rudReq =>
    by_cases hs : (parsePkt f).syn = true
    · rw [if_pos hs, if_pos hs, if_pos hi, if_pos hini]
      exact ⟨rfl, rfl⟩
    rw [if_neg hs, if_neg hs]
    refine processRequest_past r hi (Or.inl ht) fun h1 h2 => ?_
    simpa [ht, h1, h2, hs] using hr
  | rodReq =>
    by_cases hs : (parsePkt f).syn = true
    · rw [if_pos hs, if_pos hs, if_pos hi, if_pos hini]
      exact ⟨rfl, rfl⟩
    rw [if_neg hs, if_neg hs]
    refine processRequest_past r hi (Or.inr ht) fun h1 h2 => ?_
    simpa [ht, h1, h2, hs] using hr

theorem step_past {e : Event} (hi : p.isInitiator = true) (hr : readsLeftover env p e = false) :
    SameStep r (step env p e) (step env (p.leftover r) e) := by
  cases e with
  | rx f => exact progressRx_past r hi hr
  | txPkt q => 
    rw [step, step, txPkt_leftover]
    exact ⟨rfl, rfl⟩
  | progressTxPkt id =>
    have hp : (p.leftover r).tx = p.tx := rfl
    have hst : (p.leftover r).state = p.state := rfl
    rw [step, step, hp, hst, progressTxPkt_leftover]
    split_ifs <;> exact ⟨rfl, rfl⟩
  | dropTxPkts h =>
    have hst : (p.leftover r).state = p.state := rfl
    rw [step, step, hst]
    split_ifs <;> exact ⟨rfl, rfl⟩
  | msgCmplInd =>
    have h : initiatePdcClose env { p.leftover r with activeMsgId := 0, activeMsgIdValid := false } =
      keepPast r (initiatePdcClose env { p with activeMsgId := 0, activeMsgIdValid := false }) :=
      initiatePdcClose_leftover env { p with activeMsgId := 0, activeMsgIdValid := false } r
    refine .of_keepPast ?_
    simp only [step, msgCmplInd, h, apply_ite (keepPast r)]
    rfl
  | reapPending =>
    refine .of_keepPast ?_
    simp only [step, reapPending, freePdc_leftover, apply_ite (keepPast r)]
    rfl
  | closeReqTimer =>
    refine .of_keepPast ?_
    simp only [step, closeReqTimer, closePdcInError_leftover, apply_ite (keepPast r)]
    rfl

end

/-! ## Two histories in step -/

def sameLeftover (a b : RxSide) : Bool :=
  a.cackPsn == b.cackPsn && a.maxClearPsn == b.maxClearPsn && a.prevArPsn == b.prevArPsn &&
    a.maxRcvdPsn == b.maxRcvdPsn && a.acceptedBytes == b.acceptedBytes &&
    a.sackBaseTrack == b.sackBaseTrack

/-- Two PDCs go through the same events, and no step reads one of the six fields while
they differ. -/
def Pdc.pastUnread (p p' : Pdc) : List (Env × Event) → Bool
  | [] => true
  | (env, e) :: es =>
    (!readsLeftover env p e || sameLeftover p.rx p'.rx) &&
      (step env p e).1.pastUnread (step env p' e).1 es

theorem leftover_self {p : Pdc} {r : RxSide} (h : sameLeftover p.rx (p.leftover r).rx = true) :
    p.leftover r = p := by
  simp only [sameLeftover, Pdc.leftover, RxSide.leftover, Bool.and_eq_true, beq_iff_eq] at h
  obtain ⟨⟨⟨⟨⟨h1, h2⟩, h3⟩, h4⟩, h5⟩, h6⟩ := h
  simp only [Pdc.leftover, RxSide.leftover, ← h1, ← h2, ← h3, ← h4, ← h5, ← h6]

theorem Move.isInitiator {w : Option ParsedPkt} {b : Prop}
    {R : Bool → RxSide → List Out → RxSide → Prop} {u u' : Option PktId} {p p' : Pdc}
    {os : List Out} (m : Move w b R u p os u' p') : p'.isInitiator = p.isInitiator := by
  rcases m.rx_cases with ⟨-, h, -⟩ | ⟨rx, -, rfl⟩ | ⟨rx, os1, -, -, rfl⟩ | ⟨-, rfl⟩ |
    ⟨env, pp, -, -, -, rfl⟩
  · exact h
  · rfl
  · rfl
  · rfl
  · rw [reestablishStartPsn]
    dsimp only
    split_ifs <;> rfl

theorem step_isInitiator (env : Env) (p : Pdc) (e : Event) (hrel : p.released) :
    (step env p e).1.isInitiator = p.isInitiator :=
  (step_moves (b := True) env p e hrel fun _ => trivial).keep (l := [])
    (P := fun _ _ q => q.isInitiator = p.isInitiator)
    (fun _ _ _ _ _ _ h m => m.isInitiator.trans h) rfl

theorem run_past {p : Pdc} {r : RxSide} (es : List (Env × Event)) (hi : p.isInitiator = true)
    (hrel : p.released) (hq : p.pastUnread (p.leftover r) es = true) :
    ((p.leftover r).run es).2.map Out.seen = (p.run es).2.map Out.seen ∧
      ∃ r', ((p.leftover r).run es).1 = (p.run es).1.leftover r' := by
  induction es generalizing p r with
  | nil => exact ⟨rfl, r, rfl⟩
  | cons e es ih =>
    obtain ⟨hread, hrest⟩ := Bool.and_eq_true_iff.1 hq
    cases hr : readsLeftover e.1 p e.2 with
    | true =>
      rw [hr] at hread
      rw [leftover_self (by simpa using hread)]
      exact ⟨rfl, (p.run (e :: es)).1.rx, rfl⟩
    | false =>
      have hs := step_past r hi hr
      rw [hs.pdc] at hrest
      obtain ⟨ho, r', hp⟩ := ih ((step_isInitiator e.1 p e.2 hrel).trans hi)
        (step_released e.1 p e.2 hrel) hrest
      rw [← hs.pdc] at ho hp
      refine ⟨?_, r', hp⟩
      rw [Pdc.run, Pdc.run]
      rw [List.map_append, List.map_append, hs.outs, ho]

/-- What a slot was used for before does not show. A target handed out of two slots
with different pasts goes through exactly the same run. An initiator makes the same
packets and upcalls and keeps the same record but for the six fields, in every run in
which no step reads one of them while it differs. -/
theorem slot_reuse_isolated (hid : slot'.pdcId = slot.pdcId)
    (hnext : slot'.tx.nextId = slot.tx.nextId) (sec : Bool) (es : List (Env × Event)) :
    (∀ syn base pending, ((Handout.tgt syn base pending).pdc slot' sec).run es =
      ((Handout.tgt syn base pending).pdc slot sec).run es) ∧
    ∀ l q s, ((Handout.ini l q s).pdc slot sec).pastUnread ((Handout.ini l q s).pdc slot' sec) es =
        true →
      (((Handout.ini l q s).pdc slot' sec).run es).2.map Out.seen =
          (((Handout.ini l q s).pdc slot sec).run es).2.map Out.seen ∧
        ∃ r, (((Handout.ini l q s).pdc slot' sec).run es).1 =
          (((Handout.ini l q s).pdc slot sec).run es).1.leftover r := by
  refine ⟨fun syn base pending => ?_, fun l q s hq => ?_⟩
  · have h := newTgtPdc_slot slot slot' hid hnext sec syn base
    cases pending with
    | none => rw [Handout.pdc, Handout.pdc, h]
    | some t => rw [Handout.pdc, Handout.pdc, h]
  · rw [Handout.pdc, Handout.pdc, newIniPdc_slot slot slot' hid hnext sec l q s] at hq ⊢
    exact run_past es rfl (Handout.released slot sec (.ini l q s)) hq

/-- A slot that served a target connection at Start_PSN 100000 and was closed by a Close
Command. -/
def usedSlot : Pdc :=
  ((Handout.tgt { src := .v4 3, dst := .v4 1, pdsType := .rudReq, spdcid := 9 } 100000 none).pdc
    (freshSlot 1) false).run
    [(calmEnv fun _ => .noBuf, .rx ⟨.v4 3, .v4 1, .ctrl
      { ctrlType := .close, retx := false, ar := true, syn := false, psn := 100000, spdcid := 9,
        pdcInfo := 1, payload := 0 }⟩)] |>.1

/-- The same Close Request gets a different ACK from an initiator in a fresh slot and
from one in a used slot. -/
theorem slot_past_shows :
    usedSlot.state = .unalloc ∧ usedSlot.pdcId = (freshSlot 1).pdcId ∧
    usedSlot.tx.nextId = (freshSlot 1).tx.nextId ∧
    acksOf (((Handout.ini (.v4 1) (.v4 2) 100000).pdc (freshSlot 1) false).run
      (closeReqRun 100000)).2 = [(100000, 4294936224)] ∧
    acksOf (((Handout.ini (.v4 1) (.v4 2) 100000).pdc usedSlot false).run
      (closeReqRun 100000)).2 = [(100000, 100000)] := by
  decide +kernel

theorem slot_past_hidden :
    (((Handout.ini (.v4 1) (.v4 2) 100000).pdc usedSlot false).run [sendMsg 1, ackOf 100000 0]).2.map
        Out.seen = (((Handout.ini (.v4 1) (.v4 2) 100000).pdc (freshSlot 1) false).run
        [sendMsg 1, ackOf 100000 0]).2.map Out.seen :=
  ((slot_reuse_isolated (freshSlot 1) usedSlot (by decide +kernel) (by decide +kernel) false
    [sendMsg 1, ackOf 100000 0]).2 (.v4 1) (.v4 2) 100000 (by decide +kernel)).1

end Uet.Pds
