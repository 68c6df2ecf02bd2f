import Uet.Pds.Assign

/-!
# What the network and the timers leave alone

A relation between the states of a PDC that admits a few small changes holds between the states before and after
anything that a received packet or a timer does. `Admits` lists the changes: fields other than the message ones, packets that
leave the pending list, a control packet that is put on it when it is empty, and the release of the PDC. A packet
that is sent again goes to the end of the list with the time of the step.
-/

namespace Uet.Pds

open Bool

/-! ## The pending list -/

def TxSide.times (tx : TxSide) : List Nat := tx.txPktList.filterMap fun id => (tx.pkts id).map (·.txTime)

theorem filterMap_sublist_of_or {α β : Type} {f g : α → Option β} (h : ∀ a, g a = f a ∨ g a = none) (l : List α) :
    (l.filterMap g).Sublist (l.filterMap f) := by
  induction l with
  | nil => exact .slnil
  | cons a l ih =>
    rw [List.filterMap_cons, List.filterMap_cons]
    rcases h a with ha | ha
    · rw [ha]
      cases f a with
      | none => exact ih
      | some => exact ih.cons_cons ..
    · rw [ha]
      cases f a with
      | none => exact ih
      | some => exact ih.cons ..

theorem times_sublist {tx tx' : TxSide} (hl : tx'.txPktList.Sublist tx.txPktList)
    (hp : ∀ id, (tx'.pkts id).map (·.txTime) = (tx.pkts id).map (·.txTime) ∨ tx'.pkts id = none) :
    tx'.times.Sublist tx.times := by
  apply (hl.filterMap _).trans
  apply filterMap_sublist_of_or
  intro id
  rcases hp id with h | h
  · exact .inl h
  · exact .inr (by rw [h]; rfl)

variable (tx : TxSide) (id : PktId)

theorem modPkt_time {f : TxPkt → TxPkt} (hf : ∀ k, (f k).txTime = k.txTime) (j : PktId) :
    ((tx.modPkt id f).pkts j).map (·.txTime) = (tx.pkts j).map (·.txTime) := by
  show (if j = id then (tx.pkts id).map f else tx.pkts j).map (·.txTime) = _
  split
  · rename_i hj
    rw [hj, Option.map_map]
    exact congrFun (congrArg Option.map (funext hf)) _
  · rfl

theorem setPkt_none_time (j : PktId) : ((tx.setPkt id none).pkts j).map (·.txTime) =
    (tx.pkts j).map (·.txTime) ∨ (tx.setPkt id none).pkts j = none := by
  show (if j = id then none else tx.pkts j).map _ = _ ∨ (if j = id then none else tx.pkts j) = none
  split
  · exact .inr rfl
  · exact .inl rfl

theorem markAcked_times : (markAcked tx id).times.Sublist tx.times := by
  apply times_sublist List.erase_sublist
  intro j
  exact .inl (modPkt_time tx id (f := fun k => { k with txPktAcked := true }) (fun _ => rfl) j)

theorem processAckState_times (pp : ParsedPkt) : (processAckState tx pp).1.times.Sublist tx.times := by
  have hmpr : (if isCcAck pp.pdsType then processMpr tx pp else tx).times = tx.times := by
    unfold processMpr
    split
    · split <;> rfl
    · rfl
  have hcack : ∀ (l : List Nat) (st : TxSide × List Out), (l.foldl cackStep st).1.times.Sublist st.1.times := by
    intro l st
    induction l generalizing st with
    | nil => exact .refl _
    | cons i l ih =>
      apply (ih _).trans
      unfold cackStep
      split
      · exact .refl _
      split
      · exact .refl _
      · exact markAcked_times ..
  have hsack : ∀ (l : List Nat) (tx : TxSide), (l.foldl (sackStep pp) tx).times.Sublist tx.times := by
    intro l tx
    induction l generalizing tx with
    | nil => exact .refl _
    | cons i l ih =>
      apply (ih _).trans
      unfold sackStep
      dsimp only
      split_ifs
      · exact .refl _
      · exact .refl _
      · exact .refl _
      split
      · exact .refl _
      · refine times_sublist (.refl _) ?_
        intro j
        exact .inl (modPkt_time tx _ (f := fun k => { k with dstRecvd := true }) (fun _ => rfl) j)
  rw [← hmpr]
  unfold processAckState processCack
  dsimp only
  split
  · exact (hsack _ _).trans (hcack _ _)
  · exact hcack _ _

theorem shiftTxGo_times (n : Nat) (tx : TxSide) : (shiftTxGo n tx).1.times.Sublist tx.times := by
  induction n generalizing tx with
  | zero => exact .refl _
  | succ n ih =>
    unfold shiftTxGo
    split
    · exact .refl _
    split
    · apply (ih _).trans
      exact times_sublist (.refl _) fun j => setPkt_none_time ..
    · exact .refl _

theorem unsetTracked_pkts (psn : Psn) : (unsetTracked tx psn).pkts = tx.pkts := by
  unfold unsetTracked
  split <;> rfl

theorem abandoned_list (psn : Psn) :
    (((unsetTracked tx psn).unlink id).setPkt id none).txPktList.Sublist tx.txPktList := by
  unfold unsetTracked
  split <;> exact List.erase_sublist

theorem drainFold_pkts (ids : List PktId) (tx : TxSide) (j : PktId) :
    (foldPkts drainPkt ids tx).1.pkts j = if j ∈ ids then none else tx.pkts j := by
  have hdrain : ∀ (tx : TxSide) (id : PktId), (drainPkt tx id).1.pkts j = if j = id then none else tx.pkts j := by
    intro tx id
    unfold drainPkt
    split
    · rename_i hnone
      split
      · rename_i hj
        rw [hj, hnone]
      · rfl
    · show (if j = id then none else (unsetTracked tx _).pkts j) = _
      rw [unsetTracked_pkts]
  induction ids generalizing tx with
  | nil => exact (if_neg (List.not_mem_nil)).symm
  | cons id ids ih =>
    show (foldPkts drainPkt ids (drainPkt tx id).1).1.pkts j = _
    rw [ih, hdrain]
    by_cases hj : j = id <;> simp [hj]

theorem drainTxPkts_times : (drainTxPkts tx).1.times = [] := by
  have hlist : ∀ (ids : List PktId) (tx : TxSide), (foldPkts drainPkt ids tx).1.txPktList.Sublist tx.txPktList := by
    intro ids tx
    induction ids generalizing tx with
    | nil => exact .refl _
    | cons id ids ih =>
      have hdrain : (drainPkt tx id).1.txPktList.Sublist tx.txPktList := by
        unfold drainPkt
        split
        · exact .refl _
        · exact abandoned_list ..
      exact (ih _).trans hdrain
  refine List.filterMap_eq_nil_iff.mpr fun id hid => ?_
  rw [drainTxPkts, drainFold_pkts, if_pos ((hlist _ _).subset hid)]
  rfl

theorem dropTxPkts_times (h : Handle) (tx : TxSide) : (dropTxPkts h tx).1.times.Sublist tx.times := by
  have hdrop : ∀ tx id, (dropPkt h tx id).1.times.Sublist tx.times := by
    intro tx id
    unfold dropPkt
    split
    · exact .refl _
    split
    · apply times_sublist (abandoned_list ..)
      intro j
      rw [← unsetTracked_pkts tx]
      exact setPkt_none_time ..
    · exact .refl _
  unfold dropTxPkts
  generalize tx.txPktList = ids
  induction ids generalizing tx with
  | nil => exact .refl _
  | cons _ _ ih => exact (ih _).trans (hdrop ..)

/-! ## The changes of a step -/

/-- Only an initiator has a message under way, and none once it has started to close. -/
def Pdc.calm (p : Pdc) : Prop :=
  p.state ≠ .error ∧ (p.activeMsgIdValid = false → p.activeMsgId = 0) ∧
  (p.activeMsgIdValid = true → p.isInitiator = true ∧ p.state ≠ .unalloc) ∧
  (p.isInitiator = true → p.closeStarted = true ∨ p.state = .closing →
    p.closeRequested = true ∧ p.activeMsgIdValid = false) ∧
  (p.state = .pending → p.isInitiator = false)

section

variable {p : Pdc} (h : p.calm)
include h

theorem Pdc.calm.zero : p.activeMsgIdValid = false → p.activeMsgId = 0 := h.2.1

theorem Pdc.calm.carries : p.activeMsgIdValid = true → p.isInitiator = true ∧ p.state ≠ .unalloc := h.2.2.1

theorem Pdc.calm.closes : p.isInitiator = true → p.closeStarted = true ∨ p.state = .closing →
    p.closeRequested = true ∧ p.activeMsgIdValid = false := h.2.2.2.1

theorem Pdc.calm.pending : p.state = .pending → p.isInitiator = false := h.2.2.2.2

theorem Pdc.calm.ended : Pdc.calm { p with activeMsgId := 0, activeMsgIdValid := false } :=
  ⟨h.1, fun _ => rfl, nofun, fun hi hc => ⟨(h.closes hi hc).1, rfl⟩, h.pending⟩

theorem Pdc.calm.request : Pdc.calm { p with closeRequested := true } :=
  ⟨h.1, h.zero, h.carries, fun hi hc => ⟨rfl, (h.closes hi hc).2⟩, h.pending⟩

end

/-- Where the code releases a PDC. -/
def Pdc.releasable (p : Pdc) : Prop :=
  p.activeMsgIdValid = false ∨ p.isInitiator = false ∨ p.closeStarted = true ∨ p.state = .closing ∨ p.state = .pending

theorem Pdc.calm.releasable {p : Pdc} (h : p.calm) (hr : p.releasable) : p.activeMsgIdValid = false := by
  by_contra hv
  obtain ⟨hini, -⟩ := h.carries (not_eq_false _ ▸ hv)
  rcases hr with hr | hr | hr | hr | hr
  · exact hv hr
  · exact absurd (hini.symm.trans hr) (by decide)
  · exact hv (h.closes hini (.inl hr)).2
  · exact hv (h.closes hini (.inr hr)).2
  · exact absurd (hini.symm.trans (h.pending hr)) (by decide)

theorem Pdc.calm.establish {p : Pdc} (h : p.calm) : Pdc.calm { p with state := .established } :=
  ⟨nofun, h.zero, fun hv => ⟨(h.carries hv).1, nofun⟩, fun hi hc => h.closes hi (hc.imp_right nofun), nofun⟩

structure SameMsg (p p' : Pdc) : Prop where
  valid : p'.activeMsgIdValid = p.activeMsgIdValid
  msgId : p'.activeMsgId = p.activeMsgId
  calm : p.calm → p'.calm

structure Kept (p p' : Pdc) : Prop extends SameMsg p p' where
  times : p'.tx.times.Sublist p.tx.times

/-! A retransmission stamps the packet with the time of the step; the caller then moves it to the end of the list. -/

def Pdc.restamped (p : Pdc) (id : PktId) (f : TxPkt → TxPkt) : Pdc := { p with tx := p.tx.modPkt id f }

def Pdc.relinked (p : Pdc) (id : PktId) (f : TxPkt → TxPkt) : Pdc :=
  { p with tx := ((p.tx.modPkt id f).unlink id).linkTail id }

theorem modPkt_modPkt (f g : TxPkt → TxPkt) : (tx.modPkt id f).modPkt id g = tx.modPkt id (g ∘ f) := by
  have hpkts : ((tx.modPkt id f).modPkt id g).pkts = (tx.modPkt id (g ∘ f)).pkts := by
    funext j
    show (if j = id then (if id = id then (tx.pkts id).map f else tx.pkts id).map g
      else if j = id then (tx.pkts id).map f else tx.pkts j) = if j = id then (tx.pkts id).map (g ∘ f) else tx.pkts j
    rw [if_pos rfl, Option.map_map]
    split <;> rfl
  exact congrArg (fun pkts => { tx with pkts }) hpkts

/-- `uet_pds_rtx_pkt` changes nothing, or stamps the packet: it was sent, or it is a data packet that the NIC refused. -/
theorem rtxPkt_cases (env : Env) (p : Pdc) (id : PktId) (pkt : TxPkt) :
    (rtxPkt env p id pkt).1 = p ∧ (rtxPkt env p id pkt).2.2 ≠ .ok ∨
    ∃ f, (∀ k, (f k).txTime = env.now) ∧ (rtxPkt env p id pkt).1 = p.restamped id f ∧
      ((rtxPkt env p id pkt).2.2 = .ok ∨ (rtxPkt env p id pkt).2.2 = .err ∧
        (pkt.dstRecvd && decide (pkt.txRetryCnt < env.cfg.maxTxRetries)) = false ∧
        env.nic (p.frame (setRetx pkt.hdr)) = false) := by
  unfold rtxPkt
  split
  · rw [sendUntrackedCtrl]
    split
    · exact .inr ⟨_, fun _ => rfl, rfl, .inl rfl⟩
    · rename_i hrc _
      exact .inl ⟨rfl, hrc⟩
  · rename_i hrecvd
    split
    · exact .inl ⟨rfl, nofun⟩
    dsimp only
    split
    · refine .inr ⟨_, fun _ => ?_, congrArg (fun tx => { p with tx }) (modPkt_modPkt ..), .inl rfl⟩
      rfl
    · rename_i hnic
      exact .inr ⟨_, fun _ => rfl, rfl, .inr ⟨rfl, eq_false_iff.mpr hrecvd, eq_false_iff.mpr hnic⟩⟩

theorem checkRtxPkt_cases (env : Env) (p : Pdc) (id : PktId) (pkt : TxPkt) :
    (checkRtxPkt env p id pkt).1 = p ∧ (checkRtxPkt env p id pkt).2.2 = .ok ∨
    (checkRtxPkt env p id pkt).2.2 = .err ∧ SameMsg p (checkRtxPkt env p id pkt).1 ∨
    (checkRtxPkt env p id pkt).2.2 = .again ∧ ∃ f, (∀ k, (f k).txTime = env.now) ∧
      (checkRtxPkt env p id pkt).1 = p.restamped id f := by
  have hsame : ∀ f, SameMsg p (p.restamped id f) := fun _ => ⟨rfl, rfl, fun h => h⟩
  have hrtx := rtxPkt_cases env p id pkt
  unfold checkRtxPkt
  split
  · exact .inl ⟨rfl, rfl⟩
  split
  · exact .inl ⟨rfl, rfl⟩
  split
  · exact .inl ⟨rfl, rfl⟩
  · split
    · exact .inr (.inl ⟨rfl, rfl, rfl, fun h => h⟩)
    · generalize rtxPkt env p id pkt = x at hrtx ⊢
      obtain ⟨q, outs, rc⟩ := x
      rcases hrtx with ⟨rfl, hrc⟩ | ⟨f, hf, rfl, hrc⟩
      · cases rc with
        | ok => exact absurd rfl hrc
        | again => exact .inl ⟨rfl, rfl⟩
        | err => exact .inr (.inl ⟨rfl, rfl, rfl, fun h => h⟩)
      · rcases hrc with rfl | ⟨rfl, -⟩
        · exact .inr (.inr ⟨rfl, f, hf, rfl⟩)
        · exact .inr (.inl ⟨rfl, hsame f⟩)

/-- A NACK of the peer that makes `uet_pds_process_nack` look for the packet it names. -/
def nackAsks (p : Pdc) (pp : ParsedPkt) : Bool :=
  decide (p.dstAddr = pp.src) && pp.nackCode != .newStartPsn && nackAction pp.nackCode != .drop &&
    nackAction pp.nackCode != .close && !(psnAfter p.tx.txBmBasePsn pp.psn || psnAfter pp.psn (p.tx.nextPsn - 1))

def nackRefused (env : Env) (p : Pdc) (pp : ParsedPkt) : Bool :=
  match p.tx.txBm.get (psnOffset pp.psn p.tx.txBmBasePsn) with
  | none => false
  | some id =>
    match p.tx.pkts id with
    | none => false
    | some k => !k.txPktAcked && !k.dstRecvd && txPsnAllowed p.tx k.psn &&
        decide (k.txRetryCnt < env.cfg.maxTxRetries) && !env.nic (p.frame (setRetx k.hdr))

structure Admits (env : Env) (R : Pdc → Pdc → Prop) : Prop where
  trans : ∀ {p q r}, R p q → R q r → R p r
  set : ∀ {p p'}, Kept p p' → R p p'
  start : ∀ {p} (ct : CtrlType), p.tx.txPktList = [] →
    R p { p with tx := trackPkt p.tx { psn := p.tx.nextPsn, msgId := 0, txPktHandle := none
                                       hdr := .ctrl (p.ctrlHdr ct true p.tx.nextPsn 0), txTime := env.now } }
  free : ∀ p, p.releasable → R p (freePdc p).1

namespace Admits

variable {env : Env} {R : Pdc → Pdc → Prop} (hR : Admits env R) (p : Pdc)
include hR

theorem refl : R p p := hR.set ⟨⟨rfl, rfl, fun h => h⟩, .refl _⟩

theorem before {p q p' : Pdc} (h : R p q) (hs : Kept q p') : R p p' := hR.trans h (hR.set hs)

theorem after {p q p' : Pdc} (h : R q p') (hs : Kept p q) : R p p' := hR.trans (hR.set hs) h

omit hR in
theorem sendTrackedCtrl_ctl (env : Env) (ct : CtrlType) :
    (Pds.sendTrackedCtrl env p ct).1.activeMsgIdValid = p.activeMsgIdValid ∧
    (Pds.sendTrackedCtrl env p ct).1.closeRequested = p.closeRequested ∧
    (Pds.sendTrackedCtrl env p ct).1.isInitiator = p.isInitiator := by
  unfold Pds.sendTrackedCtrl
  dsimp only
  split
  · exact ⟨rfl, rfl, rfl⟩
  split
  · exact ⟨rfl, rfl, rfl⟩
  · split <;> exact ⟨rfl, rfl, rfl⟩

theorem sendTrackedCtrl (ct : CtrlType) (hl : p.tx.txPktList = []) : R p (sendTrackedCtrl env p ct).1 := by
  unfold Pds.sendTrackedCtrl
  dsimp only
  split
  · exact hR.refl p
  split
  · exact hR.refl p
  · split
    · exact hR.start ct hl
    · exact hR.refl p

theorem initiatePdcClose : R p (initiatePdcClose env p).1 := by
  unfold Pds.initiatePdcClose
  have hreq : R p { p with closeRequested := true } := hR.set ⟨⟨rfl, rfl, fun h => h.request⟩, .refl _⟩
  split
  · exact hR.refl p
  split
  · exact hR.refl p
  dsimp only
  split
  · exact hreq
  rename_i hmsg
  split
  · exact hreq
  rename_i hl
  split
  · exact hR.trans hreq (hR.free _ (.inl (eq_false_iff.mpr hmsg)))
  have hsend := hR.trans hreq (hR.sendTrackedCtrl { p with closeRequested := true } .close (by simpa using hl))
  have hctl := sendTrackedCtrl_ctl { p with closeRequested := true } env .close
  generalize Pds.sendTrackedCtrl env { p with closeRequested := true } .close = x at hsend hctl ⊢
  obtain ⟨q, outs, rc⟩ := x
  obtain ⟨hv, hreq, -⟩ := hctl
  cases rc with
  | ok =>
    refine hR.before hsend ⟨⟨rfl, rfl, fun h => ⟨nofun, h.zero, fun hv' => ⟨(h.carries hv').1, nofun⟩, ?_, nofun⟩⟩, .refl _⟩
    exact fun _ _ => ⟨hreq, hv.trans (eq_false_iff.mpr hmsg)⟩
  | again => exact hsend
  | err => exact hsend

theorem targetPdcClose (hini : p.isInitiator = false) : R p (targetPdcClose env p).1 := by
  unfold Pds.targetPdcClose
  split
  · exact hR.refl p
  split
  · exact hR.refl p
  split
  · exact hR.refl p
  · rename_i hl
    have hsend := hR.sendTrackedCtrl p .closeReq (by simpa using hl)
    have hctl := sendTrackedCtrl_ctl p env .closeReq
    generalize Pds.sendTrackedCtrl env p .closeReq = x at hsend hctl ⊢
    obtain ⟨q, outs, rc⟩ := x
    obtain ⟨-, -, hq⟩ := hctl
    cases rc with
    | ok =>
      refine hR.before hsend ⟨⟨rfl, rfl, fun h => ⟨h.1, h.zero, h.carries, fun hi => ?_, h.pending⟩⟩, .refl _⟩
      exact absurd ((hq.trans hini).symm.trans hi) (by decide)
    | again => exact hsend
    | err => exact hsend

theorem closePdcInError {q : Pdc} (hs : SameMsg p q) : R p (closePdcInError env q).1 := by
  have hdrain : Kept p { q with tx := (drainTxPkts q.tx).1 } :=
    ⟨⟨hs.valid, hs.msgId, hs.calm⟩, by rw [drainTxPkts_times]; exact List.nil_sublist _⟩
  unfold Pds.closePdcInError
  dsimp only
  split
  · rename_i hstarted
    exact hR.after (hR.free _ (.inr (.inr (.inl hstarted)))) hdrain
  split
  · exact hR.after (hR.initiatePdcClose _) hdrain
  · rename_i hini
    exact hR.after (hR.targetPdcClose _ (eq_false_iff.mpr hini)) hdrain

theorem progressTxPkt (id : PktId)
    (hresend : ∀ f, (∀ k, (f k).txTime = env.now) → R p (p.relinked id f)) : R p (progressTxPkt env p id).1 := by
  unfold Pds.progressTxPkt
  cases p.tx.pkts id with
  | none => exact hR.refl p
  | some pkt =>
    have hcheck := checkRtxPkt_cases env p id pkt
    dsimp only
    generalize checkRtxPkt env p id pkt = x at hcheck ⊢
    obtain ⟨q, outs, rc⟩ := x
    cases hcheck with
    | inl h =>
      obtain ⟨rfl, rfl⟩ := h
      exact hR.refl q
    | inr h =>
      cases h with
      | inl h =>
        obtain ⟨rfl, hs⟩ := h
        have hclose := hR.closePdcInError p hs
        cases pkt.txPktHandle with
        | none => exact hclose
        | some h => exact hR.before hclose ⟨⟨rfl, rfl, fun h => h⟩, dropTxPkts_times ..⟩
      | inr h =>
        obtain ⟨rfl, f, hf, rfl⟩ := h
        exact hresend f hf

theorem txClose : R p (txClose env p).1 := by
  unfold Pds.txClose
  split
  · exact hR.initiatePdcClose p
  · exact hR.refl p

theorem ackClose : R p (ackClose env p).1 := by
  unfold Pds.ackClose
  split
  · exact hR.initiatePdcClose p
  · exact hR.refl p

variable (pp : ParsedPkt)

theorem ackDeliver (id : PktId) : R p (ackDeliver env p pp id).1 := by
  have hest : R p (ackEstablish p pp) := by
    unfold ackEstablish
    split
    · exact hR.set ⟨⟨rfl, rfl, fun h => h.establish⟩, .refl _⟩
    · exact hR.refl p
  unfold Pds.ackDeliver
  generalize ackEstablish p pp = q at hest ⊢
  split
  · exact hest
  · exact hR.trans hest (hR.after (hR.ackClose _) ⟨⟨rfl, rfl, fun h => h⟩, shiftTxGo_times ..⟩)

theorem ackTracked (id : PktId) : R p (ackTracked env p pp id).1 := by
  have hack : R p { p with tx := (processAckState (markAcked p.tx id) pp).1 } :=
    hR.set ⟨⟨rfl, rfl, fun h => h⟩, (processAckState_times ..).trans (markAcked_times ..)⟩
  unfold Pds.ackTracked
  generalize processAckState (markAcked p.tx id) pp = x at hack ⊢
  dsimp only
  split
  · rename_i hclosing
    have hrel : p.releasable := .inr (.inr (.inr (.inl (beq_iff_eq.mp (and_eq_true_iff.mp hclosing).1))))
    exact hR.trans hack (hR.after (hR.free _ hrel) ⟨⟨rfl, rfl, fun h => h⟩, shiftTxGo_times ..⟩)
  · exact hR.trans hack (hR.ackDeliver _ pp id)

theorem processAck : R p (processAck env p pp).1 := by
  unfold Pds.processAck
  split
  · exact hR.refl p
  split
  · exact hR.refl p
  split
  · exact hR.refl p
  · cases classifyAck p.tx pp with
    | invalid => exact hR.refl p
    | duplicate => exact hR.set ⟨⟨rfl, rfl, fun h => h⟩, (shiftTxGo_times ..).trans (processAckState_times ..)⟩
    | tracked => exact hR.ackTracked ..

theorem nackRetx (hresend : ∀ id f, p.tx.txBm.get (psnOffset pp.psn p.tx.txBmBasePsn) = some id → p.tx.acked id = false →
      (∀ k, (f k).txTime = env.now) → R p (p.relinked id f))
    (hrefused : ∀ id f, nackRefused env p pp = true → (∀ k, (f k).txTime = env.now) → R p (p.restamped id f)) :
    R p (nackRetx env p pp).1 := by
  unfold nackRefused at hrefused
  unfold Pds.nackRetx
  cases hget : p.tx.txBm.get (psnOffset pp.psn p.tx.txBmBasePsn) with
  | none => exact hR.refl p
  | some id =>
    rw [hget] at hrefused
    dsimp only at hrefused ⊢
    cases hk : p.tx.pkts id with
    | none => exact hR.refl p
    | some pkt =>
      rw [hk] at hrefused
      dsimp only at hrefused ⊢
      split
      · exact hR.refl p
      rename_i hun
      split
      · exact hR.refl p
      split
      · exact hR.closePdcInError p ⟨rfl, rfl, fun h => h⟩
      have hrtx := rtxPkt_cases env p id pkt
      generalize rtxPkt env p id pkt = x at hrtx ⊢
      obtain ⟨q, outs, rc⟩ := x
      rcases hrtx with ⟨rfl, hrc⟩ | ⟨f, hf, rfl, hrc⟩
      · cases rc with
        | ok => exact absurd rfl hrc
        | again => exact hR.refl q
        | err => exact hR.refl q
      · rcases hrc with rfl | ⟨rfl, hrecvd, hnic⟩
        · refine hresend id f hget ?_ hf
          rw [TxSide.acked, hk]
          exact eq_false_iff.mpr hun
        · refine hrefused id f ?_ hf
          simp_all

theorem processNack (hstart : R p (reestablishStartPsn env p pp.payload).1)
    (hretx : nackAsks p pp = true → R p (Pds.nackRetx env (nackEstablish p pp) pp).1) :
    R p (processNack env p pp).1 := by
  unfold nackAsks at hretx
  unfold Pds.processNack
  split
  · exact hR.refl p
  split
  · exact hstart
  split
  · exact hR.refl p
  split
  · exact hR.refl p
  split
  · apply hR.closePdcInError
    unfold nackEstablish
    split
    · exact ⟨rfl, rfl, fun h => h.establish⟩
    · exact ⟨rfl, rfl, fun h => h⟩
  · exact hretx (by simp_all)

theorem processCloseReqCp : R p (processCloseReqCp env p pp).1 := by
  unfold Pds.processCloseReqCp
  split
  · exact hR.refl p
  split
  · exact hR.set ⟨⟨rfl, rfl, fun h => h⟩, .refl _⟩
  split
  · exact hR.refl p
  · dsimp only
    cases p.rx.rxBm.get (psnOffset pp.psn p.rx.rxBmBasePsn) with
    | some orig =>
      dsimp only
      cases orig.ack <;> exact hR.refl p
    | none =>
      dsimp only
      split
      · exact hR.after (hR.initiatePdcClose _) ⟨⟨rfl, rfl, fun h => h.request⟩, .refl _⟩
      · exact hR.refl p

theorem processCloseCommandCp : R p (processCloseCommandCp env p pp).1 := by
  unfold Pds.processCloseCommandCp
  split
  · exact hR.refl p
  rename_i hini
  split
  · exact hR.refl p
  have hclosing : ∀ rx, p.calm → Pdc.calm { p with closeStarted := true, closeCmdPsn := pp.psn, state := .closing, rx } :=
    fun _ h => ⟨nofun, h.zero, fun hv => absurd (h.carries hv).1 hini, fun hi => absurd hi hini, nofun⟩
  dsimp only
  split
  · exact hR.closePdcInError p ⟨rfl, rfl, hclosing _⟩
  unfold finishClose
  split <;> exact hR.after (hR.free _ (.inr (.inl (eq_false_iff.mpr hini)))) ⟨⟨rfl, rfl, hclosing _⟩, .refl _⟩

theorem processControl : R p (processControl env p pp).1 := by
  unfold Pds.processControl exitErr
  split
  · exact hR.refl p
  split
  · exact hR.refl p
  split
  · exact hR.refl p
  · cases pp.ctrlType with
    | ackReq => exact hR.set ⟨⟨rfl, rfl, fun h => h⟩, .refl _⟩
    | clear => exact hR.set ⟨⟨rfl, rfl, fun h => h⟩, .refl _⟩
    | closeReq => exact hR.processCloseReqCp p pp
    | close => exact hR.processCloseCommandCp p pp
    | _ => exact hR.refl p

theorem processReq : R p (if pp.syn then
    if p.isInitiator then (p, txNack env 0 pp .invalidSyn 0) else processSynPkt env p pp
    else processRequest env p pp).1 := by
  split
  · split
    · exact hR.refl p
    · unfold processSynPkt
      split
      · exact hR.refl p
      split
      · exact hR.refl p
      split
      · exact hR.set ⟨⟨rfl, rfl, fun h => h.establish⟩, .refl _⟩
      · exact hR.set ⟨⟨rfl, rfl, fun h => h⟩, .refl _⟩
  · unfold processRequest
    split
    · exact hR.refl p
    split
    · exact hR.refl p
    · split
      · exact hR.refl p
      · exact hR.set ⟨⟨rfl, rfl, fun h => h⟩, .refl _⟩

theorem progressRx (f : Frame) (hnack : (parsePkt f).pdsType = .nack → R p (Pds.processNack env p (parsePkt f)).1) : R p (progressRx env p f).1 := by
  unfold Pds.progressRx
  dsimp only
  split
  · exact hR.refl p
  generalize parsePkt f = pp at hnack ⊢
  cases ht : pp.pdsType with
  | ack => exact hR.processAck p pp
  | ackCc => exact hR.processAck p pp
  | ackCcx => exact hR.processAck p pp
  | nack => exact hnack ht
  | ctrl => exact hR.processControl p pp
  | rudReq => exact hR.processReq p pp
  | rodReq => exact hR.processReq p pp

theorem reapPending : R p (reapPending env p).1 := by
  unfold Pds.reapPending
  split
  · exact hR.free p (by simp_all [Pdc.releasable])
  · exact hR.refl p

theorem closeReqTimer : R p (closeReqTimer env p).1 := by
  unfold Pds.closeReqTimer
  split
  · exact hR.closePdcInError p ⟨rfl, rfl, fun h => h⟩
  · exact hR.refl p

end Admits

end Uet.Pds
