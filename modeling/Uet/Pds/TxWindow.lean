import Uet.Pds.TxInvariant

/-!
# The transmit window reopens

Every PSN between `tx_bm_base_psn` and `next_psn` keeps its bit of `tx_bm` until the
window shifts past it, as long as no un-ACKed packet is abandoned on a PDC that
lives on: `uet_pds_shift_tx_window` stops at the first clear bit, and an abandoned
packet leaves one behind.
-/

namespace Uet.Pds

open Uet.Serial Bool

/-- The number of PSNs in `[tx_bm_base_psn, next_psn)`. -/
def TxSide.len (tx : TxSide) : Int := psnOffset tx.nextPsn tx.txBmBasePsn

structure TxFull (tx : TxSide) : Prop where
  len_ge : 0 ≤ tx.len
  len_le : tx.len ≤ 128
  bits : ∀ i, 0 ≤ i → i < tx.len → tx.txBm.get i ≠ none
  within : ∀ i, tx.txBm.get i ≠ none → i < tx.len

variable {tx : TxSide} {log : List Out} (env : Env) (p : Pdc)

theorem TxFull.congr {tx' : TxSide} (h : TxFull tx) (hl : tx'.len = tx.len) (hb : tx'.txBm = tx.txBm) : TxFull tx' := by
  constructor
  · rw [hl]; exact h.len_ge
  · rw [hl]; exact h.len_le
  · rw [hl, hb]; exact h.bits
  · rw [hl, hb]; exact h.within

theorem psnOffset_shift (n b : Psn) (x y : Int) (h1 : -128 ≤ psnOffset n b + x - y)
    (h2 : psnOffset n b + x - y ≤ 128) (h3 : -1 ≤ psnOffset n b) (h4 : psnOffset n b ≤ 128) :
    psnOffset (n + pw x) (b + pw y) = psnOffset n b + x - y := by
  obtain ⟨B, rfl⟩ : ∃ B, b = pw B := ⟨b.toInt, (wrap_toInt b).symm⟩
  have hn := pw_add_psnOffset B n
  generalize psnOffset n (pw B) = off at *
  rw [← hn, pw_add, pw_add, psnOffset_pw (by simp only [InRange]; omega)]
  omega

theorem psnOffset_add_both (n b d : Psn) : psnOffset (n + d) (b + d) = psnOffset n b := by
  rw [psnOffset, psnOffset, sdist, sdist]
  congr 1
  bv_omega

theorem TxFull.track (h : TxFull tx) {k : TxPkt} (hp : k.psn = tx.nextPsn) (hal : txPsnAllowed tx tx.nextPsn = true) :
    TxFull (trackPkt tx k) := by
  rw [txPsnAllowed, and_eq_true, psnInMpr_iff] at hal
  have hlen : (trackPkt tx k).len = tx.len + 1 := by
    have := psnOffset_shift tx.nextPsn tx.txBmBasePsn 1 0 (by omega) (by omega) (by omega) (by omega)
    have h0 : tx.txBmBasePsn + pw 0 = tx.txBmBasePsn := BitVec.add_zero _
    rw [h0] at this
    exact this.trans (by rw [TxSide.len]; omega)
  have hget : ∀ i, (trackPkt tx k).txBm.get i =
      if i = tx.len ∧ 0 ≤ tx.len ∧ tx.len < (64 * 2 : Nat) then some tx.nextId
      else tx.txBm.get i := by
    intro i
    rw [trackPkt, hp]
    exact PtrBitmap.get_set _ _ _ _
  have hlt : tx.len < 128 := hal.1.2
  have hge := h.len_ge
  constructor
  · rw [hlen]; omega
  · rw [hlen]; omega
  · intro i h0 h1
    rw [hget]
    split_ifs with hc
    · simp
    · exact h.bits i h0 (by omega)
  · intro i hi
    rw [hget] at hi
    split_ifs at hi with hc
    · omega
    · have := h.within i hi
      omega

theorem TxFull.shift (h : TxFull tx) {id : PktId} (hg : tx.txBm.get 0 = some id) :
    TxFull ({ tx with txBm := tx.txBm.shiftRight 1, txBmBasePsn := tx.txBmBasePsn + 1 }.setPkt id
      none) ∧
    ({ tx with txBm := tx.txBm.shiftRight 1, txBmBasePsn := tx.txBmBasePsn + 1 }.setPkt id
      none).len = tx.len - 1 := by
  have hpos : 0 < tx.len := h.within 0 (by rw [hg]; simp)
  have hle := h.len_le
  set tx' := { tx with txBm := tx.txBm.shiftRight 1, txBmBasePsn := tx.txBmBasePsn + 1 }.setPkt id
    none with htx
  have hlen : tx'.len = tx.len - 1 := by
    have := psnOffset_shift tx.nextPsn tx.txBmBasePsn 0 1
      (by rw [TxSide.len] at hpos hle; omega) (by rw [TxSide.len] at hpos hle; omega)
      (by rw [TxSide.len] at hpos; omega) (by rw [TxSide.len] at hle; omega)
    have h0 : tx.nextPsn + pw 0 = tx.nextPsn := BitVec.add_zero _
    rw [h0] at this
    exact this.trans (by rw [TxSide.len]; omega)
  have hget : ∀ i, 0 ≤ i → tx'.txBm.get i = tx.txBm.get (i + 1) :=
    fun i hi => PtrBitmap.get_shiftRight _ _ _ hi
  refine ⟨⟨by omega, by omega, fun i h0 h1 => ?_, fun i hi => ?_⟩, hlen⟩
  · rw [hget i h0]
    exact h.bits (i + 1) (by omega) (by omega)
  · have h0 := (PtrBitmap.get_range _ i hi).1
    rw [hget i h0] at hi
    have := h.within _ hi
    omega

theorem TxFull.move {w : Option ParsedPkt} {R : Bool → RxSide → List Out → RxSide → Prop}
    {u u' : Option PktId} {p p' : Pdc} {os : List Out}
    (hinv : TxInv p.tx) (h : p.state = .unalloc ∨ TxFull p.tx) (m : Move w False R u p os u' p') :
    p'.state = .unalloc ∨ TxFull p'.tx := by
  cases m with
  | ctl hc =>
    refine Or.inr ?_
    rw [hc.tx]
    exact h.resolve_left hc.live
  | note _ _ => exact h
  | newStart _ _ _ _ _ => exact h
  | recv rx _ _ _ => exact h
  | signal _ _ => exact h
  | resend _ _ _ _ _ => exact h
  | respond _ _ _ => exact h
  | forget => exact h
  | cack pp _ _ => exact h.imp_right fun hf => hf.congr rfl rfl
  | mpr pp _ _ =>
    have hr := processMpr_regs p.tx pp
    exact h.imp_right fun hf => hf.congr (by rw [TxSide.len, hr.next, hr.base, TxSide.len]) hr.bm
  | sack pp _ _ _ i _ =>
    have hr := sackStep_regs pp p.tx i
    exact h.imp_right fun hf => hf.congr (by rw [TxSide.len, hr.next, hr.base, TxSide.len]) hr.bm
  | touch _ _ _ _ _ => exact h.imp_right fun hf => hf.congr rfl rfl
  | ack _ _ _ _ _ => exact h.imp_right fun hf => hf.congr rfl rfl
  | cackRsp _ _ _ _ _ => exact h.imp_right fun hf => hf.congr rfl rfl
  | relink _ _ _ _ => exact h.imp_right fun hf => hf.congr rfl rfl
  | abandon _ _ _ hab _ _ _ => exact hab.elim
  | shift id hg _ => exact h.imp_right fun hf => (hf.shift hg).1
  | trackReq env r _ _ hal _ => exact h.imp_right fun hf => hf.track rfl hal
  | sendClose _ hst _ _ _ _ hal _ t =>
    exact Or.inr ((h.resolve_left hst).track rfl hal)
  | sendCloseReq _ _ hal _ t => exact h.imp_right fun hf => hf.track rfl hal
  | rebase env pp _ _ =>
    rcases reestablishStartPsn_cases env p pp.payload hinv with he | ⟨-, he, -⟩
    · rw [he]
      exact h
    rw [he]
    refine h.imp_right fun hf => hf.congr ?_ rfl
    exact psnOffset_add_both _ _ _
  | free => exact Or.inl rfl
  | closed rx os _ _ => exact Or.inl rfl

/-! ## Steps that abandon packets of a PDC that lives on -/

/-- `uet_pds_close_pdc_in_error` frees the PDC: its close had begun, or it is a SYN
initiator without a message. -/
def errorCloseFrees (p : Pdc) : Bool :=
  p.closeStarted || p.isInitiator && p.state == .syn && !p.activeMsgIdValid

/-- The step abandons un-ACKed packets without freeing the PDC: a drop request names
one of them, or an error close drains them. -/
def abandonsLive (env : Env) (p : Pdc) : Event → Bool
  | .rx f =>
    (parsePkt f).pdsType == .nack && nackCloses env p (parsePkt f) && !p.tx.txPktList.isEmpty &&
      !errorCloseFrees (nackEstablish p (parsePkt f))
  | .progressTxPkt id => retryCloses env p id && !errorCloseFrees p
  | .dropTxPkts h => p.tx.txPktList.any fun id => p.tx.handle id == some h
  | _ => false

theorem drainFold_list (ids : List PktId) (tx : TxSide) (h : TxInv tx) (hl : tx.txPktList = ids) :
    (foldPkts drainPkt ids tx).1.txPktList = [] := by
  induction ids generalizing tx with
  | nil => exact hl
  | cons id ids ih =>
    have hmem : id ∈ tx.txPktList := hl ▸ List.mem_cons_self
    obtain ⟨k, hk, -⟩ := (h.listed id).1 hmem
    rw [foldPkts, drainPkt, hk]
    refine ih _ (h.abandon hmem hk) ?_
    show ((unsetTracked tx k.psn).unlink id).txPktList = ids
    simp [TxSide.unlink, unsetTracked, apply_ite TxSide.txPktList, hl]

theorem closePdcInError_frees (h : TxInv p.tx) (hf : errorCloseFrees p = true) :
    (closePdcInError env p).1.state = .unalloc := by
  have hl : (drainTxPkts p.tx).1.txPktList = [] := drainFold_list _ _ h rfl
  rw [closePdcInError_eq, closeDrained]
  dsimp only
  rw [errorCloseFrees] at hf
  split_ifs with h1 h2
  · rfl
  · simp only [h1, Bool.false_or, and_eq_true, beq_iff_eq, not_eq_true'] at hf
    simp [initiatePdcClose, h1, h2, hf.2, hf.1.2, hl, freePdc]
  · simp [h1, h2] at hf

theorem processNack_closes (pp : ParsedPkt) (h : nackCloses env p pp = true) :
    processNack env p pp = closePdcInError env (nackEstablish p pp) := by
  simp only [nackCloses, and_eq_true, decide_eq_true_iff, bne_iff_ne, not_eq_true',
    or_eq_true, beq_iff_eq] at h
  obtain ⟨⟨⟨⟨h1, h2⟩, h3⟩, h4⟩, h5⟩ := h
  rw [processNack, if_neg (not_not.2 h1), if_neg (by simpa using h2), if_neg (by simpa using h3),
    if_neg (by rw [h4]; decide)]
  split_ifs with hc
  · rfl
  have hex := h5.resolve_left (by simpa using hc)
  have htx : (nackEstablish p pp).tx = p.tx := by
    rw [nackEstablish]
    split_ifs <;> rfl
  rw [nackExhausted] at hex
  rw [nackRetx, htx]
  cases hg : p.tx.txBm.get (psnOffset pp.psn p.tx.txBmBasePsn) with
  | none => simp [hg] at hex
  | some id =>
    cases hk : p.tx.pkts id with
    | none => simp [hg, hk] at hex
    | some pkt =>
      simp only [hg, hk, Option.bind_some, Option.any_some, and_eq_true, not_eq_true',
        or_eq_true, decide_eq_true_iff] at hex ⊢
      obtain ⟨⟨ha, hb⟩, hcnt⟩ := hex
      rw [if_neg (by rw [ha]; decide), if_neg, if_pos hcnt]
      rintro ⟨hb1, hb2⟩
      rcases hb with hb | hb
      · rw [hb] at hb1
        cases hb1
      · rw [hb] at hb2
        cases hb2

theorem checkRtxPkt_same (id : PktId) (pkt : TxPkt) : ∃ tx, (checkRtxPkt env p id pkt).1 = { p with tx } := by
  rw [checkRtxPkt]
  split_ifs
  · exact ⟨p.tx, rfl⟩
  · exact ⟨p.tx, rfl⟩
  · exact ⟨p.tx, rfl⟩
  · exact ⟨p.tx, rfl⟩
  have hr : ∃ tx, (rtxPkt env p id pkt).1 = { p with tx } := by
    rw [rtxPkt]
    split_ifs
    · rw [sendUntrackedCtrl]
      split_ifs
      · exact ⟨_, rfl⟩
      · exact ⟨p.tx, rfl⟩
    · exact ⟨p.tx, rfl⟩
    · dsimp only
      split_ifs
      · exact ⟨_, rfl⟩
      · exact ⟨_, rfl⟩
  generalize rtxPkt env p id pkt = r at hr
  obtain ⟨p1, outs, rc⟩ := r
  cases rc <;> exact hr

theorem progressTxPkt_frees (id : PktId) (h : Acct none log p.tx) (hc : retryCloses env p id = true)
    (hf : errorCloseFrees p = true) : (progressTxPkt env p id).1.state = .unalloc := by
  rw [retryCloses] at hc
  rw [progressTxPkt]
  cases hk : p.tx.pkts id with
  | none => simp [hk] at hc
  | some pkt =>
    simp only [hk] at hc ⊢
    obtain ⟨hm, -, -, -⟩ := checkRtxPkt_moves (w := none) (b := True)
      (R := fun _ _ _ _ => True) env p id pkt none hk
    obtain ⟨tx, hsame⟩ := checkRtxPkt_same env p id pkt
    -- the retransmit check keeps the packets consistent
    have hinv := (hm.keep (P := fun u l q => Acct u l q.tx) (fun _ _ _ _ _ _ hq m => hq.move m) h).inv
    generalize checkRtxPkt env p id pkt = r at hc hsame hinv
    obtain ⟨p1, outs, rc⟩ := r
    cases rc with
    | ok => cases hc
    | again => cases hc
    | err =>
      have hfree := closePdcInError_frees env p1 hinv (by
        rw [show p1 = { p with tx } from hsame]
        exact hf)
      cases pkt.txPktHandle <;> exact hfree

theorem processControl_close (pp : ParsedPkt) (h : TxInv p.tx) (hc : pp.ctrlType = .close) :
    (processControl env p pp).1.state = .unalloc ∨
      ∃ os, processControl env p pp = (p, os) ∧ ∀ o ∈ os, o.mute = true := by
  have hexit : ∀ code, (code != .newStartPsn) = true →
      ∃ os, exitErr env p pp code = (p, os) ∧ ∀ o ∈ os, o.mute = true := by
    intro code hcode
    refine ⟨_, rfl, ?_⟩
    split_ifs
    · exact txNack_mute _ _ _ _ hcode
    · simp
  rw [processControl]
  split_ifs
  · exact Or.inr (hexit _ rfl)
  · exact Or.inr (hexit _ rfl)
  · exact Or.inr (hexit _ rfl)
  rw [hc]
  rw [processCloseCommandCp]
  split_ifs with h1 h2
  · exact Or.inr ⟨_, rfl, txNack_mute _ _ _ _ rfl⟩
  · exact Or.inr ⟨_, rfl, txNack_mute _ _ _ _ rfl⟩
  refine Or.inl ?_
  dsimp only
  split_ifs with h3
  · exact closePdcInError_frees env (closeCommanded p pp) h rfl
  · rw [finishClose]
    split_ifs <;> rfl

theorem step_keeps (e : Event) (h : Acct none log p.tx) (hr : p.released) (hk : abandonsLive env p e = false) :
    (step env p e).1.state = .unalloc ∨
      Moves e.pkt False (RxFrom env p e) none p (step env p e).2 none (step env p e).1 := by
  by_cases hab : abandons env p e = true
  swap
  · exact Or.inr (step_moves env p e hr fun hc => hab hc)
  by_cases hu : p.state = .unalloc
  · obtain ⟨os, hs, -⟩ := step_unalloc env p e hr hu
    exact Or.inl (by rw [hs]; exact hu)
  cases e with
  | rx f =>
    by_cases herr : p.state = .error
    · refine Or.inr ?_
      simp only [step, progressRx, herr]
      exact .note none p _ (rxNoPdc_mute _ _)
    have hdisp : ∀ t, (parsePkt f).pdsType = t → t = .nack ∨ t = .ctrl →
        step env p (.rx f) = if t = .nack then processNack env p (parsePkt f)
          else processControl env p (parsePkt f) := by
      intro t ht hor
      rcases hor with rfl | rfl <;> simp [step, progressRx, hu, herr, ht]
    simp only [abandons] at hab
    cases ht : (parsePkt f).pdsType <;> simp only [ht] at hab <;> try cases hab
    · rw [and_eq_true] at hab
      rw [hdisp _ ht (Or.inl rfl), if_pos rfl, processNack_closes env p _ hab.1]
      refine Or.inl (closePdcInError_frees env _ ?_ ?_)
      · rw [nackEstablish]
        split_ifs <;> exact h.inv
      · simpa [abandonsLive, ht, hab.1, hab.2] using hk
    · rw [and_eq_true] at hab
      rw [hdisp _ ht (Or.inr rfl), if_neg (by decide)]
      refine (processControl_close env p _ h.inv (by simpa using hab.1)).imp_right ?_
      rintro ⟨os, hs, hq⟩
      rw [hs]
      exact .note none p os hq
  | progressTxPkt id =>
    have hret : retryCloses env p id = true := hab
    simp only [step]
    split_ifs
    · exact Or.inl (progressTxPkt_frees env p id h hret (by simpa [abandonsLive, hret] using hk))
    · exact Or.inr .refl
  | dropTxPkts hd => exact absurd hab (by simpa [abandonsLive, abandons] using hk)
  | closeReqTimer =>
    simp only [abandons, and_eq_true] at hab
    simp only [step, closeReqTimer]
    split_ifs
    · exact Or.inl (closePdcInError_frees env p h.inv (by simp [errorCloseFrees, hab.1]))
    · exact Or.inr .refl
  | txPkt r => cases hab
  | msgCmplInd => cases hab
  | reapPending => cases hab

def Pdc.keepsRun (p : Pdc) (es : List (Env × Event)) : Bool :=
  p.always (fun env p e => !abandonsLive env p e) es

theorem Handout.full (slot : Pdc) (sec : Bool) (h : Handout) : TxFull (h.pdc slot sec).tx := by
  have hbm : ∀ i, (h.pdc slot sec).tx.txBm.get i = none := by
    intro i
    cases h with
    | ini l q s => exact PtrBitmap.get_clear _ i
    | tgt syn base pending => cases pending <;> exact PtrBitmap.get_clear _ i
  have hlen : (h.pdc slot sec).tx.len = 0 := by
    cases h with
    | ini => exact psnOffset_self ..
    | tgt syn base pending => cases pending <;> exact psnOffset_self base
  constructor
  · rw [hlen]
  · rw [hlen]; omega
  · intro i h0 h1
    omega
  · intro i hi
    exact absurd (hbm i) hi

theorem TxFull.run {p : Pdc} (h : Acct none log p.tx) (hr : p.released) (hf : p.state = .unalloc ∨ TxFull p.tx)
    (es : List (Env × Event)) (hk : p.keepsRun es = true) : (p.run es).1.state = .unalloc ∨ TxFull (p.run es).1.tx := by
  refine (Pdc.run_keep (P := fun log p => Acct none log p.tx ∧ p.released ∧
    (p.state = .unalloc ∨ TxFull p.tx)) ?_ ⟨h, hr, hf⟩ es hk).2.2
  rintro env p e log ⟨h, hr, hf⟩ hq
  have hall := (step_moves (b := True) env p e hr fun _ => trivial).keep
    (P := fun u log p => Acct u log p.tx ∧ p.released)
    (fun _ _ _ _ _ _ hp m => ⟨hp.1.move m, hp.2.move m⟩) ⟨h, hr⟩
  refine ⟨hall.1, hall.2, (step_keeps env p e h hr (by simpa using hq)).elim Or.inl fun hm => ?_⟩
  exact (hm.keep (P := fun u log p => Acct u log p.tx ∧ (p.state = .unalloc ∨ TxFull p.tx))
    (fun _ _ _ _ _ _ hp m => ⟨hp.1.move m, TxFull.move hp.1.inv hp.2 m⟩) ⟨h, hf⟩).2

theorem shiftTxGo_all (n : Nat) (tx : TxSide) (hinv : TxInv tx) (h : TxFull tx)
    (hn : tx.len ≤ n) (hack : ∀ i id, tx.txBm.get i = some id → tx.acked id = true) :
    (shiftTxGo n tx).1.txBmBasePsn = tx.nextPsn ∧ (shiftTxGo n tx).1.nextPsn = tx.nextPsn := by
  induction n generalizing tx with
  | zero =>
    have hl : tx.len = 0 := by
      have := h.len_ge
      omega
    exact ⟨(eq_of_psnOffset_zero hl).symm, rfl⟩
  | succ n ih =>
    rw [shiftTxGo]
    cases hg : tx.txBm.get 0 with
    | none =>
      have hl : tx.len = 0 := by
        by_contra hne
        exact h.bits 0 (Int.le_refl 0) (by have := h.len_ge; omega) hg
      exact ⟨(eq_of_psnOffset_zero hl).symm, rfl⟩
    | some id =>
      have ha := hack 0 id hg
      obtain ⟨hf, hlen⟩ := h.shift hg
      have hi := hinv.shift hg ha
      simp only [ha, if_true]
      set tx' := { tx with txBm := tx.txBm.shiftRight 1,
                           txBmBasePsn := tx.txBmBasePsn + 1 }.setPkt id none with htx
      refine ih tx' hi hf (by omega) ?_
      intro i j hj
      have h0 := (PtrBitmap.get_range _ i (by rw [hj]; simp)).1
      have hgj : tx.txBm.get (i + 1) = some j := (PtrBitmap.get_shiftRight _ _ _ h0).symm.trans hj
      have hne : j ≠ id := by
        rintro rfl
        have := hinv.inj _ _ j hgj hg
        omega
      have hj' := hack _ j hgj
      rw [TxSide.acked] at hj' ⊢
      rw [htx, setPkt_pkts, if_neg hne]
      exact hj'

def iniHandout : Handout := .ini (.v4 1) (.v4 2) 1000

/-- PSN 1000 is dropped and 1001 acknowledged: nothing is outstanding, and no shift
moves the window any more. -/
def stuckRun : List (Env × Event) :=
  [sendMsg 1, sendMsg 2, (calmEnv fun _ => .noBuf, .dropTxPkts 1), ackOf 999 2]

def reopenRun : List (Env × Event) := [sendMsg 1, sendMsg 2, sendMsg 3, ackOf 999 2, ackOf 1001 0]

end Uet.Pds
