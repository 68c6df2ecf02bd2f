import Uet.Pds.Delivery

/-!
# Delivery of unordered requests

The receive window of a RUD target over unbounded PSNs. `RudWindow` ties `rx_bm`,
the `needs_clear` flags, `max_clear_psn` and the PSNs already shifted out to the
list of PSNs SES has accepted; one acceptance followed by the window shift keeps
it, and everything else leaves the window as it is.
-/

namespace Uet.Pds

open Uet.Serial List

/-- The window `[B, B + 128)` with clear point `M` after SES accepted `acc`,
starting from `S`. -/
structure RudWindow (S B M : Int) (bm : PtrBitmap RxPkt 2) (acc : List (Int × Bool)) : Prop where
  start_le : S ≤ B
  clear_ge : B - 32896 ≤ M
  clear_le : M ≤ B + 32894
  entry : ∀ (i : Int) (t : RxPkt), bm.get i = some t →
    t.psn = pw (B + i) ∧ (B + i, t.needsClear) ∈ acc
  below : ∀ n, S ≤ n → n < B → n ∈ acc.map Prod.fst
  member : ∀ (n : Int) (g : Bool), (n, g) ∈ acc →
    S ≤ n ∧ (B ≤ n → ∃ t, bm.get (n - B) = some t ∧ t.needsClear = g)
  cleared : ∀ n, (n, true) ∈ acc → n < B → n ≤ M
  nodup : (acc.map Prod.fst).Nodup
  head : cackPasses (pw M) (bm.get 0) = false

theorem RudWindow.init (S : Int) (bm : PtrBitmap RxPkt 2) (h : ∀ i, bm.get i = none) :
    RudWindow S S (S - 1) bm [] where
  start_le := Int.le_refl S
  clear_ge := by omega
  clear_le := by omega
  entry i t ht := by rw [h] at ht; cases ht
  below n h1 h2 := by omega
  member n g hm := by cases hm
  cleared n hm := by cases hm
  nodup := nodup_nil
  head := by rw [h]; rfl

theorem cackPasses_pw (M n : Int) (t : RxPkt) (ht : t.psn = pw n) (hr : InRange n M) :
    cackPasses (pw M) (some t) = true ↔ (t.needsClear = true → n ≤ M) := by
  rw [cackPasses, ht, psnAfter_pw hr]
  cases t.needsClear <;> simp

variable {S : Int} {h : Hist}

/-- SES accepts the new PSN `B + i`: the entry goes in, the clear point moves to
`c` if that is later, and the window shifts past the entries that pass. -/
theorem RudWindow.accept {B M : Int} {bm : PtrBitmap RxPkt 2} {acc : List (Int × Bool)} (h : RudWindow S B M bm acc)
    {i : Int} (h0 : 0 ≤ i) (h1 : i < 128) (hnew : bm.get i = none) (pkt : RxPkt) (hp : pkt.psn = pw (B + i)) {c : Int}
    (hc1 : B + i - 32768 ≤ c) (hc2 : c ≤ B + i + 32767) {r : Nat} (hr : CackAt (bm.set i pkt) (pw (max M c)) r) :
    RudWindow S (B + r) (max M c) ((bm.set i pkt).shiftRight r) (acc ++ [(B + i, pkt.needsClear)]) := by
  have hle := hr.le
  have hMc : B - 32896 ≤ max M c ∧ max M c ≤ B + 32894 := by
    have := h.clear_ge
    have := h.clear_le
    omega
  have hentry : ∀ (j : Int) (t : RxPkt), (bm.set i pkt).get j = some t →
      t.psn = pw (B + j) ∧ (B + j, t.needsClear) ∈ acc ++ [(B + i, pkt.needsClear)] := by
    intro j t ht
    rw [PtrBitmap.get_set] at ht
    split_ifs at ht with hj
    · cases ht
      rw [hj.1]
      exact ⟨hp, by simp⟩
    · obtain ⟨ha, hb⟩ := h.entry j t ht
      exact ⟨ha, mem_append_left _ hb⟩
  have hpass : ∀ j : Nat, j < r →
      ∃ t, (bm.set i pkt).get j = some t ∧ (t.needsClear = true → B + j ≤ max M c) := by
    intro j hj
    have hp' := hr.passes j hj
    cases ht : (bm.set i pkt).get j with
    | none => rw [ht] at hp'; cases hp'
    | some t =>
      rw [ht] at hp'
      refine ⟨t, rfl, ?_⟩
      exact (cackPasses_pw _ _ t (hentry j t ht).1 (by simp only [InRange]; omega)).1 hp'
  have hmember : ∀ (n : Int) (g : Bool), (n, g) ∈ acc ++ [(B + i, pkt.needsClear)] →
      S ≤ n ∧ (B ≤ n → ∃ t, (bm.set i pkt).get (n - B) = some t ∧ t.needsClear = g) := by
    intro n g hm
    rcases mem_append.1 hm with hold | hnw
    · obtain ⟨hs, hw⟩ := h.member n g hold
      refine ⟨hs, fun hB => ?_⟩
      obtain ⟨t, ht, hg⟩ := hw hB
      refine ⟨t, ?_, hg⟩
      rw [PtrBitmap.get_set, if_neg, ht]
      rintro ⟨he, -⟩
      rw [he, hnew] at ht
      cases ht
    · cases mem_singleton.1 hnw
      refine ⟨by have := h.start_le; omega, fun _ => ⟨pkt, ?_, rfl⟩⟩
      rw [PtrBitmap.get_set, if_pos ⟨by omega, h0, by omega⟩]
  have hfresh : B + i ∉ acc.map Prod.fst := by
    intro hm
    obtain ⟨⟨n, g⟩, hmem, rfl⟩ := mem_map.1 hm
    obtain ⟨t, ht, -⟩ := (h.member _ g hmem).2 (by omega)
    rw [show B + i - B = i by omega, hnew] at ht
    cases ht
  refine ⟨by have := h.start_le; omega, by omega, by omega, ?_, ?_, ?_, ?_, ?_, ?_⟩
  · intro j t ht
    have hj := (PtrBitmap.get_range _ _ (by rw [ht]; simp)).1
    rw [PtrBitmap.get_shiftRight _ _ _ hj] at ht
    rw [show B + (r : Int) + j = B + (j + r) by omega]
    exact hentry _ t ht
  · intro n hn1 hn2
    by_cases hn : n < B
    · simp [h.below n hn1 hn]
    obtain ⟨t, ht, -⟩ := hpass (n - B).toNat (by omega)
    have := (hentry _ t ht).2
    rw [show B + (((n - B).toNat : Nat) : Int) = n by omega] at this
    exact mem_map.2 ⟨_, this, rfl⟩
  · intro n g hm
    obtain ⟨hs, hw⟩ := hmember n g hm
    refine ⟨hs, fun hB => ?_⟩
    rw [PtrBitmap.get_shiftRight _ _ _ (by omega), show n - (B + (r : Int)) + r = n - B by omega]
    exact hw (by omega)
  · intro n hm hn
    by_cases hlt : n < B
    · rcases mem_append.1 hm with hold | hnw
      · have := h.cleared n hold hlt
        omega
      · have := congrArg Prod.fst (mem_singleton.1 hnw)
        omega
    -- the entry at its place is the acceptance itself
    · obtain ⟨t, ht, hg⟩ := (hmember n true hm).2 (by omega)
      obtain ⟨t', ht', hcl⟩ := hpass (n - B).toNat (by omega)
      rw [show (((n - B).toNat : Nat) : Int) = n - B by omega, ht] at ht'
      cases ht'
      have := hcl hg
      omega
  · rw [map_append, nodup_append]
    refine ⟨h.nodup, by simp, ?_⟩
    intro a ha b hb heq
    simp only [map_cons, map_nil, mem_singleton] at hb
    subst heq
    exact hfresh (hb ▸ ha)
  · rw [PtrBitmap.get_shiftRight _ _ _ (Int.le_refl 0), Int.zero_add]
    exact hr.stops

/-- The unbounded `max_clear_psn`. -/
def Hist.clear (h : Hist) : Int := h.abs h.pdc.rx.maxClearPsn

structure RudInv (S : Int) (h : Hist) : Prop where
  state : h.pdc.state = .established
  target : h.pdc.isInitiator = false
  base : h.pdc.rx.rxBmBasePsn = pw h.base
  cack : h.pdc.rx.cackPsn = pw h.cack
  cack_eq : h.cack = h.base - 1
  window : RudWindow S h.base h.clear h.pdc.rx.rxBm h.accepted

theorem RudInv.init (slot : Pdc) (sec : Bool) (syn : ParsedPkt) (start : Int) :
    RudInv start (Hist.init slot sec syn start) := by
  have h1 : pw start - 1 = pw (start - 1) := pw_sub start 1
  have hclear : (Hist.init slot sec syn start).clear = start - 1 := by
    have : (Hist.init slot sec syn start).clear = (Hist.init slot sec syn start).abs (pw start - 1) := rfl
    rw [this, h1]
    exact Hist.abs_pw _ rfl (by simp only [InRange, Hist.init]; omega)
  refine ⟨rfl, rfl, rfl, h1, rfl, ?_⟩
  rw [hclear]
  exact RudWindow.init start _ fun i => PtrBitmap.get_clear _ i

section

variable (hi : RudInv S h)
include hi

theorem RudInv.sackOnly {rx' : RxSide} (hs : SackOnly h.pdc.rx rx') :
    RudInv S (h.advance { h.pdc with rx := rx' } []) ∧
      (h.advance { h.pdc with rx := rx' } []).base = h.base := by
  have hbase : (h.advance { h.pdc with rx := rx' } []).base = h.base := by
    simp only [Hist.advance, Hist.abs, hs.base, psnOffset_self, Int.add_zero]
  have hcack : (h.advance { h.pdc with rx := rx' } []).cack = h.cack := by
    simp only [Hist.advance, hs.cack, psnOffset_self, Int.add_zero]
  have hclear : (h.advance { h.pdc with rx := rx' } []).clear = h.clear := by
    rw [Hist.clear, Hist.clear, Hist.abs, Hist.abs, hbase]
    simp only [Hist.advance, hs.base, hs.maxClear]
  refine ⟨⟨hi.state, hi.target, ?_, ?_, ?_, ?_⟩, hbase⟩
  · rw [hbase]
    exact hs.base.trans hi.base
  · rw [hcack]
    exact hs.cack.trans hi.cack
  · rw [hcack, hbase]
    exact hi.cack_eq
  · rw [hbase, hclear]
    simp only [Hist.advance, hs.bm, append_nil]
    exact hi.window

theorem RudInv.accept (a : Arrival .rudReq) (h0 : 0 ≤ psnOffset a.pp.psn h.pdc.rx.rxBmBasePsn)
    (h1 : psnOffset a.pp.psn h.pdc.rx.rxBmBasePsn < 128)
    (hnew : h.pdc.rx.rxBm.get (psnOffset a.pp.psn h.pdc.rx.rxBmBasePsn) = none) {g : Bool} {rx1 : RxSide}
    (hacc : Accepted a.env h.base (placeReq h.pdc.rx a.pp)
      (psnOffset a.pp.psn h.pdc.rx.rxBmBasePsn) (newRxPkt a.pp) g rx1) :
    let h' := h.advance { h.pdc with rx := shiftRxWindow rx1 } [(h.abs a.pp.psn, g)]
    RudInv S h' ∧ h.base ≤ h'.base := by
  intro h'
  set i := psnOffset a.pp.psn h.pdc.rx.rxBmBasePsn with hidx
  have hpsn : a.pp.psn = pw (h.base + i) := (h.pw_abs hi.base _).symm
  set c := h.base + i + a.hdr.clearPsnOffset.toInt with hcdef
  have hclr : a.pp.clearPsn = pw c := by
    have : a.pp.clearPsn = addOffset a.pp.psn a.hdr.clearPsnOffset := rfl
    rw [this, hpsn, addOffset_pw]
  have hoff1 := BitVec.le_toInt a.hdr.clearPsnOffset
  have hoff2 := BitVec.toInt_lt (x := a.hdr.clearPsnOffset)
  have hwin := hi.window
  have hg1 := hwin.clear_ge
  have hg2 := hwin.clear_le
  have hM : h.pdc.rx.maxClearPsn = pw h.clear := (h.pw_abs hi.base _).symm
  -- the state SES's answer leaves
  obtain ⟨ack, hbm⟩ := hacc.bm
  have hbm' : rx1.rxBm = h.pdc.rx.rxBm.set i { newRxPkt a.pp with needsClear := g, ack } := by
    rw [hbm]
    exact PtrBitmap.set_set _ _ _ _
  have hmc : rx1.maxClearPsn = pw (max h.clear c) := by
    rw [hacc.maxClear]
    show updatePsn h.pdc.rx.maxClearPsn a.pp.clearPsn = _
    rw [hM, hclr]
    exact updatePsn_pw (by simp only [InRange]; omega)
  have hb1 : rx1.rxBmBasePsn = pw h.base := hacc.base.trans hi.base
  have hat := cackLen_at rx1.rxBm rx1.maxClearPsn
  set r := cackLen rx1.rxBm rx1.maxClearPsn with hr
  have hle := hat.le
  have hshift := shiftRxWindow_eq rx1 h.base r hb1 hacc.cack hle
  rw [hmc, hbm'] at hat
  have hwin' := hwin.accept h0 h1 hnew { newRxPkt a.pp with needsClear := g, ack } hpsn
    (c := c) (by omega) (by omega) hat
  -- the history reads the same window
  have hbase' : h'.base = h.base + r := by
    show h.abs (shiftRxWindow rx1).rxBmBasePsn = _
    rw [hshift]
    exact h.abs_pw hi.base (by simp only [InRange]; omega)
  have hcack' : h'.cack = h.base + r - 1 := by
    show h.cack + psnOffset (shiftRxWindow rx1).cackPsn h.pdc.rx.cackPsn = _
    rw [hshift, hi.cack]
    rw [hacc.cack, psnOffset_pw (by have := hi.cack_eq; simp only [InRange]; omega)]
    omega
  have hpb : h'.pdc.rx.rxBmBasePsn = pw h'.base := by
    rw [hbase']
    show (shiftRxWindow rx1).rxBmBasePsn = _
    rw [hshift]
  have hclear' : h'.clear = max h.clear c := by
    have hmx : h'.pdc.rx.maxClearPsn = pw (max h.clear c) := by
      show (shiftRxWindow rx1).maxClearPsn = _
      rw [hshift]
      exact hmc
    rw [Hist.clear, hmx]
    exact h'.abs_pw hpb (by rw [hbase']; simp only [InRange]; omega)
  refine ⟨⟨hi.state, hi.target, hpb, ?_, by rw [hbase', hcack'], ?_⟩, by omega⟩
  · show (shiftRxWindow rx1).cackPsn = _
    rw [hshift, hcack']
    exact hacc.cack
  · have hacc' : h'.accepted = h.accepted ++ [(h.base + i, g)] := rfl
    have hbmf : h'.pdc.rx.rxBm =
        (h.pdc.rx.rxBm.set i { newRxPkt a.pp with needsClear := g, ack }).shiftRight r := by
      show (shiftRxWindow rx1).rxBm = _
      rw [hshift, ← hbm']
    rw [hbase', hclear', hacc', hbmf]
    exact hwin'

theorem RudInv.arrive (a : Arrival .rudReq) : RudInv S (h.arrive a) ∧ h.base ≤ (h.arrive a).base := by
  have hsame : ∀ outs, rxReqs outs = [] → h.newlyAccepted outs = [] := by
    intro outs ho
    simp [Hist.newlyAccepted, acceptedIn, ho]
  have hkeep : ∀ rx' outs, step a.env h.pdc (.rx a.frame) = ({ h.pdc with rx := rx' }, outs) →
      SackOnly h.pdc.rx rx' → h.newlyAccepted outs = [] →
      RudInv S (h.arrive a) ∧ h.base ≤ (h.arrive a).base := by
    intro rx' outs hst hs ho
    obtain ⟨hinv, hbase⟩ := hi.sackOnly hs
    rw [Hist.arrive, hst, ho]
    exact ⟨hinv, Int.le_of_eq hbase.symm⟩
  rcases step_request a (Or.inl rfl) h.pdc hi.state hi.target with ⟨outs, hst, ho⟩ | hst
  · exact hkeep h.pdc.rx outs hst (.refl _) (hsame _ ho)
  rcases receiveReq_cases a.env h.pdc.ids false h.pdc.rx a.pp with
    ⟨rx', outs, hr, hs, ho⟩ | ⟨-, h0, h1, hnew, hr⟩
  · rw [hr] at hst
    exact hkeep rx' outs hst hs (hsame _ ho)
  have htype : (newRxPkt a.pp).pp.pdsType = .rudReq := a.isType
  rw [hr, processDataPkt, htype] at hst
  rcases upcallSesRxReq_cases a.env h.pdc.ids (placeReq h.pdc.rx a.pp) _ (newRxPkt a.pp) h.base
    hi.base with ⟨g, nh, rsp, rx1, outs, -, hup, hacc, hreq⟩ | ⟨outs, -, hup, href⟩
  · rw [hup] at hst
    have hnl : h.newlyAccepted outs = [(h.abs a.pp.psn, g)] := by
      simp [Hist.newlyAccepted, acceptedIn, hreq, newRxPkt]
    rw [Hist.arrive, hst, hnl]
    exact hi.accept a h0 h1 hnew hacc
  · rw [hup] at hst
    dsimp only at hst
    rw [unset_placeReq _ _ hnew] at hst
    refine hkeep h.pdc.rx outs hst (.refl _) ?_
    rw [Hist.newlyAccepted, acceptedIn, filterMap_eq_nil_iff]
    intro e he
    have := (href e he).2.1
    cases hans : e.2.1 <;> simp_all

theorem RudInv.run (as : List (Arrival .rudReq)) : RudInv S (h.run as) ∧ h.base ≤ (h.run as).base :=
  Hist.run_induction (P := fun h' => RudInv S h' ∧ h.base ≤ h'.base) ⟨hi, Int.le_refl _⟩
    (fun _ a hp => ⟨(hp.1.arrive a).1, Int.le_trans hp.2 (hp.1.arrive a).2⟩) as

/-- The ends of the contiguous runs of accepted PSNs from `S` on that hold no PSN
waiting for a clear: one answered with `gtd_del` and still after `max_clear_psn`. -/
def Hist.contiguous (h : Hist) (S : Int) : Set Int :=
  { c | S - 1 ≤ c ∧ ∀ n, S ≤ n → n ≤ c →
    n ∈ h.accepted.map Prod.fst ∧ ¬ ((n, true) ∈ h.accepted ∧ h.clear < n) }

theorem RudInv.cack_greatest : IsGreatest (h.contiguous S) h.cack := by
  have hw := hi.window
  have hc := hi.cack_eq
  have hs := hw.start_le
  constructor
  · refine ⟨by omega, fun n h1 h2 => ⟨hw.below n h1 (by omega), fun ⟨hm, hlt⟩ => ?_⟩⟩
    have := hw.cleared n hm (by omega)
    omega
  · rintro c ⟨-, hall⟩
    by_contra hlt
    obtain ⟨hm, hnb⟩ := hall h.base hs (by omega)
    obtain ⟨⟨n, g⟩, hmem, hn⟩ := mem_map.1 hm
    subst hn
    obtain ⟨t, ht, hg⟩ := (hw.member _ g hmem).2 (Int.le_refl _)
    rw [Int.sub_self] at ht
    have hpsn := (hw.entry 0 t ht).1
    have hg1 := hw.clear_ge
    have hg2 := hw.clear_le
    have hhead := hw.head
    rw [ht] at hhead
    have hiff := cackPasses_pw h.clear (h.base + 0) t hpsn (by simp only [InRange]; omega)
    rw [hhead] at hiff
    simp only [Bool.false_eq_true, false_iff, Classical.not_imp] at hiff
    refine hnb ⟨?_, by omega⟩
    rw [← hg, hiff.1] at hmem
    exact hmem

end

/-- RUD delivery at a target: SES accepts a PSN at most once, every PSN the window
has left behind exactly once, `cack_psn` ends the longest run of accepted PSNs up
to the first one waiting for a clear, and neither it nor the window moves back. -/
theorem rud_target_delivery (slot : Pdc) (sec : Bool) (syn : ParsedPkt) (start : Int)
    (as : List (Arrival .rudReq)) :
    let h := (Hist.init slot sec syn start).run as
    h.pdc.rx.rxBmBasePsn = pw h.base ∧ h.pdc.rx.cackPsn = pw h.cack ∧
    (h.accepted.map Prod.fst).Nodup ∧
    (∀ n, start ≤ n → n < h.base → (h.accepted.map Prod.fst).count n = 1) ∧
    IsGreatest (h.contiguous start) h.cack ∧
    ∀ bs : List (Arrival .rudReq), h.base ≤ (h.run bs).base ∧ h.cack ≤ (h.run bs).cack := by
  intro h
  have hi : RudInv start h := ((RudInv.init slot sec syn start).run as).1
  refine ⟨hi.base, hi.cack, hi.window.nodup, fun n h1 h2 => ?_, hi.cack_greatest, fun bs => ?_⟩
  · exact count_eq_one_of_mem hi.window.nodup (hi.window.below n h1 h2)
  · obtain ⟨hi', hle⟩ := hi.run bs
    have h1 := hi.cack_eq
    have h2 := hi'.cack_eq
    exact ⟨hle, by omega⟩

end Uet.Pds
