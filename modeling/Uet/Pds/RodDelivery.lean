import Uet.Pds.Delivery

/-!
# Delivery of ordered requests

ROD requests wait in `rx_bm` until every PSN before them has been handed to SES.
`uet_pds_update_cack` passes over waiting entries as it does over delivered ones,
so in-order delivery rests on a condition at each acceptance: nothing may wait
right behind the accepted packet unless a guaranteed-delivery entry holds
`cack_psn` back.
-/

namespace Uet.Pds

open Uet.Serial List

/-- When SES answers the packet `temp` at index `i` with `gtd_del = g`, no packet
waits at the next index, or an entry up to `i` still needs a clear. -/
def noneWaiting (rx : RxSide) (i : Nat) (temp : RxPkt) (g : Bool) : Bool :=
  (rx.rxBm.get (i + 1)).isNone ||
  (List.range (i + 1)).any fun j =>
    ((rx.rxBm.set i { temp with needsClear := g }).get j).any fun t =>
      t.needsClear && psnAfter t.psn (updatePsn rx.maxClearPsn temp.pp.clearPsn)

/-- `noneWaiting` at every acceptance of the ROD loop from index `i`. -/
def rodPassClean (env : Env) (ids : PdcIds) : (n : Nat) → (rx : RxSide) → (i : Nat) → Bool
  | 0, _, _ => true
  | n + 1, rx, i =>
    match rx.rxBm.get i with
    | none => true
    | some temp =>
      if temp.reordered then rodPassClean env ids n rx (i + 1)
      else
        match env.ses temp.pp.psn with
        | .ok g _ _ =>
          noneWaiting rx i temp g &&
            rodPassClean env ids n (markReordered (upcallSesRxReq env ids rx i temp).1 i) (i + 1)
        | _ => true

/-- `noneWaiting` at every acceptance an arrival leads to. -/
def rodClean (h : Hist) (a : Arrival .rodReq) : Bool :=
  let rx := placeReq h.pdc.rx a.pp
  rodPassClean a.env h.pdc.ids (rx.rxBm.max + 1).toNat rx 0

def rodCleanRun (h : Hist) : List (Arrival .rodReq) → Bool
  | [] => true
  | a :: as => rodClean h a && rodCleanRun (h.arrive a) as

/-! ## One pass of the delivery loop -/

/-- The `n` PSNs from `S` on. -/
def psnsFrom (S : Int) (n : Nat) : List Int := (List.range n).map fun k : Nat => S + k

/-- The window at `B` while the loop runs, `acc` being what SES has accepted so far:
the PSNs from `S` on in order, `S + acc.length` the next one. -/
structure RodPass (S B : Int) (rx : RxSide) (acc : List (Int × Bool)) : Prop where
  base : rx.rxBmBasePsn = pw B
  order : acc.map Prod.fst = psnsFrom S acc.length
  next_ge : B ≤ S + acc.length
  entry : ∀ (i : Int) (t : RxPkt), rx.rxBm.get i = some t →
    t.pp.psn = pw (B + i) ∧ (t.reordered = true ↔ B + i < S + acc.length)
  present : ∀ n, B ≤ n → n < S + acc.length → rx.rxBm.get (n - B) ≠ none
  cack : ∃ r : Nat, r ≤ 128 ∧ rx.cackPsn = pw (B + r - 1) ∧ B + r ≤ S + acc.length

variable {S B : Int} {rx : RxSide} {acc : List (Int × Bool)} {rx' : RxSide} {h : Hist}

theorem RodPass.next_le (h : RodPass S B rx acc) : S + acc.length ≤ B + 128 := by
  by_contra hlt
  refine h.present (B + 128) (by omega) (by omega) ?_
  exact PtrBitmap.get_of_out _ _ (Or.inr (by show 128 ≤ B + 128 - B; omega))

theorem cackLen_le_of_noneWaiting {i : Nat} {temp : RxPkt} {g : Bool} (h : noneWaiting rx i temp g = true)
    (ack : Option AckHdr) : cackLen (rx.rxBm.set i { temp with needsClear := g, ack })
      (updatePsn rx.maxClearPsn temp.pp.clearPsn) ≤ i + 1 := by
  have hat := cackLen_at (rx.rxBm.set i { temp with needsClear := g, ack })
    (updatePsn rx.maxClearPsn temp.pp.clearPsn)
  have hset := cackPasses_set_ack rx.rxBm (updatePsn rx.maxClearPsn temp.pp.clearPsn) i
  by_contra hlt
  simp only [noneWaiting, Bool.or_eq_true, Option.isNone_iff_eq_none, any_eq_true,
    mem_range, Option.any_eq_true, Bool.and_eq_true] at h
  rcases h with hnone | ⟨j, hj, t, ht, hn, ha⟩
  · have hp := hat.passes (i + 1) (by omega)
    rw [PtrBitmap.get_set, if_neg (by omega), Nat.cast_add, Nat.cast_one, hnone] at hp
    cases hp
  have hp := hat.passes j (by omega)
  rw [hset j { temp with needsClear := g } ack, ht] at hp
  simp [cackPasses, hn, ha] at hp

theorem map_fst_snoc (h : acc.map Prod.fst = psnsFrom S acc.length) (g : Bool) :
    (acc ++ [(S + (acc.length : Int), g)]).map Prod.fst =
      psnsFrom S (acc ++ [(S + (acc.length : Int), g)]).length := by
  simp [h, psnsFrom, range_succ]

theorem RodPass.accept (h : RodPass S B rx acc) {i : Nat} (hi : B + i = S + acc.length) {temp : RxPkt}
    (ht : rx.rxBm.get i = some temp) {env : Env} {g : Bool} (hacc : Accepted env B rx i temp g rx')
    (hw : noneWaiting rx i temp g = true) : RodPass S B (markReordered rx' i) (acc ++ [(B + i, g)]) ∧
      (markReordered rx' i).cackPsn = rx'.cackPsn ∧
      ∀ j, (markReordered rx' i).rxBm.get j = none ↔ rx.rxBm.get j = none := by
  obtain ⟨ack, hbm⟩ := hacc.bm
  have hrange := PtrBitmap.get_range rx.rxBm i (by rw [ht]; simp)
  have hget : rx'.rxBm.get i = some { temp with needsClear := g, ack } := by
    rw [hbm, PtrBitmap.get_set, if_pos ⟨rfl, hrange⟩]
  have hmark : markReordered rx' i =
      { rx' with rxBm := rx.rxBm.set i { temp with needsClear := g, ack, reordered := true } } := by
    simp only [markReordered, hget]
    rw [hbm, PtrBitmap.set_set]
  have hother : ∀ j : Int, j ≠ i → (markReordered rx' i).rxBm.get j = rx.rxBm.get j := by
    intro j hj
    rw [hmark]
    exact (PtrBitmap.get_set _ _ _ _).trans (if_neg fun hc => hj hc.1)
  have hself : (markReordered rx' i).rxBm.get i =
      some { temp with needsClear := g, ack, reordered := true } := by
    rw [hmark]
    exact (PtrBitmap.get_set _ _ _ _).trans (if_pos ⟨rfl, hrange⟩)
  have hlen : ((acc ++ [(B + (i : Int), g)]).length : Int) = acc.length + 1 := by simp
  refine ⟨⟨?_, ?_, ?_, ?_, ?_, ?_⟩, by rw [hmark], ?_⟩
  · rw [hmark]
    exact hacc.base.trans h.base
  · rw [hi]
    exact map_fst_snoc h.order g
  · have := h.next_ge
    omega
  · intro j t hj
    by_cases he : j = i
    · subst he
      rw [hself] at hj
      cases hj
      exact ⟨(h.entry _ _ ht).1, by simp only [true_iff]; omega⟩
    · rw [hother j he] at hj
      obtain ⟨hp, hr⟩ := h.entry j t hj
      exact ⟨hp, by rw [hr]; omega⟩
  · intro n h1 h2
    by_cases he : n - B = i
    · rw [he, hself]
      simp
    · rw [hother _ he]
      exact h.present n h1 (by omega)
  · refine ⟨cackLen rx'.rxBm rx'.maxClearPsn, (cackLen_at _ _).le, ?_, ?_⟩
    · rw [hmark]
      exact hacc.cack
    · have := cackLen_le_of_noneWaiting hw ack
      rw [← hbm, ← hacc.maxClear] at this
      omega
  · intro j
    by_cases he : j = i
    · subst he
      rw [hself, ht]
      simp
    · rw [hother j he]

theorem RodPass.refuse (h : RodPass S B rx acc) {i : Nat} (hi : B + i = S + acc.length) :
    RodPass S B { rx with rxBm := rx.rxBm.unset i } acc := by
  refine ⟨h.base, h.order, h.next_ge, ?_, ?_, h.cack⟩
  · intro j t hj
    rw [PtrBitmap.get_unset] at hj
    split_ifs at hj
    exact h.entry j t hj
  · intro n h1 h2
    rw [PtrBitmap.get_unset, if_neg (by omega)]
    exact h.present n h1 h2

/-- What holds of an upcall in the middle of a pass that starts with `acc` accepted
and ends with `n` as the next PSN: `l` are the pass's upcalls up to and including it. -/
def MomentOk (S B : Int) (abs : Psn → Int) (acc : List (Int × Bool)) (n : Int)
    (l : List (Psn × SesOutcome × Psn)) (e : Psn × SesOutcome × Psn) : Prop :=
  (∃ r : Nat, r ≤ 128 ∧ e.2.2 = pw (B + r - 1) ∧
    B + r ≤ S + ((acc ++ acceptedIn abs l).length : Int)) ∧
  ((∀ g nh rsp, e.2.1 ≠ .ok g nh rsp) → e.1 = pw n ∧ B ≤ n ∧ n ≤ B + 128)

theorem acceptedIn_refused {abs : Psn → Int} {l : List (Psn × SesOutcome × Psn)}
    (h : ∀ e ∈ l, ∀ g nh rsp, e.2.1 ≠ .ok g nh rsp) : acceptedIn abs l = [] := by
  rw [acceptedIn, filterMap_eq_nil_iff]
  intro e he
  have := h e he
  cases hans : e.2.1 <;> simp_all

theorem acceptedIn_cons_ok (abs : Psn → Int) (p c : Psn) (g : Bool) (nh : NextHdr)
    (rsp : List (BitVec 8)) (l : List (Psn × SesOutcome × Psn)) :
    acceptedIn abs ((p, .ok g nh rsp, c) :: l) = (abs p, g) :: acceptedIn abs l := rfl

/-- The loop from index `i`, all entries before it delivered: it ends at the first
PSN that is missing, and says so at every upcall on the way. -/
theorem rodDeliver_spec {abs : Psn → Int} (habs : ∀ i : Nat, i < 128 → abs (pw (B + i)) = B + i) (env : Env)
    (ids : PdcIds) (n : Nat) (rx : RxSide) (i : Nat) (acc : List (Int × Bool)) (h : RodPass S B rx acc)
    (hi : B + i ≤ S + acc.length) (hfuel : ∀ j : Int, i + n ≤ j → rx.rxBm.get j = none)
    (hclean : rodPassClean env ids n rx i = true) : let r := rodDeliver env ids n rx i
    let acc' := acc ++ acceptedIn abs (rxReqs r.2)
    RodPass S B r.1 acc' ∧ r.1.rxBm.get (S + acc'.length - B) = none ∧
      ∀ l e l', rxReqs r.2 = l ++ e :: l' → MomentOk S B abs acc (S + acc'.length) (l ++ [e]) e := by
  induction n generalizing rx i acc with
  | zero =>
    simp only [rodDeliver, rxReqs, acceptedIn, filterMap_nil, append_nil]
    exact ⟨h, hfuel _ (by omega), fun l e l' he => by simp at he⟩
  | succ n ih =>
    have hdone : rx.rxBm.get i = none → rx.rxBm.get (S + (acc.length : Int) - B) = none := by
      intro hg
      by_cases hlt : B + i < S + acc.length
      · exact absurd (by rw [show B + (i : Int) - B = i by omega]; exact hg) (h.present (B + i) (by omega) hlt)
      · rw [show S + (acc.length : Int) - B = i by omega]
        exact hg
    rw [rodDeliver]
    rw [rodPassClean] at hclean
    cases hg : rx.rxBm.get i with
    | none =>
      simp only [rxReqs, acceptedIn, filterMap_nil, append_nil]
      exact ⟨h, hdone hg, fun l e l' he => by simp at he⟩
    | some temp =>
      simp only [hg] at hclean
      obtain ⟨hpsn, hre⟩ := h.entry i temp hg
      by_cases hr : temp.reordered = true
      · simp only [hr, if_true] at hclean ⊢
        exact ih rx (i + 1) acc h (by have := hre.1 hr; omega)
          (fun j hj => hfuel j (by omega)) hclean
      simp only [hr, if_false, Bool.false_eq_true] at hclean ⊢
      have heq : B + i = S + acc.length := by
        have : ¬ B + (i : Int) < S + acc.length := fun hlt => hr (hre.2 hlt)
        omega
      have hlt := (PtrBitmap.get_range rx.rxBm i (by rw [hg]; simp)).2
      rcases upcallSesRxReq_cases env ids rx i temp B h.base with
        ⟨g, nh, rsp, rx1, outs, hses, hup, hacc, hreq⟩ | ⟨outs, hses, hup, href⟩
      · simp only [hup, hses, Bool.and_eq_true] at hclean ⊢
        obtain ⟨hpass, hcack, hnone⟩ := h.accept heq hg hacc hclean.1
        have hab : abs temp.pp.psn = B + i := by rw [hpsn]; exact habs i (by omega)
        have hlen : ((acc ++ [(B + (i : Int), g)]).length : Int) = acc.length + 1 := by simp
        have hrest := ih (markReordered rx1 i) (i + 1) (acc ++ [(B + (i : Int), g)]) hpass
          (by omega) (fun j hj => (hnone j).2 (hfuel j (by omega))) hclean.2
        rw [rxReqs_append, hreq, singleton_append, acceptedIn_cons_ok, hab,
          ← singleton_append, ← append_assoc]
        refine ⟨hrest.1, hrest.2.1, ?_⟩
        intro l e l' hl
        cases l with
        | nil =>
          simp only [nil_append, cons.injEq] at hl
          obtain ⟨he, -⟩ := hl
          subst he
          obtain ⟨r, hr1, hr2, hr3⟩ := hpass.cack
          refine ⟨⟨r, hr1, hcack ▸ hr2, ?_⟩, fun hno => absurd rfl (hno g nh rsp)⟩
          rw [nil_append, acceptedIn_cons_ok, hab]
          exact hr3
        | cons e0 l =>
          simp only [cons_append, cons.injEq] at hl
          obtain ⟨he, hl⟩ := hl
          subst he
          have := hrest.2.2 l e l' hl
          rw [MomentOk, append_assoc] at this
          rw [MomentOk, cons_append, acceptedIn_cons_ok, hab]
          exact this
      · simp only [hup]
        have hnil : acceptedIn abs (rxReqs outs) = [] := acceptedIn_refused fun e he => (href e he).2.1
        rw [hnil, append_nil]
        refine ⟨h.refuse heq, ?_, ?_⟩
        · rw [show S + (acc.length : Int) - B = i by omega, PtrBitmap.get_unset, if_pos rfl]
        · intro l e l' hl
          obtain ⟨he1, -, he3⟩ := href e (by rw [hl]; simp)
          have hsub : ∀ e' ∈ l ++ [e], e' ∈ rxReqs outs := by
            intro e' he'
            rw [hl, ← singleton_append, ← append_assoc]
            exact mem_append_left _ he'
          have hl' : acceptedIn abs (l ++ [e]) = [] :=
            acceptedIn_refused fun e' he' => (href e' (hsub e' he')).2.1
          refine ⟨?_, fun _ => ?_⟩
          · rw [hl', append_nil, he3]
            exact h.cack
          · exact ⟨by rw [he1, hpsn, heq], h.next_ge, h.next_le⟩

structure RodInv (S : Int) (h : Hist) : Prop where
  state : h.pdc.state = .established
  target : h.pdc.isInitiator = false
  cack : h.pdc.rx.cackPsn = pw h.cack
  cack_eq : h.cack = h.base - 1
  pass : RodPass S h.base h.pdc.rx h.accepted
  next : h.pdc.rx.rxBm.get (S + h.accepted.length - h.base) = none

theorem RodInv.init (slot : Pdc) (sec : Bool) (syn : ParsedPkt) (start : Int) :
    RodInv start (Hist.init slot sec syn start) := by
  have hget : ∀ i, (Hist.init slot sec syn start).pdc.rx.rxBm.get i = none := fun i => PtrBitmap.get_clear _ i
  refine ⟨rfl, rfl, pw_sub start 1, rfl, ⟨rfl, rfl, ?_, ?_, ?_, ?_⟩, hget _⟩
  · exact Int.le_of_eq (Int.add_zero start).symm
  · intro i t ht
    rw [hget] at ht
    cases ht
  · intro n h1 h2
    simp only [Hist.init, length_nil, Nat.cast_zero, Int.add_zero] at h1 h2
    omega
  · exact ⟨0, by omega, by rw [Nat.cast_zero, Int.add_zero]; exact pw_sub start 1, by simp [Hist.init]⟩

theorem RodPass.sackOnly (h : RodPass S B rx acc) (hs : SackOnly rx rx') : RodPass S B rx' acc :=
  ⟨hs.base.trans h.base, h.order, h.next_ge, hs.bm ▸ h.entry, hs.bm ▸ h.present, hs.cack ▸ h.cack⟩

theorem RodPass.place (h : RodPass S B rx acc) (pp : ParsedPkt)
    (hnew : rx.rxBm.get (psnOffset pp.psn rx.rxBmBasePsn) = none) : RodPass S B (placeReq rx pp) acc := by
  rw [placeReq]
  set i := psnOffset pp.psn rx.rxBmBasePsn with hidx
  have hpsn : pp.psn = pw (B + i) := by
    rw [hidx, h.base]
    exact (pw_add_psnOffset B pp.psn).symm
  have hlate : 0 ≤ i → S + acc.length ≤ B + i := by
    intro h0
    by_contra hlt
    exact h.present (B + i) (by omega) (by omega) (by rw [show B + i - B = i by omega]; exact hnew)
  refine ⟨h.base, h.order, h.next_ge, ?_, ?_, h.cack⟩
  · intro j t hj
    rw [PtrBitmap.get_set] at hj
    split_ifs at hj with hc
    · cases hj
      rw [hc.1]
      exact ⟨hpsn, by simp only [newRxPkt, Bool.false_eq_true, false_iff]; omega⟩
    · exact h.entry j t hj
  · intro n h1 h2
    rw [PtrBitmap.get_set]
    split_ifs
    · simp
    · exact h.present n h1 h2

/-- The end of a pass: the window moves behind `cack_psn`. -/
theorem RodPass.shift (h : RodPass S B rx acc) (hnext : rx.rxBm.get (S + acc.length - B) = none) :
    ∃ r : Nat, r ≤ 128 ∧ RodPass S (B + r) (shiftRxWindow rx) acc ∧
      (shiftRxWindow rx).cackPsn = pw (B + r - 1) ∧
      (shiftRxWindow rx).rxBm.get (S + acc.length - (B + r)) = none := by
  obtain ⟨r, hr1, hr2, hr3⟩ := h.cack
  have hshift := shiftRxWindow_eq rx B r h.base hr2 hr1
  refine ⟨r, hr1, ⟨?_, h.order, hr3, ?_, ?_, 0, by omega, ?_, ?_⟩, ?_, ?_⟩
  · rw [hshift]
  · intro j t hj
    have hj0 := (PtrBitmap.get_range _ _ (by rw [hj]; simp)).1
    rw [hshift] at hj
    rw [PtrBitmap.get_shiftRight _ _ _ hj0] at hj
    rw [show B + (r : Int) + j = B + (j + r) by omega]
    exact h.entry _ t hj
  · intro n h1 h2
    rw [hshift]
    rw [PtrBitmap.get_shiftRight _ _ _ (by omega), show n - (B + (r : Int)) + r = n - B by omega]
    exact h.present n (by omega) h2
  · rw [hshift, Nat.cast_zero, Int.add_zero]
    exact hr2
  · rw [Nat.cast_zero, Int.add_zero]
    exact hr3
  · rw [hshift]
    exact hr2
  · rw [hshift]
    rw [PtrBitmap.get_shiftRight _ _ _ (by omega),
      show S + (acc.length : Int) - (B + r) + r = S + acc.length - B by omega]
    exact hnext

/-- A step that moves the window by `r` and reaches the acceptances `new`. -/
theorem RodInv.advance (hi : RodInv S h) {new : List (Int × Bool)} {r : Nat} (hr : r ≤ 128)
    (hpass : RodPass S (h.base + r) rx' (h.accepted ++ new)) (hc : rx'.cackPsn = pw (h.base + r - 1))
    (hnext : rx'.rxBm.get (S + (h.accepted ++ new).length - (h.base + r)) = none) :
    RodInv S (h.advance { h.pdc with rx := rx' } new) := by
  have hb : (h.advance { h.pdc with rx := rx' } new).base = h.base + r := by
    simp only [Hist.advance]
    rw [hpass.base]
    exact h.abs_pw hi.pass.base (by simp only [InRange]; omega)
  have hck : (h.advance { h.pdc with rx := rx' } new).cack = h.base + r - 1 := by
    have hce := hi.cack_eq
    simp only [Hist.advance]
    rw [hc, hi.cack, psnOffset_pw (by simp only [InRange]; omega)]
    omega
  refine ⟨hi.state, hi.target, ?_, ?_, ?_, ?_⟩
  · rw [hck]
    exact hc
  · rw [hck, hb]
  · rw [hb]
    exact hpass
  · rw [hb]
    exact hnext

def Hist.momentsOk (h : Hist) (S : Int) (a : Arrival .rodReq) : Prop :=
  ∀ l e l', rxReqs (step a.env h.pdc (.rx a.frame)).2 = l ++ e :: l' →
    MomentOk S h.base h.abs h.accepted (S + (h.arrive a).accepted.length) (l ++ [e]) e

theorem RodInv.keep (hi : RodInv S h) (a : Arrival .rodReq) {outs : List Out}
    (hst : step a.env h.pdc (.rx a.frame) = ({ h.pdc with rx := rx' }, outs)) (hs : SackOnly h.pdc.rx rx')
    (ho : rxReqs outs = []) : RodInv S (h.arrive a) ∧ h.momentsOk S a := by
  constructor
  · have hnl : h.newlyAccepted outs = [] := by
      rw [Hist.newlyAccepted, ho]
      rfl
    rw [Hist.arrive, hst, hnl]
    refine hi.advance (r := 0) (by omega) ?_ ?_ ?_
    · rw [Nat.cast_zero, Int.add_zero, append_nil]
      exact hi.pass.sackOnly hs
    · rw [Nat.cast_zero, Int.add_zero, ← hi.cack_eq]
      exact hs.cack.trans hi.cack
    · rw [Nat.cast_zero, Int.add_zero, append_nil, hs.bm]
      exact hi.next
  · intro l e l' hl
    rw [hst, ho] at hl
    simp at hl

theorem RodInv.arrive (hi : RodInv S h) (a : Arrival .rodReq) (hclean : rodClean h a = true) :
    RodInv S (h.arrive a) ∧ h.momentsOk S a := by
  rcases step_request a (Or.inr rfl) h.pdc hi.state hi.target with ⟨outs, hst, ho⟩ | hst
  · exact hi.keep a hst (.refl _) ho
  rcases receiveReq_cases a.env h.pdc.ids false h.pdc.rx a.pp with
    ⟨rx', outs, hr, hs, ho⟩ | ⟨-, h0, h1, hnew, hr⟩
  · rw [hr] at hst
    exact hi.keep a hst hs ho
  have htype : (newRxPkt a.pp).pp.pdsType = .rodReq := a.isType
  rw [hr, processDataPkt, htype] at hst
  have hplace := hi.pass.place a.pp hnew
  have hge := hi.pass.next_ge
  rw [rodClean] at hclean
  generalize placeReq h.pdc.rx a.pp = rx0 at hst hplace hclean
  obtain ⟨hpass, hnext, hmom⟩ := rodDeliver_spec
    (fun i hi' => h.abs_pw hi.pass.base (by simp only [InRange]; omega)) a.env h.pdc.ids
    (rx0.rxBm.max + 1).toNat rx0 0 h.accepted hplace (by omega)
    (fun j hj => get_above_max _ j (by omega)) hclean
  generalize rodDeliver a.env h.pdc.ids (rx0.rxBm.max + 1).toNat rx0 0 = res at hst hpass hnext hmom
  obtain ⟨r, hr1, hpass', hc', hnext'⟩ := hpass.shift hnext
  refine ⟨?_, fun l e l' hl => ?_⟩
  · rw [Hist.arrive, hst]
    exact hi.advance hr1 hpass' hc' hnext'
  · rw [hst] at hl
    have hacc : (h.arrive a).accepted = h.accepted ++ acceptedIn h.abs (rxReqs res.2) := by
      rw [Hist.arrive, hst]
      rfl
    rw [hacc]
    exact hmom l e l' hl

theorem RodInv.run (hi : RodInv S h) (as : List (Arrival .rodReq)) (hclean : rodCleanRun h as = true) :
    RodInv S (h.run as) := by
  induction as generalizing h with
  | nil => exact hi
  | cons a as ih =>
    obtain ⟨ha, has⟩ := Bool.and_eq_true_iff.1 hclean
    exact ih (hi.arrive a ha).1 has

theorem rodCleanRun_append (h : Hist) (as bs : List (Arrival .rodReq)) :
    rodCleanRun h (as ++ bs) = (rodCleanRun h as && rodCleanRun (h.run as) bs) := by
  induction as generalizing h with
  | nil => rfl
  | cons a as ih =>
    rw [cons_append, rodCleanRun, ih, rodCleanRun, Bool.and_assoc]
    rfl

theorem mem_accepted {n : Int} (ho : acc.map Prod.fst = psnsFrom S acc.length) (h1 : S ≤ n) (h2 : n < S + acc.length) :
    n ∈ acc.map Prod.fst := by
  rw [ho]
  exact mem_map.2 ⟨(n - S).toNat, mem_range.2 (by omega), by omega⟩

theorem order_front {x y : List (Int × Bool)} (h : (x ++ y).map Prod.fst = psnsFrom S (x ++ y).length) :
    x.map Prod.fst = psnsFrom S x.length := by
  have ht := congrArg (List.take x.length) h
  rw [psnsFrom, ← map_take, ← map_take, take_left, take_range, length_append,
    min_eq_left (Nat.le_add_right _ _)] at ht
  exact ht

/-- ROD delivery at a target whose acceptances are all clean: SES accepts the PSNs
from Start_PSN on in order, `cack_psn` never covers one SES has not accepted, also
between two upcalls of one arrival, and a packet SES refused is new again. -/
theorem rod_target_delivery (slot : Pdc) (sec : Bool) (syn : ParsedPkt) (start : Int)
    (as : List (Arrival .rodReq)) (hclean : rodCleanRun (Hist.init slot sec syn start) as = true) :
    let h0 := Hist.init slot sec syn start
    let h := h0.run as
    h.accepted.map Prod.fst = psnsFrom start h.accepted.length ∧
    h.pdc.rx.rxBmBasePsn = pw h.base ∧ h.pdc.rx.cackPsn = pw h.cack ∧ h.base = h.cack + 1 ∧
    (∀ n, start ≤ n → n ≤ h.cack → n ∈ h.accepted.map Prod.fst) ∧
    ∀ pre a post, as = pre ++ a :: post →
      let g := h0.run pre
      let g' := g.arrive a
      ∀ l e l', rxReqs (step a.env g.pdc (.rx a.frame)).2 = l ++ e :: l' →
        (∀ n, start ≤ n → n ≤ g.abs e.2.2 →
          n ∈ (g.accepted ++ acceptedIn g.abs (l ++ [e])).map Prod.fst) ∧
        ((∀ x nh rsp, e.2.1 ≠ .ok x nh rsp) →
          g'.base ≤ g.abs e.1 ∧ g'.pdc.rx.rxBm.get (g.abs e.1 - g'.base) = none) := by
  intro h0 h
  have hi0 : RodInv start h0 := .init slot sec syn start
  have hi : RodInv start h := hi0.run as hclean
  have hce := hi.cack_eq
  have hge := hi.pass.next_ge
  refine ⟨hi.pass.order, hi.pass.base, hi.cack, by omega,
    fun n h1 h2 => mem_accepted hi.pass.order h1 (by omega), ?_⟩
  intro pre a post has g g' l e l' hl
  rw [has, rodCleanRun_append, Bool.and_eq_true, rodCleanRun, Bool.and_eq_true] at hclean
  obtain ⟨hpre, ha, -⟩ := hclean
  have hg : RodInv start g := hi0.run pre hpre
  obtain ⟨hg', hmom⟩ := hg.arrive a ha
  obtain ⟨⟨r, hr1, hr2, hr3⟩, href⟩ := hmom l e l' hl
  have hsplit : g'.accepted = g.accepted ++ acceptedIn g.abs (l ++ [e]) ++ acceptedIn g.abs l' := by
    show g.accepted ++ acceptedIn g.abs (rxReqs _) = _
    rw [hl, ← singleton_append, ← append_assoc, acceptedIn, filterMap_append, append_assoc]
    rfl
  refine ⟨fun n h1 h2 => ?_, fun hno => ?_⟩
  · have horder := hg'.pass.order
    rw [hsplit] at horder
    rw [hr2, g.abs_pw hg.pass.base (by simp only [InRange]; omega)] at h2
    exact mem_accepted (order_front horder) h1 (by omega)
  · obtain ⟨he, h1, h2⟩ := href hno
    rw [he, g.abs_pw hg.pass.base (by simp only [InRange]; omega)]
    exact ⟨hg'.pass.next_ge, hg'.next⟩

/-- SES refuses the PSN `x` and takes everything else, without guaranteed delivery. -/
def sesRefusing (x : Psn) : Psn → SesOutcome := fun p =>
  if p = x then .sesNack else .ok false .rsp []

/-- 65537 waits behind 65536; SES takes 65536, refuses 65537 and takes 65538. -/
def rodGapRun : List (Arrival .rodReq) :=
  [.data .rodReq (sesRefusing 0) 65537, .data .rodReq (sesRefusing 65537) 65536,
    .data .rodReq (sesRefusing 0) 65538]

def rodTarget : Hist :=
  Hist.init (freshSlot 2) false (Arrival.data .rodReq (sesRefusing 0) 65536).pp 65536

/-- The refused 65537 is behind the window, and its retransmission is not delivered. -/
theorem rod_target_gap :
    (rodTarget.run rodGapRun).accepted.map Prod.fst = [65536, 65538] ∧
    (rodTarget.run rodGapRun).base = 65539 ∧
    (rodTarget.run (rodGapRun ++ [.data .rodReq (sesRefusing 0) 65537])).accepted.map Prod.fst =
      [65536, 65538] := by
  decide +kernel

/-- A run with a packet out of order, a refusal and its retransmission that is clean. -/
def rodCleanExample : List (Arrival .rodReq) :=
  [.data .rodReq (sesRefusing 0) 65538, .data .rodReq (sesRefusing 65536) 65536,
    .data .rodReq (sesRefusing 0) 65536]

theorem rod_target_delivery_clean :
    rodCleanRun rodTarget rodCleanExample = true ∧
    (rodTarget.run rodCleanExample).accepted.map Prod.fst =
      psnsFrom 65536 (rodTarget.run rodCleanExample).accepted.length :=
  have hclean : rodCleanRun rodTarget rodCleanExample = true := by decide +kernel
  ⟨hclean, (rod_target_delivery _ _ _ _ rodCleanExample hclean).1⟩

end Uet.Pds
