import Uet.Pds.RxSteps

/-!
# Where the PSN registers of the receive side are

`RxCore` holds on both sides of a connection: the packet at index `i` of the window
at `B` carries the PSN `B + i`, and an ACK kept with it names that PSN. `RxAt` adds
what a target PDC maintains: the unbounded values `C`, `M` and `K` of `cack_psn`,
`max_rcvd_psn` and `sack_base_track` and how far apart they can be. Between two
packets `cack_psn` is the PSN before the window (`RxIdle`).
-/

namespace Uet.Pds

open Uet.Serial

/-! ## ACKs that decode -/

/-- The header names the packet with PSN `psn`: the difference to its `cack_psn`
fits the offset field, and the parser computes `psn` back. -/
structure AckHdr.Names (h : AckHdr) (psn : Psn) : Prop where
  decode : addOffset h.cackPsn h.ackPsnOffset = psn
  ge : -32768 ≤ psnOffset psn h.cackPsn
  lt : psnOffset psn h.cackPsn < 32768

def AcksName (os : List Out) : Prop :=
  ∀ a r f, Out.txAck a r f ∈ os → ∃ q h, f = ackFrame q h ∧ h.Names a

variable {C n : Int} {os : List Out} {B : Int} {rx rx' : RxSide} {i : Int} {t : RxPkt} {ids : PdcIds} {K M : Int}
  (env : Env)

theorem AckHdr.names_of {h : AckHdr} {psn : Psn} (hp : psn = pw n) (hc : h.cackPsn = pw C)
    (ho : h.ackPsnOffset = psn2cOffset h.cackPsn psn) (h1 : -32768 ≤ n - C) (h2 : n - C < 32768) : h.Names psn := by
  have hr : InRange n C := by
    simp only [InRange]
    omega
  have hd : psnOffset psn h.cackPsn = n - C := by rw [hp, hc, psnOffset_pw hr]
  refine ⟨?_, by omega, by omega⟩
  rw [ho, hc, hp]
  exact addOffset_psn2cOffset h1 h2

theorem AcksName.nil : AcksName [] := fun _ _ _ h => by cases h

theorem AcksName.append {a b : List Out} (ha : AcksName a) (hb : AcksName b) : AcksName (a ++ b) := by
  intro x r f h
  rcases List.mem_append.1 h with h | h
  · exact ha x r f h
  · exact hb x r f h

theorem AcksName.of_refusal (h : ∀ o ∈ os, o.refusal = true) : AcksName os := by
  intro a r f hm
  cases h _ hm

theorem AcksName.cons_rxReq {p : Psn} {ans : SesOutcome} {c : Psn} (h : AcksName os) :
    AcksName (.rxReq p ans c :: os) := by
  intro a r f hm
  rcases List.mem_cons.1 hm with hm | hm
  · cases hm
  · exact h a r f hm

theorem sendAck_names {psn : Psn} (r : Bool) (q : ParsedPkt) {h : AckHdr} (hn : h.Names psn) :
    AcksName (sendAck env psn r (ackFrame q h)) := by
  intro a r' f hm
  rw [sendAck] at hm
  split_ifs at hm
  · cases List.mem_singleton.1 hm
    exact ⟨q, h, rfl, hn⟩
  · cases hm

/-- The header built for a packet near `cack_psn` names it. -/
theorem buildAckPkt_names (ids : PdcIds) (rx : RxSide) (pp : ParsedPkt) (nh : NextHdr) (rc : Bool) (ses : SesHdr)
    (hp : pp.psn = pw n) (hc : rx.cackPsn = pw C) (h1 : -32768 ≤ n - C) (h2 : n - C < 32768) :
    (buildAckPkt env ids rx pp nh rc ses).2.Names pp.psn := by
  obtain ⟨hck, ho, -⟩ := buildAckPkt_hdr env ids rx pp nh rc ses
  exact AckHdr.names_of hp (hck.trans hc) (by rw [hck]; exact ho) h1 h2

/-! ## The window and its packets -/

/-- The window at `B`: each packet is at its index and its ACK names it. -/
structure RxCore (B : Int) (rx : RxSide) : Prop where
  base : rx.rxBmBasePsn = pw B
  entry : ∀ (i : Int) (t : RxPkt), rx.rxBm.get i = some t →
    t.pp.psn = pw (B + i) ∧ t.psn = t.pp.psn ∧ ∀ h, t.ack = some h → h.Names t.pp.psn

theorem RxCore.empty (hb : rx.rxBmBasePsn = pw B) (hg : ∀ i, rx.rxBm.get i = none) : RxCore B rx := by
  refine ⟨hb, fun i t ht => ?_⟩
  rw [hg] at ht
  cases ht

theorem RxCore.congr (h : RxCore B rx) (hb : rx'.rxBmBasePsn = rx.rxBmBasePsn) (hbm : rx'.rxBm = rx.rxBm) :
    RxCore B rx' :=
  ⟨hb.trans h.base, hbm ▸ h.entry⟩

theorem RxCore.sackOnly (h : RxCore B rx) (hs : SackOnly rx rx') : RxCore B rx' := h.congr hs.base hs.bm

theorem RxCore.set (h : RxCore B rx) (hp : t.pp.psn = pw (B + i)) (hq : t.psn = t.pp.psn)
    (ha : ∀ a, t.ack = some a → a.Names t.pp.psn) (hb : rx'.rxBmBasePsn = rx.rxBmBasePsn)
    (hbm : rx'.rxBm = rx.rxBm.set i t) : RxCore B rx' := by
  refine ⟨hb.trans h.base, fun j s hs => ?_⟩
  rw [hbm, PtrBitmap.get_set] at hs
  split_ifs at hs with hc
  · cases hs
    rw [hc.1]
    exact ⟨hp, hq, ha⟩
  · exact h.entry j s hs

theorem RxCore.unset (h : RxCore B rx) (i : Int) : RxCore B { rx with rxBm := rx.rxBm.unset i } := by
  refine ⟨h.base, fun j s hs => ?_⟩
  rw [PtrBitmap.get_unset] at hs
  split_ifs at hs
  exact h.entry j s hs

theorem psn_at (B : Int) (hb : rx.rxBmBasePsn = pw B) (x : Psn) : x = pw (B + psnOffset x rx.rxBmBasePsn) := by
  rw [hb]
  exact (pw_add_psnOffset B x).symm

section

variable (h : RxCore B rx)
include h

theorem RxCore.place (pp : ParsedPkt) : RxCore B (placeReq rx pp) :=
  h.set (t := newRxPkt pp) (psn_at B h.base pp.psn) rfl (fun a ha => by cases ha) rfl rfl

/-- Whatever `cack_psn` is, the shift moves the packets and the base alike. -/
theorem RxCore.shift : ∃ B', RxCore B' (shiftRxWindow rx) := by
  rw [shiftRxWindow]
  split_ifs with hc
  · exact ⟨B, h⟩
  generalize psnOffset (rx.cackPsn + 1) rx.rxBmBasePsn = s at hc
  refine ⟨B + s, ?_, fun j t ht => ?_⟩
  · rw [h.base]
    exact pw_add B s
  · have hj := (PtrBitmap.get_range _ _ (by rw [ht]; simp)).1
    rw [PtrBitmap.get_shiftRight _ _ _ hj] at ht
    rw [show B + s + j = B + (j + s.toNat) by omega]
    exact h.entry _ t ht

theorem RxCore.mark (i : Int) : RxCore B (markReordered rx i) := by
  rw [markReordered]
  cases hg : rx.rxBm.get i with
  | none => exact h
  | some t =>
    obtain ⟨h1, h2, h3⟩ := h.entry i t hg
    exact h.set (t := { t with reordered := true }) h1 h2 h3 rfl rfl

/-- An acceptance keeps the window, and its ACK is built from a fresh `cack_psn`. -/
theorem RxCore.accept (env : Env) (ids : PdcIds) (g : Bool) (nh : NextHdr) (rsp : List (BitVec 8))
    (ht : rx.rxBm.get i = some t) : RxCore B (acceptReq env ids rx i t g nh rsp).1 ∧
      AcksName (acceptReq env ids rx i t g nh rsp).2 := by
  obtain ⟨hp, hq, ha⟩ := h.entry i t ht
  obtain ⟨hi0, hi1⟩ := PtrBitmap.get_range rx.rxBm i (by rw [ht]; simp)
  have htake := takeAnswer_accepted env rx i { t with needsClear := g } B h.base
  have hbm := takeAnswer_bm env rx i { t with needsClear := g }
  have hr := (cackLen_at (takeAnswer env rx i { t with needsClear := g }).rxBm
    (takeAnswer env rx i { t with needsClear := g }).maxClearPsn).le
  have hn := buildAckPkt_names env ids (takeAnswer env rx i { t with needsClear := g }) t.pp nh g
    (.rsp rsp) hp htake.cack (by omega) (by omega)
  have hsack := buildAckPkt_sackOnly env ids (takeAnswer env rx i { t with needsClear := g }) t.pp
    nh g (.rsp rsp)
  rcases acceptReq_split env ids rx i t g nh rsp with he | he
  · rw [he]
    exact ⟨h.set (t := { t with needsClear := g }) hp hq ha htake.base hbm, .cons_rxReq .nil⟩
  rw [he]
  generalize buildAckPkt env ids (takeAnswer env rx i { t with needsClear := g }) t.pp nh g
    (.rsp rsp) = b at hn hsack
  refine ⟨h.set (t := { t with needsClear := g, ack := some b.2 }) hp hq ?_
    (hsack.base.trans htake.base) rfl, .cons_rxReq (sendAck_names env false t.pp hn)⟩
  intro x hx
  cases hx
  exact hn

theorem RxCore.loop {env : Env} {i k : Nat} (hl : RodLoop env ids i rx os k rx') :
    RxCore B rx' ∧ AcksName os := by
  induction hl with
  | refl => exact ⟨h, .nil⟩
  | skip t _ _ _ ih => exact ih h
  | deliver t g nh rsp hg _ _ _ ih =>
    obtain ⟨h1, h2⟩ := h.accept env ids g nh rsp hg
    obtain ⟨h3, h4⟩ := ih (h1.mark _)
    exact ⟨h3, h2.append h4⟩
  | drop t os _ _ hos => exact ⟨h.unset _, .of_refusal hos⟩

end

/-! ## The registers of a target -/

/-- The PSN registers of a target's receive side: how far they are apart, and that a
packet SES has answered is not after `max_rcvd_psn`. -/
structure RxAt (B C M K : Int) (rx : RxSide) : Prop where
  core : RxCore B rx
  cack : rx.cackPsn = pw C
  rcvd : rx.maxRcvdPsn = pw M
  sack : rx.sackBaseTrack = pw K
  cack_ge : B - 1 ≤ C
  cack_le : C ≤ B + 127
  rcvd_ge : C - 128 ≤ M
  rcvd_le : M ≤ B + 127
  sack_ge : M - 128 ≤ K
  sack_le : K ≤ B + 127
  held : ∀ (i : Int) (t : RxPkt), rx.rxBm.get i = some t →
    t.reordered = true ∨ t.needsClear = true → B + i ≤ M

/-- The packet right after `cack_psn`, if there is one, has been answered. -/
def RxStops (B C M : Int) (rx : RxSide) : Prop :=
  ∀ t, rx.rxBm.get (C + 1 - B) = some t → C + 1 ≤ M

structure RxIdle (B M K : Int) (rx : RxSide) : Prop where
  at_ : RxAt B (B - 1) M K rx
  stops : RxStops B (B - 1) M rx

/-- `uet_pds_update_sack_base` after an acceptance. -/
theorem updateSackBase_accept (psn : Psn) (hc : rx.cackPsn = pw C) (hk : rx.sackBaseTrack = pw K) (hp : psn = pw n)
    (h1 : InRange C K) (h2 : InRange n C) (h3 : InRange K n) :
    ∃ K', (updateSackBase rx psn false).sackBaseTrack = pw K' ∧ C ≤ K' ∧ K' ≤ max C (max K n) := by
  rw [updateSackBase, if_neg (by decide), hc, hk, hp, psnAfter_pw h1, psnAfter_pw h2, psnAfter_pw h3]
  by_cases ha : K < C
  · rw [if_pos (by simpa using ha)]
    exact ⟨C, rfl, Int.le_refl C, Int.le_max_left _ _⟩
  rw [if_neg (by simpa using ha)]
  by_cases hb : C < n ∧ n < K
  · rw [if_pos (by simpa using hb)]
    exact ⟨n, rfl, by omega, by omega⟩
  · rw [if_neg (by simpa using hb)]
    exact ⟨K, hk, by omega, by omega⟩

/-- `uet_pds_update_sack_base` when an ACK is built. -/
theorem updateSackBase_trigger (psn : Psn) (hm : rx.maxRcvdPsn = pw M) (hk : rx.sackBaseTrack = pw K)
    (h1 : InRange M (K + 63)) : ∃ K', (updateSackBase rx psn true).sackBaseTrack = pw K' ∧ K ≤ K' ∧ K' ≤ max K M := by
  have h63 : rx.sackBaseTrack + 63 = pw (K + 63) := by rw [hk]; exact pw_add K 63
  have h64 : rx.sackBaseTrack + 64 = pw (K + 64) := by rw [hk]; exact pw_add K 64
  rw [updateSackBase, if_pos rfl, h63, h64, hm, psnAfter_pw h1]
  by_cases ha : K + 63 < M
  · rw [if_pos (by simpa using ha)]
    exact ⟨K + 64, rfl, by omega, by omega⟩
  · rw [if_neg (by simpa using ha)]
    exact ⟨K, hk, Int.le_refl K, Int.le_max_left _ _⟩

theorem buildAckPkt_sackBase (ids : PdcIds) (pp : ParsedPkt) (nh : NextHdr) (rc : Bool) (ses : SesHdr)
    (hm : rx.maxRcvdPsn = pw M) (hk : rx.sackBaseTrack = pw K) (h1 : InRange M (K + 63)) :
    ∃ K', (buildAckPkt env ids rx pp nh rc ses).1.sackBaseTrack = pw K' ∧ K ≤ K' ∧ K' ≤ max K M := by
  rw [buildAckPkt]
  split_ifs
  · rw [buildAckCcExt]
    split_ifs
    · exact ⟨K, hk, Int.le_refl K, Int.le_max_left _ _⟩
    · exact updateSackBase_trigger pp.psn hm hk h1
  · exact ⟨K, hk, Int.le_refl K, Int.le_max_left _ _⟩

theorem RxAt.sackOnly {K' : Int} (h : RxAt B C M K rx) (hs : SackOnly rx rx') (hk : rx'.sackBaseTrack = pw K')
    (h1 : K ≤ K') (h2 : K' ≤ max K M) : RxAt B C M K' rx' := by
  have := h.sack_ge
  have := h.sack_le
  have := h.rcvd_le
  exact ⟨h.core.sackOnly hs, hs.cack.trans h.cack, hs.maxRcvd.trans h.rcvd, hk, h.cack_ge, h.cack_le,
    h.rcvd_ge, h.rcvd_le, by omega, by omega, hs.bm ▸ h.held⟩

/-- Building an ACK moves `sack_base_track` at most. -/
theorem RxAt.build (h : RxAt B C M K rx) (env : Env) (ids : PdcIds) (pp : ParsedPkt) (nh : NextHdr) (rc : Bool)
    (ses : SesHdr) : ∃ K', RxAt B C M K' (buildAckPkt env ids rx pp nh rc ses).1 := by
  have h1 := h.sack_ge
  have h2 := h.sack_le
  have h4 := h.rcvd_ge
  have h5 := h.cack_ge
  obtain ⟨K', hk, ha, hb⟩ := buildAckPkt_sackBase env ids pp nh rc ses h.rcvd h.sack
    (by simp only [InRange]; omega)
  exact ⟨K', h.sackOnly (buildAckPkt_sackOnly env ids rx pp nh rc ses) hk ha hb⟩

theorem RxStops.congr (h : RxStops B C M rx) (hbm : rx'.rxBm = rx.rxBm) :
    RxStops B C M rx' := fun t ht => h t (hbm ▸ ht)

theorem RxAt.place (h : RxAt B C M K rx) (pp : ParsedPkt) : RxAt B C M K (placeReq rx pp) := by
  refine ⟨h.core.place pp, h.cack, h.rcvd, h.sack, h.cack_ge, h.cack_le, h.rcvd_ge, h.rcvd_le,
    h.sack_ge, h.sack_le, fun i t ht hor => ?_⟩
  simp only [placeReq] at ht
  rw [PtrBitmap.get_set] at ht
  split_ifs at ht
  · cases ht
    rcases hor with hor | hor <;> cases hor
  · exact h.held i t ht hor

theorem RxAt.unset (h : RxAt B C M K rx) (i : Int) : RxAt B C M K { rx with rxBm := rx.rxBm.unset i } := by
  refine ⟨h.core.unset i, h.cack, h.rcvd, h.sack, h.cack_ge, h.cack_le, h.rcvd_ge, h.rcvd_le,
    h.sack_ge, h.sack_le, fun j t ht hor => ?_⟩
  rw [PtrBitmap.get_unset] at ht
  split_ifs at ht
  exact h.held j t ht hor

theorem RxStops.unset (h : RxStops B C M rx) (i : Int) : RxStops B C M { rx with rxBm := rx.rxBm.unset i } := by
  intro t ht
  rw [PtrBitmap.get_unset] at ht
  split_ifs at ht
  exact h t ht

/-- The window moves behind `cack_psn`. -/
theorem RxAt.shift (h : RxAt B C M K rx) (hs : RxStops B C M rx) : RxIdle (C + 1) M K (shiftRxWindow rx) := by
  have h1 := h.cack_ge
  have h2 := h.cack_le
  have h3 := h.rcvd_ge
  have h4 := h.rcvd_le
  have h5 := h.sack_ge
  have h6 := h.sack_le
  obtain ⟨r, hr⟩ : ∃ r : Nat, C + 1 = B + r := ⟨(C + 1 - B).toNat, by omega⟩
  have heq := shiftRxWindow_eq rx B r h.core.base
    (by rw [h.cack]; congr 1; omega) (by omega)
  have hget : ∀ j, 0 ≤ j → (shiftRxWindow rx).rxBm.get j = rx.rxBm.get (j + r) := by
    intro j hj
    rw [heq]
    exact PtrBitmap.get_shiftRight _ _ _ hj
  have hpos : ∀ (j : Int) (t : RxPkt), (shiftRxWindow rx).rxBm.get j = some t →
      rx.rxBm.get (j + r) = some t := by
    intro j t ht
    rw [← hget j (PtrBitmap.get_range _ _ (by rw [ht]; simp)).1]
    exact ht
  refine ⟨⟨⟨?_, ?_⟩, ?_, ?_, ?_, by omega, by omega, by omega, by omega, h5, by omega, ?_⟩, ?_⟩
  · rw [heq, hr]
  · intro j t ht
    rw [hr, show B + (r : Int) + j = B + (j + r) by omega]
    exact h.core.entry _ t (hpos j t ht)
  · rw [heq, show C + 1 - 1 = C by omega]
    exact h.cack
  · rw [heq]
    exact h.rcvd
  · rw [heq]
    exact h.sack
  · intro j t ht hor
    have := h.held _ t (hpos j t ht) hor
    omega
  · intro t ht
    rw [show C + 1 - 1 + 1 - (C + 1) = (0 : Int) by omega] at ht
    have := hpos 0 t ht
    rw [show (0 : Int) + r = C + 1 - B by omega] at this
    have := hs t this
    omega

theorem RxAt.stops_cackLen (h : RxAt B C M K rx) (mc : Psn) : RxStops B (B + cackLen rx.rxBm mc - 1) M rx := by
  intro t ht
  have hst := (cackLen_at rx.rxBm mc).stops
  rw [show B + (cackLen rx.rxBm mc : Int) - 1 + 1 - B = cackLen rx.rxBm mc by omega] at ht
  rw [ht] at hst
  simp only [cackPasses, Bool.not_eq_false', Bool.and_eq_true] at hst
  have := h.held _ t ht (Or.inr hst.1)
  omega

theorem RxIdle.clear (h : RxIdle B M K rx) (c : Psn) :
    ∃ C, RxAt B C M K (updateCack rx c) ∧ RxStops B C M (updateCack rx c) := by
  have heq := updateCack_eq rx B h.at_.core.base c
  have hle := (cackLen_at rx.rxBm (updatePsn rx.maxClearPsn c)).le
  have hstop := h.at_.stops_cackLen (updatePsn rx.maxClearPsn c)
  have h3 := h.at_.rcvd_ge
  -- `cack_psn` can only pass the first packet, and that one has been answered
  have hm : 0 < cackLen rx.rxBm (updatePsn rx.maxClearPsn c) → B ≤ M := by
    intro hpos
    have hp := (cackLen_at rx.rxBm (updatePsn rx.maxClearPsn c)).passes 0 hpos
    cases hg : rx.rxBm.get ((0 : Nat) : Int) with
    | none => rw [hg] at hp; cases hp
    | some t =>
      have := h.stops t (by rw [show B - 1 + 1 - B = ((0 : Nat) : Int) by omega]; exact hg)
      omega
  refine ⟨B + cackLen rx.rxBm (updatePsn rx.maxClearPsn c) - 1, ?_, ?_⟩
  · rw [heq]
    exact ⟨h.at_.core.congr rfl rfl, rfl, h.at_.rcvd, h.at_.sack, by omega, by omega, by omega,
      h.at_.rcvd_le, h.at_.sack_ge, h.at_.sack_le, h.at_.held⟩
  · rw [heq]
    exact hstop.congr rfl

/-! ## Acceptance and delivery -/

theorem takeAnswer_sackBase {r : Int} (hk : rx.sackBaseTrack = pw K) (hp : t.pp.psn = pw n)
    (hc : (takeAnswer env rx i t).cackPsn = pw (B + r - 1)) (h1 : 0 ≤ r) (h2 : r ≤ 128) (h3 : B ≤ n)
    (h4 : n ≤ B + 127) (h5 : B - 400 ≤ K) (h6 : K ≤ B + 127) :
    ∃ K', (takeAnswer env rx i t).sackBaseTrack = pw K' ∧ B - 1 ≤ K' ∧ K' ≤ B + 127 := by
  have hs := updateSackBase_sackOnly (updateCack (noteAccepted env rx i t) t.pp.clearPsn) t.pp.psn
    false
  obtain ⟨K', h, ha, hb'⟩ := updateSackBase_accept (C := B + r - 1) (K := K) (n := n)
    t.pp.psn (hs.cack.symm.trans hc) hk hp (by simp only [InRange]; omega)
    (by simp only [InRange]; omega) (by simp only [InRange]; omega)
  exact ⟨K', h, by omega, by omega⟩

/-- SES accepts the packet at index `i`. -/
theorem RxAt.accept (h : RxAt B C M K rx) (env : Env) (ids : PdcIds) (g : Bool) (nh : NextHdr) (rsp : List (BitVec 8))
    (ht : rx.rxBm.get i = some t) : ∃ C' M' K', RxAt B C' M' K' (acceptReq env ids rx i t g nh rsp).1 ∧
      RxStops B C' M' (acceptReq env ids rx i t g nh rsp).1 ∧ M ≤ M' ∧ B + i ≤ M' := by
  have h3 := h.rcvd_ge
  have h4 := h.rcvd_le
  have h5 := h.sack_ge
  have h6 := h.sack_le
  have h7 := h.cack_ge
  obtain ⟨hp, -, -⟩ := h.core.entry i t ht
  obtain ⟨hi0, hi1⟩ := PtrBitmap.get_range rx.rxBm i (by rw [ht]; simp)
  have hcore := (h.core.accept env ids g nh rsp ht).1
  have hacc := acceptReq_accepted env ids rx i t g nh rsp B h.core.base
  have htake := takeAnswer_accepted env rx i { t with needsClear := g } B h.core.base
  have hr := (cackLen_at (takeAnswer env rx i { t with needsClear := g }).rxBm
    (takeAnswer env rx i { t with needsClear := g }).maxClearPsn).le
  have hrcvd : updatePsn rx.maxRcvdPsn t.pp.psn = pw (max M (B + i)) := by
    rw [h.rcvd, hp]
    exact updatePsn_pw (by simp only [InRange]; omega)
  obtain ⟨K1, hk1, hk2, hk3⟩ := takeAnswer_sackBase (t := { t with needsClear := g }) env
    h.sack hp htake.cack (by omega) (by omega) (by omega) (by omega) (by omega) h6
  -- an ACK built for it moves `sack_base_track` on
  have hsack : ∃ K', (acceptReq env ids rx i t g nh rsp).1.sackBaseTrack = pw K' ∧ B - 1 ≤ K' ∧
      K' ≤ B + 127 := by
    rcases acceptReq_split env ids rx i t g nh rsp with he | he
    · rw [he]
      exact ⟨K1, hk1, hk2, hk3⟩
    rw [he]
    obtain ⟨K2, ha, hb, hc⟩ := buildAckPkt_sackBase env ids t.pp nh g (.rsp rsp)
      (htake.maxRcvd.trans hrcvd) hk1 (by simp only [InRange]; omega)
    exact ⟨K2, ha, by omega, by omega⟩
  obtain ⟨K', hk, hka, hkb⟩ := hsack
  obtain ⟨a, hbm⟩ := hacc.bm
  have hle := (cackLen_at (acceptReq env ids rx i t g nh rsp).1.rxBm
    (acceptReq env ids rx i t g nh rsp).1.maxClearPsn).le
  have hat : RxAt B (B + cackLen (acceptReq env ids rx i t g nh rsp).1.rxBm
      (acceptReq env ids rx i t g nh rsp).1.maxClearPsn - 1) (max M (B + i)) K'
      (acceptReq env ids rx i t g nh rsp).1 := by
    refine ⟨hcore, hacc.cack, hacc.maxRcvd.trans hrcvd, hk, by omega, by omega, by omega, by omega,
      by omega, hkb, fun j s hs hor => ?_⟩
    rw [hbm, PtrBitmap.get_set] at hs
    split_ifs at hs with hc
    · omega
    · have := h.held j s hs hor
      omega
  exact ⟨_, _, K', hat, hat.stops_cackLen _, Int.le_max_left _ _, Int.le_max_right _ _⟩

theorem RxAt.mark (h : RxAt B C M K rx) (i : Int) (hle : B + i ≤ M) : RxAt B C M K (markReordered rx i) := by
  have hcore := h.core.mark i
  rw [markReordered] at hcore ⊢
  cases hg : rx.rxBm.get i with
  | none => exact h
  | some t =>
    rw [hg] at hcore
    refine ⟨hcore, h.cack, h.rcvd, h.sack, h.cack_ge, h.cack_le, h.rcvd_ge, h.rcvd_le, h.sack_ge,
      h.sack_le, fun j s hs hor => ?_⟩
    rw [PtrBitmap.get_set] at hs
    split_ifs at hs with hc
    · rw [hc.1]
      exact hle
    · exact h.held j s hs hor

theorem RxStops.mark (h : RxStops B C M rx) (i : Int) : RxStops B C M (markReordered rx i) := by
  rw [markReordered]
  cases hg : rx.rxBm.get i with
  | none => exact h
  | some t =>
    intro s hs
    rw [PtrBitmap.get_set] at hs
    split_ifs at hs with hc
    · exact h t (by rw [hc.1]; exact hg)
    · exact h s hs

/-- The delivery loop. Before its first iteration `cack_psn` is the PSN before the
window; after it, `cack_psn` stops at an answered packet or at a gap. -/
theorem RxAt.loop {env : Env} {i k : Nat} (hl : RodLoop env ids i rx os k rx') (h : RxAt B C M K rx)
    (h0 : i = 0 → C = B - 1) (hs : 0 < i → RxStops B C M rx) :
    ∃ C' M' K', RxAt B C' M' K' rx' ∧ (k = 0 → C' = B - 1) ∧ (0 < k → RxStops B C' M' rx') ∧ M ≤ M' := by
  induction hl generalizing C M K with
  | refl => exact ⟨C, M, K, h, h0, hs, Int.le_refl M⟩
  | skip t hg hr _ ih =>
    rename_i i rx _ _ _ _
    refine ih h (fun hc => absurd hc (Nat.succ_ne_zero i)) fun _ => ?_
    rcases Nat.eq_zero_or_pos i with hz | hpos
    · intro s hs'
      rw [h0 hz, show B - 1 + 1 - B = (i : Int) by omega, hg] at hs'
      have := h.held i t hg (Or.inl hr)
      omega
    · exact hs hpos
  | deliver t g nh rsp hg _ _ _ ih =>
    obtain ⟨C1, M1, K1, hat, hst, hm, hi⟩ := h.accept env ids g nh rsp hg
    obtain ⟨C2, M2, K2, hat2, ha, hb, hm2⟩ := ih (hat.mark _ hi)
      (fun hc => absurd hc (Nat.succ_ne_zero _)) fun _ => hst.mark _
    exact ⟨C2, M2, K2, hat2, ha, hb, Int.le_trans hm hm2⟩
  | drop => exact ⟨C, M, K, h.unset .., h0, fun hpos => (hs hpos).unset _, Int.le_refl M⟩

theorem answers_near (h : RxCore B rx) {pp q : ParsedPkt} (hq : Answers rx pp q) :
    ∃ n, q.psn = pw n ∧ B - 128 ≤ n ∧ n ≤ B + 127 := by
  have hat := psn_at B h.base pp.psn
  rcases hq with ⟨-, rfl, hin | ⟨t, ht⟩⟩ | ⟨-, i, t, ht, rfl⟩
  · have := (psnInPriorMpr_iff _ _).1 hin
    exact ⟨_, hat, by omega, by omega⟩
  · obtain ⟨h0, h1⟩ := PtrBitmap.get_range _ _ (by rw [ht]; simp)
    exact ⟨_, hat, by omega, by omega⟩
  · obtain ⟨h0, h1⟩ := PtrBitmap.get_range _ _ (by rw [ht]; simp)
    exact ⟨_, (h.entry i t ht).1, by omega, by omega⟩

theorem RxIdle.step {env : Env} {pp : ParsedPkt} (h : RxIdle B M K rx) (hs : RxStep env ids false pp false rx os rx') :
    ∃ B' M' K', RxIdle B' M' K' rx' ∧ AcksName os ∧ B ≤ B' ∧ B' ≤ B + 128 ∧ M ≤ M' := by
  have hsame : ∀ {K'}, RxAt B (B - 1) M K' rx' → rx'.rxBm = rx.rxBm → AcksName os →
      ∃ B' M' K', RxIdle B' M' K' rx' ∧ AcksName os ∧ B ≤ B' ∧ B' ≤ B + 128 ∧ M ≤ M' :=
    fun hat hbm hn => ⟨B, M, _, ⟨hat, h.stops.congr hbm⟩, hn, by omega, by omega, by omega⟩
  cases hs with
  | refuse os hos => exact hsame h.at_ rfl (.of_refusal hos)
  | answer q hq =>
    obtain ⟨K', hat⟩ := h.at_.build env ids q .rsp false (.defRsp q.sesMsgId)
    obtain ⟨n, hn, hlo, hhi⟩ := answers_near h.at_.core hq
    have hnames := buildAckPkt_names env ids rx q .rsp false (.defRsp q.sesMsgId) hn h.at_.cack
      (by omega) (by omega)
    exact hsame hat (txDefRspAckPkt_sackOnly env ids rx q).bm (sendAck_names env false q hnames)
  | resend i t hd hg ha =>
    exact hsame h.at_ rfl (sendAck_names env true t.pp ((h.at_.core.entry i t hg).2.2 hd ha))
  | accept ht h0 h1 hnew g nh rsp hses =>
    have hget : (placeReq rx pp).rxBm.get (psnOffset pp.psn rx.rxBmBasePsn) = some (newRxPkt pp) := by
      rw [placeReq]
      exact (PtrBitmap.get_set _ _ _ _).trans (if_pos ⟨rfl, h0, h1⟩)
    obtain ⟨C', M', K', hat, hst, hm, -⟩ := (h.at_.place pp).accept env ids g nh rsp hget
    have hn := ((h.at_.core.place pp).accept env ids g nh rsp hget).2
    have := hat.cack_ge
    have := hat.cack_le
    exact ⟨C' + 1, M', K', hat.shift hst, hn, by omega, by omega, hm⟩
  | deliver ht h0 h1 hnew os k rx1 hl hend =>
    obtain ⟨C', M', K', hat, ha, hb, hm⟩ := RxAt.loop hl (h.at_.place pp) (fun _ => rfl)
      fun hc => absurd hc (lt_irrefl 0)
    have hst : RxStops B C' M' rx1 := by
      rcases Nat.eq_zero_or_pos k with hz | hpos
      · intro t ht'
        rw [ha hz, show B - 1 + 1 - B = (k : Int) by omega, hend] at ht'
        cases ht'
      · exact hb hpos
    have := hat.cack_ge
    have := hat.cack_le
    exact ⟨C' + 1, M', K', hat.shift hst, ((h.at_.core.place pp).loop hl).2, by omega, by omega, hm⟩
  | clear ht =>
    obtain ⟨C, hat, hst⟩ := h.clear pp.ctrlPayload
    have := hat.cack_ge
    have := hat.cack_le
    exact ⟨C + 1, M, K, hat.shift hst, .nil, by omega, by omega, by omega⟩
  | closeOld ht hi hin => cases hi
  | closeReq ht hi h0 h1 hnew r hr => cases hi

end Uet.Pds
