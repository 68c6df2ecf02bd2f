import Uet.Spsc

/-!
# The rings of a segment

The client library and a worker share six rings for each channel: TX requests, TX completions,
received packets, released packets, control requests and control completions. All of them are
`uet_vpp_svm_spsc_ring_t`: two free-running counters of 32 bits, and a slot for a counter by a
mask where the depth is a power of two, else by the remainder.

Each side loads the other's counter, works on a batch and stores its own.

A mask keeps counters apart across the wrap of the counters. A remainder does not: the slot of
counter zero need not be the one after the slot of the last counter.
-/

namespace Uet.Vpp

open Guarded Spsc Function

/-- The mask of a ring as `uet_svm_create` sets it: zero where the depth is no power of two. -/
def ringMask (depth : Nat) : Nat := if depth &&& (depth - 1) ≠ 0 then 0 else depth - 1

/-- `uet_spsc_index`. -/
def spscIndex (depth : Nat) (counter : BitVec 32) : Nat :=
  if ringMask depth ≠ 0 then counter.toNat &&& ringMask depth else counter.toNat % depth

theorem testBit_of_between {x k : Nat} (hlo : 2 ^ k ≤ x) (hhi : x < 2 ^ (k + 1)) : x.testBit k = true := by
  have hdiv : x / 2 ^ k = 1 := by
    rw [Nat.div_eq_iff (Nat.two_pow_pos k)]
    rw [Nat.pow_succ] at hhi
    omega
  rw [Nat.testBit_eq_decide_div_mod_eq, hdiv]
  rfl

variable {depth : Nat} (log : List Nat)

theorem pow_of_ringMask (hpos : 0 < depth) (h : ringMask depth ≠ 0) :
    ∃ k, depth = 2 ^ k ∧ ringMask depth = 2 ^ k - 1 := by
  unfold ringMask at h ⊢
  split at h
  · exact absurd rfl h
  rename_i hand
  rw [not_not] at hand
  have hlo := Nat.log2_self_le (Nat.ne_of_gt hpos)
  have hhi := Nat.lt_log2_self (n := depth)
  have hpow : depth = 2 ^ depth.log2 := by
    by_contra hne
    -- the top bit is then set in the number before, too
    have htop := testBit_of_between hlo hhi
    have hprev := testBit_of_between (x := depth - 1) (k := depth.log2) (by omega) (by omega)
    have hbit : (depth &&& (depth - 1)).testBit depth.log2 = true := by
      rw [Nat.testBit_and, htop, hprev]
      rfl
    rw [hand, Nat.zero_testBit] at hbit
    cases hbit
  refine ⟨depth.log2, hpow, ?_⟩
  rw [if_neg (not_not.2 hand), ← hpow]

theorem spscIndex_eq_mod (hpos : 0 < depth) (c : BitVec 32) : spscIndex depth c = c.toNat % depth := by
  unfold spscIndex
  split
  · rename_i h
    obtain ⟨k, hk, hmask⟩ := pow_of_ringMask hpos h
    rw [hmask, Nat.and_two_pow_sub_one_eq_mod, ← hk]
  · rfl

/-- The slots of `m` counters in a row and of the one after them, across the wrap: the first
slots after the wrap are used again where the turn leaves a remainder. -/
theorem mod_ne_across_wrap {C i m T : Nat} (hT : depth ≤ T) (hm : m < depth) (hi : i < m) (hC : C + i < T)
    (hwrap : T ≤ C + m) (h : T % depth ≤ C + m - T ∨ m < T % depth) : (C + i) % depth ≠ (C + m - T) % depth := by
  intro heq
  have hsum : (C + m - T) + (T - (m - i)) = C + i := by omega
  have hdvd : depth ∣ T - (m - i) := by
    have hmod : (C + m - T) + 0 ≡ (C + m - T) + (T - (m - i)) [MOD depth] := by
      rw [hsum, add_zero]
      exact heq.symm
    exact (Nat.modEq_zero_iff_dvd).1 (Nat.ModEq.add_left_cancel' _ hmod).symm
  obtain ⟨q, hq⟩ := hdvd
  -- the distance is the remainder of the turn
  have hrem : m - i = T % depth := by
    have hsplit : T = (m - i) + depth * q := by omega
    rw [hsplit, Nat.add_mul_mod_self_left, Nat.mod_eq_of_lt (by omega)]
  omega

/-- The counters go round at `2 ^ 32`, so that up to `2 ^ 32 % depth` slots come again too early.
The producer is past them, or has fewer entries in use. For a power of two there are none. -/
def KeepsApart {α : Type} (depth : Nat) (r : Ring α 32) : Ev α → Prop
  | .write _ => 2 ^ 32 % depth ≤ r.next.toNat ∨ r.inUse < 2 ^ 32 % depth
  | _ => True

theorem free_of_keepsApart {α : Type} {r : Ring α 32} (hpos : 0 < depth) (hturn : depth ≤ 2 ^ 32)
    (huse : r.inUse < depth) (h : 2 ^ 32 % depth ≤ r.next.toNat ∨ r.inUse < 2 ^ 32 % depth) :
    r.Free (spscIndex depth) r.next := by
  intro i hi
  have hC := r.consumer.isLt
  have hnext : r.next.toNat = (r.consumer.toNat + r.inUse) % 2 ^ 32 := by
    rw [r.next_eq_add, BitVec.toNat_add, BitVec.toNat_ofNat, Nat.add_mod_mod]
  have hat : (r.consumer + BitVec.ofNat 32 i).toNat = (r.consumer.toNat + i) % 2 ^ 32 := by
    rw [BitVec.toNat_add, BitVec.toNat_ofNat, Nat.add_mod_mod]
  rw [spscIndex_eq_mod hpos, spscIndex_eq_mod hpos, hnext, hat]
  rw [hnext] at h
  generalize r.consumer.toNat = C at *
  generalize r.inUse = m at *
  -- without a wrap between them two counters less than a depth apart have slots of their own
  have hsame : ∀ a b, a < b → b - a < depth → a % depth ≠ b % depth := fun a b hab hlt heq => by
    have hmod : a + 0 ≡ a + (b - a) [MOD depth] := by
      rw [Nat.add_sub_cancel' hab.le, add_zero]
      exact heq
    have hdvd := (Nat.modEq_zero_iff_dvd).1 (Nat.ModEq.add_left_cancel' _ hmod).symm
    have hle := Nat.le_of_dvd (by omega) hdvd
    omega
  rcases lt_or_ge (C + m) (2 ^ 32) with hno | hwrap
  · rw [Nat.mod_eq_of_lt hno, Nat.mod_eq_of_lt (show C + i < 2 ^ 32 by omega)]
    exact hsame _ _ (by omega) (by omega)
  have hm : (C + m) % 2 ^ 32 = C + m - 2 ^ 32 := by
    rw [Nat.mod_eq_sub_mod hwrap, Nat.mod_eq_of_lt (by omega)]
  rw [hm] at h ⊢
  rcases lt_or_ge (C + i) (2 ^ 32) with hlt | hge
  · rw [Nat.mod_eq_of_lt hlt]
    exact mod_ne_across_wrap hturn huse hi hlt hwrap h
  · rw [Nat.mod_eq_sub_mod hge, Nat.mod_eq_of_lt (show C + i - 2 ^ 32 < 2 ^ 32 by omega)]
    exact hsame _ _ (by omega) (by omega)

theorem apart_of_pow {k : Nat} (hk : depth = 2 ^ k) (hturn : depth ≤ 2 ^ 32) : Apart depth (spscIndex depth) := by
  intro c i m him hm
  have hpos : 0 < depth := by omega
  have hdvd : depth ∣ 2 ^ 32 := by
    rw [hk] at hturn ⊢
    exact Nat.pow_dvd_pow 2 ((Nat.pow_le_pow_iff_right Nat.one_lt_two).1 hturn)
  have hat : ∀ j, spscIndex depth (c + BitVec.ofNat 32 j) = (c.toNat + j) % depth := fun j => by
    rw [spscIndex_eq_mod hpos, BitVec.toNat_add, BitVec.toNat_ofNat, Nat.add_mod_mod,
      Nat.mod_mod_of_dvd _ hdvd]
  rw [hat, hat]
  intro heq
  have hmod : (c.toNat + i) + 0 ≡ (c.toNat + i) + (m - i) [MOD depth] := by
    rw [add_zero, add_assoc, Nat.add_sub_cancel' him.le]
    exact heq
  have hdiv := (Nat.modEq_zero_iff_dvd).1 (Nat.ModEq.add_left_cancel' _ hmod).symm
  have hle := Nat.le_of_dvd (by omega) hdiv
  omega

/-- Every ring of a segment is a queue for ever, whatever its entries are. -/
theorem ring_fifo {α : Type} (a : α) (depth : Nat) (hlo : 8 ≤ depth) (hhi : depth ≤ 4096) (evs : List (Ev α))
    (h : Meets (Ring.step depth (spscIndex depth)) (KeepsApart depth) (Ring.init 32 a) evs) :
    Fifo depth (spscIndex depth) (evs.foldl (Ring.step depth (spscIndex depth)) (Ring.init 32 a)) := by
  have hturn : depth < 2 ^ 32 := by omega
  refine fifo_run hturn a (fun r ev hr hev => ?_) h
  cases ev with
  | write b =>
    intro hroom
    exact free_of_keepsApart (by omega) (by omega) (hr.inUse_lt hturn hroom) hev
  | _ => trivial

/-! ## A depth that is no power of two -/

def round (a : Nat) : List (Ev Nat) := [.pLoad, .write a, .publish, .cLoad, .read, .release]

def rounds : Nat → List (Ev Nat)
  | 0 => []
  | k + 1 => rounds k ++ round 0

def idle (seen : BitVec 32) (c : BitVec 32) (log : List Nat) : Ring Nat 32 :=
  ⟨fun _ => 0, c, c, seen, [], c, [], log, log⟩

theorem write_idle (c : BitVec 32) (log : List Nat) :
    (idle c c log).step 12 (spscIndex 12) (.write 0) = { idle c c log with staged := [0] } := by
  have hroom : (idle c c log).hasRoom 12 = true := by simp [Ring.hasRoom, Ring.next, idle]
  have hslot : update (idle c c log).slot (spscIndex 12 (idle c c log).next) 0
      = (idle c c log).slot := update_eq_self _ _
  rw [Ring.step, if_pos hroom, hslot]
  rfl

theorem read_idle (c : BitVec 32) (log : List Nat) :
    let r := { idle c c log with producer := c + 1, cSeen := c + 1, published := log ++ [0] }
    r.step 12 (spscIndex 12) .read = { r with taken := [0] } := by
  intro r
  have hone : (c + 1 - c).toNat = 1 := by
    rw [BitVec.add_comm, BitVec.add_sub_cancel]
    rfl
  have hentry : r.hasEntry = true := by
    rw [Ring.hasEntry, decide_eq_true_eq]
    exact Nat.lt_of_lt_of_eq Nat.zero_lt_one hone.symm
  rw [Ring.step, if_pos hentry]
  rfl

theorem round_idle (seen c : BitVec 32) (log : List Nat) :
    (round 0).foldl (Ring.step 12 (spscIndex 12)) (idle seen c log) = idle c (c + 1) (log ++ [0]) := by
  have hload : (idle seen c log).step 12 (spscIndex 12) .pLoad = idle c c log := rfl
  simp only [round, List.foldl_cons, List.foldl_nil]
  rw [hload, write_idle]
  exact congrArg (Ring.step 12 (spscIndex 12) · .release) (read_idle c log)

theorem rounds_idle (k : Nat) :
    ∃ seen log, (rounds k).foldl (Ring.step 12 (spscIndex 12)) (Ring.init 32 0)
      = idle seen (BitVec.ofNat 32 k) log := by
  induction k with
  | zero => exact ⟨0, [], rfl⟩
  | succ k ih =>
    obtain ⟨seen, log, hk⟩ := ih
    refine ⟨BitVec.ofNat 32 k, log ++ [0], ?_⟩
    rw [rounds, List.foldl_append, hk, round_idle, ← ofNat_add]
    rfl

/-- Seven entries while nothing is consumed, and the first three are read. -/
def acrossWrap : List (Ev Nat) :=
  [.pLoad, .write 1, .write 2, .write 3, .write 4, .write 5, .write 6, .write 7, .publish,
    .cLoad, .read, .read, .read, .release]

def after (log : List Nat) (r : Ring Nat 32) : Ring Nat 32 :=
  { r with published := log ++ r.published, delivered := log ++ r.delivered }

theorem step_after (r : Ring Nat 32) (ev : Ev Nat) :
    (after log r).step 12 (spscIndex 12) ev = after log (r.step 12 (spscIndex 12) ev) := by
  have hroom : (after log r).hasRoom 12 = r.hasRoom 12 := rfl
  have hentry : (after log r).hasEntry = r.hasEntry := rfl
  cases ev with
  | write a =>
    simp only [Ring.step, hroom]
    split <;> rfl
  | read =>
    simp only [Ring.step, hentry]
    split <;> rfl
  | publish | release => simp [Ring.step, after, Ring.next]
  | _ => rfl

theorem run_after (r : Ring Nat 32) (evs : List (Ev Nat)) : evs.foldl (Ring.step 12 (spscIndex 12)) (after log r)
      = after log (evs.foldl (Ring.step 12 (spscIndex 12)) r) := by
  induction evs generalizing r with
  | nil => rfl
  | cons ev evs ih => rw [List.foldl_cons, step_after, ih, List.foldl_cons]

theorem acrossWrap_idle (seen : BitVec 32) (log : List Nat) :
    let r := acrossWrap.foldl (Ring.step 12 (spscIndex 12)) (idle seen 0xfffffffa log)
    r.published = log ++ [1, 2, 3, 4, 5, 6, 7] ∧ r.delivered = log ++ [1, 2, 7] := by
  intro r
  have hr : r = after log (acrossWrap.foldl (Ring.step 12 (spscIndex 12)) (idle 0 0xfffffffa [])) := by
    rw [← run_after]
    simp only [r, acrossWrap, List.foldl_cons, after, idle, List.append_nil, Ring.step]
  rw [hr]
  constructor
  · exact congrArg (log ++ ·) (by decide +kernel)
  · exact congrArg (log ++ ·) (by decide +kernel)

/-- In a ring of depth 12 the seventh entry, with counter zero, is written over the third,
which is still pending. -/
theorem overwritten_across_wrap :
    let r := (rounds (2 ^ 32 - 6) ++ acrossWrap).foldl (Ring.step 12 (spscIndex 12)) (Ring.init 32 0)
    ¬ r.delivered <+: r.published ∧ ¬ Fifo 12 (spscIndex 12) r := by
  intro r
  obtain ⟨seen, log, hidle⟩ := rounds_idle (2 ^ 32 - 6)
  have hr : r = acrossWrap.foldl (Ring.step 12 (spscIndex 12)) (idle seen 0xfffffffa log) := by
    simp only [r, List.foldl_append, hidle]
    rfl
  obtain ⟨hpub, hdel⟩ := acrossWrap_idle seen log
  have hnot : ¬ r.delivered <+: r.published := by
    rw [hr, hpub, hdel, List.prefix_append_right_inj]
    decide
  exact ⟨hnot, fun h => hnot ((List.prefix_append _ _).trans h.order)⟩

/-- The same steps at depth 16. -/
theorem ring_fifo_sixteen :
    let r := acrossWrap.foldl (Ring.step 16 (spscIndex 16)) (Ring.init 32 0)
    r.delivered = [1, 2, 3] ∧ Fifo 16 (spscIndex 16) r := by
  refine ⟨by decide +kernel, ring_fifo 0 16 (by decide) (by decide) acrossWrap ?_⟩
  -- 16 divides the turn
  have hturn : ∀ c : BitVec 32, 2 ^ 32 % 16 ≤ c.toNat := fun c => Nat.zero_le _
  exact ⟨trivial, .inl (hturn _), .inl (hturn _), .inl (hturn _), .inl (hturn _), .inl (hturn _),
    .inl (hturn _), .inl (hturn _), trivial, trivial, trivial, trivial, trivial, trivial, trivial⟩

end Uet.Vpp
