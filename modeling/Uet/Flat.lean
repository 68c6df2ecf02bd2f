import Mathlib

/-!
# Stores through a list of addresses

A buffer made of pieces is the list of the addresses of its bytes. `poke` stores values
through such a list, first to last; copying into a piece of memory, a vector of pieces or
a list of pages is storing through the corresponding part of the list, so that the order
and the shape of the pieces no longer matter.
-/

namespace Uet.Flat

open List Function

variable {A V : Type} [DecidableEq A]

def poke (m : A → V) : List A → List V → A → V
  | a :: as, v :: vs => poke (update m a v) as vs
  | _, _ => m

@[simp] theorem poke_nil_left (m : A → V) (vs : List V) : poke m [] vs = m := by
  cases vs <;> rfl

@[simp] theorem poke_nil_right (m : A → V) (as : List A) : poke m as [] = m := by
  cases as <;> rfl

theorem poke_append (m : A → V) (as bs : List A) (vs : List V) :
    poke m (as ++ bs) vs = poke (poke m as vs) bs (vs.drop as.length) := by
  induction as generalizing m vs with
  | nil => simp
  | cons a as ih =>
    cases vs with
    | nil => simp
    | cons => exact ih ..

theorem poke_take_left (m : A → V) (as : List A) (vs : List V) (k : Nat) :
    poke m (as.take k) vs = poke m as (vs.take k) := by
  induction k generalizing m as vs with
  | zero => simp
  | succ k ih =>
    cases as with
    | nil => simp
    | cons a as =>
      cases vs with
      | nil => simp
      | cons => exact ih ..

theorem poke_take (m : A → V) (as : List A) (vs : List V) : poke m (as.take vs.length) vs = poke m as vs := by
  rw [poke_take_left, take_length]

variable {as : List A} {vs : List V} {k : Nat}

theorem poke_of_not_mem {m : A → V} {a : A} (h : a ∉ as) : poke m as vs a = m a := by
  induction as generalizing m vs with
  | nil => simp
  | cons b as ih =>
    cases vs with
    | nil => simp
    | cons v vs =>
      rw [mem_cons, not_or] at h
      rw [poke, ih h.2, update_of_ne h.1]

theorem mem_take_of_poke_ne {m : A → V} {a : A} (h : poke m as vs a ≠ m a) : a ∈ as.take vs.length := by
  by_contra hn
  rw [← poke_take] at h
  exact h (poke_of_not_mem hn)

theorem poke_getElem {m : A → V} (hn : as.Nodup) (hk : k < as.length) (hv : k < vs.length) :
    poke m as vs as[k] = vs[k] := by
  induction as generalizing m vs k with
  | nil => simp at hk
  | cons b as ih =>
    cases vs with
    | nil => simp at hv
    | cons v vs =>
      rw [nodup_cons] at hn
      cases k with
      | zero =>
        rw [poke, getElem_cons_zero, poke_of_not_mem hn.1, update_self, getElem_cons_zero]
      | succ k => exact ih hn.2 (by simpa using hk) (by simpa using hv)

theorem map_poke (m : A → V) (hn : as.Nodup) (vs : List V) :
    (as.take vs.length).map (poke m as vs) = vs.take as.length := by
  refine ext_getElem (by simp [Nat.min_comm]) fun k h1 h2 => ?_
  rw [length_take] at h2
  rw [getElem_map, getElem_take, getElem_take]
  exact poke_getElem hn (by omega) (by omega)

/-- What a store from offset `off` on leaves at an address it covers. -/
theorem poke_drop_inside {m : A → V} (hn : as.Nodup) {off : Nat} (hk : k < as.length) (h1 : off ≤ k)
    (h2 : k < off + vs.length) : poke m (as.drop off) vs as[k] = vs[k - off] := by
  have hd : k - off < (as.drop off).length := by rw [length_drop]; omega
  have hget : (as.drop off)[k - off] = as[k] := by
    rw [getElem_drop]
    congr 1
    omega
  rw [← hget]
  exact poke_getElem (hn.sublist (drop_sublist off as)) hd _

theorem poke_drop_outside {m : A → V} (hn : as.Nodup) {off : Nat} (hk : k < as.length)
    (h : ¬(off ≤ k ∧ k < off + vs.length)) : poke m (as.drop off) vs as[k] = m as[k] := by
  rw [← poke_take]
  refine poke_of_not_mem fun hm => h ?_
  -- an address of the window stands at an index of the window, and nowhere else
  obtain ⟨j, hj, he⟩ := mem_iff_getElem.1 hm
  rw [length_take, length_drop] at hj
  rw [getElem_take, getElem_drop] at he
  have := (hn.getElem_inj_iff).1 he
  omega

/-! ## Values stored in parts -/

/-- The part of `n` values from `off` on. -/
def part (vs : List V) (off n : Nat) : List V := (vs.drop off).take n

theorem length_part {off n : Nat} (h : off + n ≤ vs.length) : (part vs off n).length = n := by
  rw [part, length_take, length_drop]
  omega

def pokeParts (as : List A) (vs : List V) (m : A → V) : List (Nat × Nat) → A → V
  | [] => m
  | w :: parts => pokeParts as vs (poke m (as.drop w.1) (part vs w.1 w.2)) parts

theorem pokeParts_getElem (hn : as.Nodup) (hlen : vs.length ≤ as.length) {parts : List (Nat × Nat)}
    (hfit : ∀ w ∈ parts, w.1 + w.2 ≤ vs.length) {m : A → V} (hk : k < vs.length)
    (h : m (as[k]) = vs[k] ∨ ∃ w ∈ parts, w.1 ≤ k ∧ k < w.1 + w.2) : pokeParts as vs m parts (as[k]) = vs[k] := by
  induction parts generalizing m with
  | nil => exact h.resolve_right (by simp)
  | cons w parts ih =>
    have hw : w.1 + w.2 ≤ vs.length := hfit w mem_cons_self
    have hpart : (part vs w.1 w.2).length = w.2 := length_part hw
    refine ih (fun w' h' => hfit w' (mem_cons_of_mem _ h')) ?_
    by_cases hin : w.1 ≤ k ∧ k < w.1 + w.2
    · left
      rw [poke_drop_inside hn (Nat.lt_of_lt_of_le hk hlen) hin.1 (by rw [hpart]; exact hin.2)]
      simp only [part, getElem_take, getElem_drop]
      congr 1
      omega
    · rw [poke_drop_outside hn (Nat.lt_of_lt_of_le hk hlen) (by rwa [hpart])]
      rcases h with h | ⟨w', hmem, hw'⟩
      · exact Or.inl h
      rcases mem_cons.1 hmem with rfl | hmem
      · exact absurd hw' hin
      · exact Or.inr ⟨w', hmem, hw'⟩

theorem poke_drop_of_not_mem_take {m : A → V} {off n : Nat} {a : A} (hfit : off + vs.length ≤ n) (h : a ∉ as.take n) :
    poke m (as.drop off) vs a = m a := by
  by_cases hle : off + vs.length ≤ as.length
  · rw [← poke_take]
    refine poke_of_not_mem fun hm => h ?_
    obtain ⟨j, hj, rfl⟩ := mem_iff_getElem.1 hm
    rw [length_take, length_drop] at hj
    rw [getElem_take, getElem_drop]
    exact mem_take_iff_getElem.2 ⟨off + j, by omega, rfl⟩
  · rw [take_of_length_le (by omega)] at h
    exact poke_of_not_mem fun hm => h (mem_of_mem_drop hm)

theorem pokeParts_of_not_mem {parts : List (Nat × Nat)} (hfit : ∀ w ∈ parts, w.1 + w.2 ≤ vs.length) {m : A → V}
    {a : A} (h : a ∉ as.take vs.length) : pokeParts as vs m parts a = m a := by
  induction parts generalizing m with
  | nil => rfl
  | cons w parts ih =>
    have hw : w.1 + w.2 ≤ vs.length := hfit w mem_cons_self
    rw [pokeParts]
    exact (ih fun w' h' => hfit w' (mem_cons_of_mem _ h')).trans
      (poke_drop_of_not_mem_take (by rw [length_part hw]; exact hw) h)

/-- The offsets at which a length is cut into parts of `m`, from `off` on; a length of zero
is one part. -/
inductive Tiles (m len : Nat) : Nat → List Nat → Prop
  | last {off : Nat} : len - off ≤ m → Tiles m len off [off]
  | more {off : Nat} {offs : List Nat} :
      m < len - off → Tiles m len (off + m) offs → Tiles m len off (off :: offs)

section

variable {m len off : Nat} {offs : List Nat}

def tileLen (m len off : Nat) : Nat := min m (len - off)

section

variable (h : Tiles m len off offs)
include h

theorem Tiles.le_len (hoff : off ≤ len) : ∀ o ∈ offs, o ≤ len := by
  induction h with
  | last _ => simpa using hoff
  | more hlt _ ih =>
    intro o ho
    rcases mem_cons.1 ho with rfl | ho
    · exact hoff
    · exact ih (by omega) o ho

theorem Tiles.sum : (offs.map (tileLen m len)).sum = len - off := by
  induction h with
  | last hle =>
    simp only [map_cons, map_nil, sum_cons, sum_nil, tileLen]
    omega
  | more hlt _ ih =>
    rw [map_cons, sum_cons, ih, tileLen]
    omega

theorem Tiles.cover {k : Nat} (h1 : off ≤ k) (h2 : k < len) :
    ∃ o ∈ offs, o ≤ k ∧ k < o + tileLen m len o := by
  induction h with
  | last hle => exact ⟨_, mem_singleton_self _, h1, by simp only [tileLen]; omega⟩
  | @more off offs hlt _ ih =>
    by_cases hin : k < off + m
    · exact ⟨off, mem_cons_self, h1, by simp only [tileLen]; omega⟩
    · obtain ⟨o, ho, h3⟩ := ih (by omega)
      exact ⟨o, mem_cons_of_mem _ ho, h3⟩

theorem Tiles.pos (hm : 0 < m) (hoff : off < len) : ∀ o ∈ offs, 0 < tileLen m len o := by
  induction h with
  | last _ => simp only [mem_singleton, forall_eq, tileLen]; omega
  | more hlt _ ih =>
    intro o ho
    rcases mem_cons.1 ho with rfl | ho
    · simp only [tileLen]; omega
    · exact ih (by omega) o ho

theorem Tiles.head_mem : off ∈ offs := by
  cases h <;> simp

end

end

/-! ## Runs of consecutive addresses -/

/-- The addresses of `len` consecutive bytes. -/
def run (base len : Nat) : List Nat := (List.range len).map (base + ·)

variable (base : Nat)

@[simp] theorem length_run (len : Nat) : (run base len).length = len := by simp [run]

theorem getElem_run {base len k : Nat} (h : k < (run base len).length) : (run base len)[k] = base + k := by
  simp [run]

theorem mem_run {base len a : Nat} : a ∈ run base len ↔ base ≤ a ∧ a < base + len := by
  simp only [run, mem_map, mem_range]
  constructor
  · rintro ⟨k, hk, rfl⟩
    omega
  · rintro ⟨h1, h2⟩
    exact ⟨a - base, by omega, by omega⟩

theorem drop_run (len k : Nat) : (run base len).drop k = run (base + k) (len - k) := by
  apply ext_getElem
  · simp
  · intro i h1 h2
    rw [getElem_drop, getElem_run, getElem_run]
    omega

theorem take_run (len k : Nat) : (run base len).take k = run base (min k len) := by
  apply ext_getElem
  · rw [length_take, length_run, length_run]
  · intro j h1 h2
    rw [getElem_take, getElem_run, getElem_run]

theorem nodup_run (len : Nat) : (run base len).Nodup := by
  rw [run]
  exact nodup_range.map fun a b h => Nat.add_left_cancel h

end Uet.Flat
