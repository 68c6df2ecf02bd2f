import Mathlib

/-!
# Tables of objects with one-based handles

A table has a fixed number of slots; a slot is free or holds an object. A handle is the number
of a slot plus one, so that zero names nothing. An allocation takes the first free slot.
-/

namespace Uet.HandleTable

open Function

variable {α : Type*}

abbrev Table (α : Type*) := Nat → Option α

/-- The object of a handle, in a table of `n` slots. -/
def get (n : Nat) (t : Table α) (handle : Nat) : Option α :=
  if handle = 0 ∨ n < handle then none else t (handle - 1)

def firstFree (n : Nat) (t : Table α) : Option Nat := (List.range n).find? fun i => (t i).isNone

def count (n : Nat) (t : Table α) (p : α → Bool) : Nat := (List.range n).countP fun i => (t i).any p

variable {n : Nat} {t : Table α} {handle : Nat}

theorem get_some {a : α} (h : get n t handle = some a) : 0 < handle ∧ handle ≤ n ∧ t (handle - 1) = some a := by
  unfold get at h
  split at h
  · cases h
  rename_i hb
  rw [not_or, Nat.not_lt] at hb
  exact ⟨Nat.pos_of_ne_zero hb.1, hb.2, h⟩

theorem get_eq (t : Table α) (hpos : 0 < handle) (hle : handle ≤ n) : get n t handle = t (handle - 1) := by
  rw [get, if_neg (by omega)]

theorem get_update (hpos : 0 < handle) (hle : handle ≤ n) (v : Option α) (handle' : Nat) :
    get n (update t (handle - 1) v) handle' = if handle' = handle then v else get n t handle' := by
  by_cases heq : handle' = handle
  · subst heq
    rw [get, if_neg (by omega), if_pos rfl, update_self]
  rw [if_neg heq, get, get]
  split
  · rfl
  · rw [update_of_ne (by omega)]

theorem firstFree_some {i : Nat} (h : firstFree n t = some i) : i < n ∧ t i = none := by
  have hmem := List.mem_of_find?_eq_some h
  have hnone := List.find?_some h
  exact ⟨List.mem_range.mp hmem, Option.isNone_iff_eq_none.mp hnone⟩

theorem count_update (t : Table α) {i : Nat} (hi : i < n) (v : Option α) (p : α → Bool) :
    count n (update t i v) p + (if (t i).any p then 1 else 0) =
      count n t p + (if v.any p then 1 else 0) := by
  induction n with
  | zero => omega
  | succ n ih =>
    have hsucc : ∀ t' : Table α, count (n + 1) t' p = count n t' p + if (t' n).any p then 1 else 0 := by
      intro t'
      rw [count, List.range_succ, List.countP_append, List.countP_singleton]
      rfl
    rw [hsucc, hsucc]
    by_cases hn : i = n
    · subst hn
      have hrest : count i (update t i v) p = count i t p := by
        refine List.countP_congr fun j hj => ?_
        rw [update_of_ne (Nat.ne_of_lt (List.mem_range.mp hj))]
      rw [hrest, update_self]
      omega
    · rw [update_of_ne (Ne.symm hn)]
      omega

theorem count_pos {p : α → Bool} {i : Nat} {a : α} (hi : i < n) (h : t i = some a) (hp : p a = true) :
    0 < count n t p := by
  refine List.countP_pos_iff.mpr ⟨i, List.mem_range.mpr hi, ?_⟩
  rw [h]
  exact hp

end Uet.HandleTable
