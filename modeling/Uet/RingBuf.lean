import Mathlib

/-!
# Ring buffers

A ring of `n + 1` slots with a head index where the next entry is written and a tail index
where the oldest entry is. One slot stays unused, so the two indices are equal only when the
ring is empty. A slot keeps its value when the tail moves past it. `entries` is the queue the
ring stands for, oldest entry first.
-/

namespace Uet

open Function

structure RingBuf (α : Type) (n : Nat) where
  slot : Fin (n + 1) → α
  head : Fin (n + 1)
  tail : Fin (n + 1)

namespace RingBuf

variable {α : Type} {n : Nat}

/-- An empty ring whose slots all hold `a`. -/
def init (n : Nat) (a : α) : RingBuf α n := ⟨fun _ => a, 0, 0⟩

def next (i : Fin (n + 1)) : Fin (n + 1) :=
  if h : i.val + 1 = n + 1 then 0 else ⟨i.val + 1, by omega⟩

def headAdvance (r : RingBuf α n) : RingBuf α n := { r with head := next r.head }

def tailAdvance (r : RingBuf α n) : RingBuf α n := { r with tail := next r.tail }

def cnt (r : RingBuf α n) : Nat :=
  if r.tail.val ≤ r.head.val then r.head.val - r.tail.val
  else (n + 1) - (r.tail.val - r.head.val)

def put (r : RingBuf α n) (a : α) : RingBuf α n := { r with slot := update r.slot r.head a }

def insert (r : RingBuf α n) (a : α) : RingBuf α n := (r.put a).headAdvance

/-- Write `a` at the head and give up the slot at the tail. -/
def rotate (r : RingBuf α n) (a : α) : RingBuf α n := (r.put a).tailAdvance.headAdvance

def atTail (r : RingBuf α n) : α := r.slot r.tail

/-- The slot `i` places after `t`. -/
def after (t : Fin (n + 1)) (i : Nat) : Fin (n + 1) := Fin.ofNat (n + 1) (t.val + i)

def entries (r : RingBuf α n) : List α := (List.range r.cnt).map fun i => r.slot (after r.tail i)

theorem next_cases (i : Fin (n + 1)) :
    (i.val = n ∧ (next i).val = 0) ∨ (i.val < n ∧ (next i).val = i.val + 1) := by
  unfold next
  split_ifs with h
  · exact .inl ⟨by omega, rfl⟩
  · exact .inr ⟨by omega, rfl⟩

theorem next_val (i : Fin (n + 1)) : (next i).val = (i.val + 1) % (n + 1) := by
  rcases next_cases i with ⟨hi, h⟩ | ⟨hi, h⟩
  · rw [h, hi, Nat.mod_self]
  · rw [h, Nat.mod_eq_of_lt (by omega)]

theorem after_next (t : Fin (n + 1)) (i : Nat) : after (next t) i = after t (i + 1) := by
  apply Fin.ext
  simp only [after, Fin.ofNat, next_val, Nat.mod_add_mod]
  congr 1
  omega

variable (r : RingBuf α n)

theorem cnt_le : r.cnt ≤ n := by
  unfold cnt
  split_ifs <;> omega

/-- The head is `cnt` places after the tail. -/
theorem after_cnt : after r.tail r.cnt = r.head := by
  apply Fin.ext
  simp only [after, Fin.ofNat, cnt]
  have hh := r.head.isLt
  split_ifs with h
  · rw [Nat.add_sub_of_le h, Nat.mod_eq_of_lt hh]
  · rw [show r.tail.val + (n + 1 - (r.tail.val - r.head.val)) = r.head.val + (n + 1) by omega,
      Nat.add_mod_right, Nat.mod_eq_of_lt hh]

theorem after_ne {t : Fin (n + 1)} {i j : Nat} (hi : i < j) (hj : j ≤ n) : after t i ≠ after t j := by
  intro h
  have h := congrArg Fin.val h
  simp only [after, Fin.ofNat] at h
  rcases Nat.lt_or_ge (t.val + i) (n + 1) with h1 | h1 <;>
    rcases Nat.lt_or_ge (t.val + j) (n + 1) with h2 | h2
  · rw [Nat.mod_eq_of_lt h1, Nat.mod_eq_of_lt h2] at h
    omega
  · rw [Nat.mod_eq_of_lt h1, Nat.mod_eq_sub_mod h2, Nat.mod_eq_of_lt (by omega)] at h
    omega
  · omega
  · rw [Nat.mod_eq_sub_mod h1, Nat.mod_eq_of_lt (a := t.val + i - (n + 1)) (by omega),
      Nat.mod_eq_sub_mod h2, Nat.mod_eq_of_lt (by omega)] at h
    omega

theorem cnt_insert (a : α) (h : r.cnt < n) : (r.insert a).cnt = r.cnt + 1 := by
  have hcnt : (r.insert a).cnt = if r.tail.val ≤ (next r.head).val then (next r.head).val - r.tail.val
      else (n + 1) - (r.tail.val - (next r.head).val) := rfl
  rw [hcnt]
  unfold cnt at h ⊢
  rcases next_cases r.head with ⟨hi, hn⟩ | ⟨hi, hn⟩ <;> rw [hn] <;> split_ifs at h ⊢ <;> omega

theorem cnt_tailAdvance (h : 0 < r.cnt) : r.tailAdvance.cnt = r.cnt - 1 := by
  have hcnt : r.tailAdvance.cnt = if (next r.tail).val ≤ r.head.val then r.head.val - (next r.tail).val
      else (n + 1) - ((next r.tail).val - r.head.val) := rfl
  rw [hcnt]
  unfold cnt at h ⊢
  rcases next_cases r.tail with ⟨hi, hn⟩ | ⟨hi, hn⟩ <;> rw [hn] <;> split_ifs at h ⊢ <;> omega

@[simp] theorem length_entries : r.entries.length = r.cnt := by simp [entries]

@[simp] theorem entries_init (a : α) : (init n a).entries = [] := rfl

theorem entries_insert (a : α) (h : r.cnt < n) : (r.insert a).entries = r.entries ++ [a] := by
  rw [entries, cnt_insert r a h, List.range_succ, List.map_append, List.map_singleton, entries]
  have hslot : (r.insert a).slot = update r.slot r.head a := rfl
  have htail : (r.insert a).tail = r.tail := rfl
  rw [hslot, htail]
  congr 1
  · apply List.map_congr_left
    intro i hi
    have hne : after r.tail i ≠ r.head := by
      rw [← after_cnt r]
      exact after_ne (List.mem_range.1 hi) r.cnt_le
    exact update_of_ne hne _ _
  · rw [after_cnt, update_self]

theorem entries_eq_cons (h : 0 < r.cnt) : r.entries = r.atTail :: r.tailAdvance.entries := by
  rw [entries, entries, cnt_tailAdvance r h]
  have hslot : r.tailAdvance.slot = r.slot := rfl
  have htail : r.tailAdvance.tail = next r.tail := rfl
  obtain ⟨k, hk⟩ : ∃ k, r.cnt = k + 1 := ⟨r.cnt - 1, by omega⟩
  rw [hslot, htail, hk, List.range_succ_eq_map, List.map_cons, List.map_map, Nat.add_sub_cancel]
  congr 1
  · have h0 : after r.tail 0 = r.tail := Fin.ext (Nat.mod_eq_of_lt r.tail.isLt)
    rw [h0, atTail]
  · apply List.map_congr_left
    intro i _
    rw [after_next]
    rfl

theorem entries_tailAdvance {r : RingBuf α n} {a : α} {as : List α} (h : r.entries = a :: as) :
    r.atTail = a ∧ r.tailAdvance.entries = as := by
  have hpos : 0 < r.cnt := by
    rw [← length_entries, h]
    exact Nat.succ_pos _
  rw [entries_eq_cons r hpos, List.cons.injEq] at h
  exact h

theorem entries_rotate {r : RingBuf α n} {a : α} {as : List α} (h : r.entries = a :: as) :
    (r.rotate a).entries = as ++ [a] := by
  have hpos : 0 < r.cnt := by
    rw [← length_entries, h]
    exact Nat.succ_pos _
  have hadv := (entries_tailAdvance h).2
  have hcnt : r.tailAdvance.cnt < n := by
    rw [cnt_tailAdvance r hpos]
    have := r.cnt_le
    omega
  rw [← hadv]
  exact entries_insert r.tailAdvance a hcnt

end RingBuf

end Uet
