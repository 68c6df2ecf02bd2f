import Mathlib

/-!
# Association lists

A hash table is the list of its entries, the one found first for a key in front.
-/

namespace Uet.Assoc

variable {α β : Type*} [BEq α] [LawfulBEq α] {l : List (α × β)} {a : α} {b : β}

theorem mem_of_lookup (h : l.lookup a = some b) : (a, b) ∈ l := by
  obtain ⟨l₁, l₂, rfl, -⟩ := List.lookup_eq_some_iff.1 h
  simp

theorem ne_of_lookup_none (h : l.lookup a = none) {e : α × β} (he : e ∈ l) : e.1 ≠ a := by
  intro hk
  have := List.lookup_eq_none_iff.1 h e he
  simp [hk] at this

end Uet.Assoc
