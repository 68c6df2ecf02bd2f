import Uet.Spsc

/-!
# Free-running indices

A ring of `n` slots with indices of `w` bits that only grow and wrap around, where `n` divides a turn of
the indices. An index is the residue of an unbounded count, and the slot of a count is its remainder by `n`.
`Holds` says that the slots of a ring have the last items of a sequence: those from a given count on.
-/

namespace Uet.FreeIndex

open Function

variable {α : Type*} {w n : Nat}

theorem toNat_ofNat_mod (hn : n ∣ 2 ^ w) (i : Nat) : (BitVec.ofNat w i).toNat % n = i % n := by
  rw [BitVec.toNat_ofNat, Nat.mod_mod_of_dvd i hn]

theorem ofNat_succ (i : Nat) : BitVec.ofNat w i + 1 = BitVec.ofNat w (i + 1) := BitVec.ofNat_add i 1 |>.symm

theorem eq_of_ofNat_eq {a b : Nat} (hab : a ≤ b) (hlt : b - a < 2 ^ w) (h : BitVec.ofNat w a = BitVec.ofNat w b) :
    a = b := by
  have hsub := Spsc.toNat_sub_ofNat hab hlt
  rw [h, BitVec.sub_self, BitVec.toNat_zero] at hsub
  omega

theorem mod_ne {i j : Nat} (hij : i < j) (hj : j < i + n) : i % n ≠ j % n := by
  intro h
  have hdvd : n ∣ j - i := (Nat.modEq_iff_dvd' hij.le).mp h
  have hle := Nat.le_of_dvd (by omega) hdvd
  omega

/-- The items from count `lo` on are in their slots. -/
def Holds (slot : Nat → α) (n : Nat) (items : List α) (lo : Nat) : Prop :=
  ∀ i a, lo ≤ i → items[i]? = some a → slot (i % n) = a

section

variable {slot : Nat → α} {items : List α} {lo : Nat}

theorem holds_nil : Holds slot n [] lo := fun i a _ h => by
  rw [List.getElem?_nil] at h
  cases h

theorem Holds.mono (h : Holds slot n items lo) {lo' : Nat} (hle : lo ≤ lo') : Holds slot n items lo' :=
  fun i a hi ha => h i a (hle.trans hi) ha

theorem Holds.spoil (h : Holds slot n items lo) (hroom : items.length < lo + n) (a : α) :
    Holds (update slot (items.length % n) a) n items lo := by
  intro i b hi hb
  have hlt := (List.getElem?_eq_some_iff.mp hb).1
  have hne : i % n ≠ items.length % n := mod_ne hlt (by omega)
  rw [update_of_ne hne]
  exact h i b hi hb

theorem Holds.push (h : Holds slot n items lo) (hroom : items.length < lo + n) (a : α) :
    Holds (update slot (items.length % n) a) n (items ++ [a]) lo := by
  intro i b hi hb
  rcases lt_or_ge i items.length with hlt | hge
  · rw [List.getElem?_append_left hlt] at hb
    exact h.spoil hroom a i b hi hb
  obtain ⟨hlen, -⟩ := List.getElem?_eq_some_iff.mp hb
  rw [List.length_append, List.length_singleton] at hlen
  obtain rfl : i = items.length := by omega
  rw [List.getElem?_concat_length] at hb
  rw [update_self]
  exact Option.some.inj hb

end

end Uet.FreeIndex
