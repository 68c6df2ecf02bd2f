import Mathlib

/-!
# Serial numbers over an unbounded counter

A `w`-bit serial number is the residue of an unbounded counter. The lemmas
recover the difference of two counters from the signed difference of their
residues, as long as the counters are less than half the range apart, and say
what the same comparison answers just outside that range.
-/

namespace Uet.Serial

/-- The residue of the counter `n`. -/
abbrev wrap (w : Nat) (n : Int) : BitVec w := BitVec.ofInt w n

/-- Signed distance from `b` to `a`. -/
def sdist {w : Nat} (a b : BitVec w) : Int := (a - b).toInt

variable {w : Nat} (a : Int) (x : BitVec w) (b : Int)

theorem wrap_add : wrap w a + wrap w b = wrap w (a + b) := (BitVec.ofInt_add a b).symm

theorem wrap_sub : wrap w a - wrap w b = wrap w (a - b) := by
  rw [Int.sub_eq_add_neg, BitVec.sub_eq_add_neg]
  show wrap w a + -wrap w b = BitVec.ofInt w (a + -b)
  rw [BitVec.ofInt_add, BitVec.ofInt_neg]

theorem wrap_toInt : wrap w x.toInt = x := BitVec.ofInt_toInt

theorem wrap_add_sdist (x : BitVec w) : wrap w (b + sdist x (wrap w b)) = x := by
  rw [← wrap_add, sdist, wrap_toInt]
  rw [BitVec.add_comm]
  exact BitVec.sub_add_cancel x (wrap w b)

theorem sdist_wrap : sdist (wrap w a) (wrap w b) = (a - b).bmod (2 ^ w) := by
  rw [sdist, wrap_sub, BitVec.toInt_ofInt]

theorem sdist_wrap_eq (h1 : -(2 ^ w : Int) ≤ 2 * (a - b)) (h2 : 2 * (a - b) < 2 ^ w) :
    sdist (wrap w a) (wrap w b) = a - b := by
  have hc : ((2 ^ w : Nat) : Int) = 2 ^ w := by push_cast; rfl
  rw [sdist_wrap]
  exact Int.bmod_eq_of_le (by rw [hc]; omega) (by rw [hc]; omega)

theorem sdist_ge (y : BitVec w) : -(2 ^ w : Int) ≤ 2 * sdist x y := by
  have := BitVec.le_two_mul_toInt (x := x - y)
  rw [sdist]
  omega

theorem sdist_lt (y : BitVec w) : 2 * sdist x y < (2 ^ w : Int) := by
  have := BitVec.two_mul_toInt_lt (x := x - y)
  rw [sdist]
  omega

/-- The unsigned distance from `b` to `a`. -/
theorem toNat_wrap_sub : ((wrap w a - wrap w b).toNat : Int) = (a - b) % (2 ^ w : Int) := by
  rw [wrap_sub]
  rw [BitVec.toNat_ofInt]
  push_cast
  exact Int.toNat_of_nonneg (Int.emod_nonneg _ (by positivity))

end Uet.Serial
