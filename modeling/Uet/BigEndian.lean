import Mathlib

/-!
# Numbers in byte strings

Numbers in network byte order, and reading them at an offset. A read sees only the bytes up to its
end.
-/

namespace Uet.BigEndian

/-- The last `n` bytes of a number, the highest one first. -/
def toBytes : Nat → Nat → List (BitVec 8)
  | 0, _ => []
  | n + 1, v => toBytes n (v / 256) ++ [BitVec.ofNat 8 v]

def ofBytes (bs : List (BitVec 8)) : Nat := bs.foldl (fun acc b => acc * 256 + b.toNat) 0

/-- The number in the `n` bytes at an offset. -/
def read (n off : Nat) (bs : List (BitVec 8)) : Nat := ofBytes ((bs.drop off).take n)

@[simp] theorem length_toBytes (n v : Nat) : (toBytes n v).length = n := by
  induction n generalizing v with
  | zero => rfl
  | succ n ih => rw [toBytes, List.length_append, ih, List.length_singleton]

theorem ofBytes_concat (bs : List (BitVec 8)) (b : BitVec 8) :
    ofBytes (bs ++ [b]) = ofBytes bs * 256 + b.toNat := by
  unfold ofBytes
  rw [List.foldl_append]
  rfl

theorem ofBytes_toBytes {n v : Nat} (h : v < 256 ^ n) : ofBytes (toBytes n v) = v := by
  induction n generalizing v with
  | zero =>
    rw [Nat.pow_zero, Nat.lt_one_iff] at h
    rw [h]
    rfl
  | succ n ih =>
    have hdiv : v / 256 < 256 ^ n := by
      rw [Nat.pow_succ] at h
      exact Nat.div_lt_of_lt_mul (by rwa [Nat.mul_comm])
    rw [toBytes, ofBytes_concat, ih hdiv, BitVec.toNat_ofNat]
    omega

theorem read_toBytes {n v off : Nat} (h : v < 256 ^ n) {pre : List (BitVec 8)} (hpre : pre.length = off)
    (post : List (BitVec 8)) : read n off (pre ++ (toBytes n v ++ post)) = v := by
  unfold read
  rw [List.drop_left' hpre, List.take_left' (length_toBytes n v), ofBytes_toBytes h]

theorem read_congr {n off k : Nat} {xs ys : List (BitVec 8)} (h : xs.take k = ys.take k) (hk : off + n ≤ k) :
    read n off xs = read n off ys := by
  have hcut : ∀ zs : List (BitVec 8), (zs.drop off).take n = ((zs.take k).drop off).take n := by
    intro zs
    rw [List.drop_take, List.take_take, Nat.min_eq_left (by omega)]
  unfold read
  rw [hcut xs, hcut ys, h]

end Uet.BigEndian
