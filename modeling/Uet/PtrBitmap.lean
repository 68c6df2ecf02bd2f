import Uet.Bitmap

/-!
# Bitmaps of packets

The packet delivery layer stores a packet pointer with every bit it sets, so the
pointer at an index is non-NULL exactly when the bit is set. `PtrBitmap` carries
that fact and the fixed length; its operations are those of `util/bitmap.c`, and
one function, `get`, describes what each of them leaves behind.
-/

namespace Uet

/-- A bitmap of `64 * words` bits that holds a pointer exactly at its set bits. -/
structure PtrBitmap (α : Type) (words : Nat) where
  bm : Bitmap α
  words_eq : bm.bitArrLen = words
  size_eq : bm.size = 64 * words
  ptr : ∀ i, bm.bit i = (bm.data i).isSome

namespace PtrBitmap

variable {α : Type} {words : Nat}

variable (b : PtrBitmap α words) (i : Int)

theorem len_eq : b.bm.size = 64 * b.bm.bitArrLen := by
  rw [b.size_eq, b.words_eq]

/-- The packet at index `i`, if its bit is set. -/
def get (b : PtrBitmap α words) (i : Int) : Option α := (b.bm.bmGet i).2

theorem get_natCast (k : Nat) (h : k < 64 * words) : b.get k = b.bm.data k := by
  rw [get, Bitmap.bmGet_of_lt _ b.len_eq k (by rw [b.size_eq]; exact h)]

theorem get_of_out (h : i < 0 ∨ (64 * words : Nat) ≤ i) : b.get i = none := by
  rw [get, Bitmap.bmGet_of_out _ i (by rw [b.size_eq]; exact h)]

theorem get_eq_data (k : Nat) : b.get k = b.bm.data k := by
  by_cases h : k < 64 * words
  · exact b.get_natCast k h
  · rw [b.get_of_out k (by omega), Bitmap.data_of_le _ _ (by rw [b.size_eq]; omega)]

theorem bit_eq (k : Nat) : b.bm.bit k = (b.get k).isSome := by
  rw [b.ptr, b.get_eq_data]

theorem get_range (h : b.get i ≠ none) : 0 ≤ i ∧ i < (64 * words : Nat) := by
  by_contra hc
  exact h (b.get_of_out i (by omega))

/-- `bm_create` or a cleared bitmap. -/
def empty (α : Type) (words : Nat) : PtrBitmap α words where
  bm := ⟨List.replicate words 0#64, List.replicate (64 * words) none⟩
  words_eq := by simp [Bitmap.bitArrLen]
  size_eq := by simp [Bitmap.size]
  ptr i := by
    simp only [Bitmap.bit, Bitmap.data, Bitmap.getD_replicate]
    simp

def clear (b : PtrBitmap α words) : PtrBitmap α words where
  bm := b.bm.bmClear
  words_eq := by rw [Bitmap.bmClear_bitArrLen, b.words_eq]
  size_eq := by rw [Bitmap.bmClear_size, b.size_eq]
  ptr i := by rw [Bitmap.bmClear_bit, Bitmap.bmClear_data]; rfl

def set (b : PtrBitmap α words) (i : Int) (x : α) : PtrBitmap α words where
  bm := (b.bm.bmSet i (some x)).2
  words_eq := by rw [Bitmap.bmSet_bitArrLen, b.words_eq]
  size_eq := by rw [Bitmap.bmSet_size, b.size_eq]
  ptr j := by
    by_cases h : i < 0 ∨ b.bm.size ≤ i
    · rw [Bitmap.bmSet_of_out _ i h, b.ptr]
    obtain ⟨k, rfl⟩ := Int.eq_ofNat_of_zero_le (show 0 ≤ i by omega)
    rw [Bitmap.bmSet_bit _ b.len_eq k (by omega), Bitmap.bmSet_data _ b.len_eq k (by omega), b.ptr]
    by_cases hj : j = k <;> simp [hj]

/-- The return value of `bm_set`. -/
def settable (b : PtrBitmap α words) (i : Int) (x : α) : Bool := (b.bm.bmSet i (some x)).1

def unset (b : PtrBitmap α words) (i : Int) : PtrBitmap α words where
  bm := b.bm.bmUnset i
  words_eq := by rw [Bitmap.bmUnset_bitArrLen, b.words_eq]
  size_eq := by rw [Bitmap.bmUnset_size, b.size_eq]
  ptr j := by
    by_cases h : i < 0 ∨ b.bm.size ≤ i
    · rw [Bitmap.bmUnset_of_out _ i h, b.ptr]
    obtain ⟨k, rfl⟩ := Int.eq_ofNat_of_zero_le (show 0 ≤ i by omega)
    rw [Bitmap.bmUnset_bit _ b.len_eq k (by omega), Bitmap.bmUnset_data _ b.len_eq k (by omega),
      b.ptr]
    by_cases hj : j = k <;> simp [hj]

/-- `bm_shift_right`. Beyond the size of the bitmap the C function has no meaning;
there every packet has left the window. -/
def shiftRight (b : PtrBitmap α words) (s : Nat) : PtrBitmap α words :=
  if h : s ≤ b.bm.size then
    { bm := b.bm.bmShiftRight s
      words_eq := by rw [Bitmap.bmShiftRight_bitArrLen, b.words_eq]
      size_eq := by rw [Bitmap.bmShiftRight_size, b.size_eq]
      ptr := fun i => by
        rw [Bitmap.bmShiftRight_bit _ b.len_eq s h, Bitmap.bmShiftRight_data _ s h, b.ptr] }
  else b.clear

def max (b : PtrBitmap α words) : Int := b.bm.bmMax
def count (b : PtrBitmap α words) : Nat := b.bm.bmCount
def extract64 (b : PtrBitmap α words) (i : Int) : BitVec 64 := b.bm.bmExtract64 i

@[simp] theorem get_clear : b.clear.get i = none := by
  by_cases h : i < 0 ∨ (64 * words : Nat) ≤ i
  · exact get_of_out _ i h
  · obtain ⟨k, rfl⟩ := Int.eq_ofNat_of_zero_le (show 0 ≤ i by omega)
    rw [get_eq_data, clear, Bitmap.bmClear_data]

theorem get_set (x : α) (j : Int) :
    (b.set i x).get j = if j = i ∧ 0 ≤ i ∧ i < (64 * words : Nat) then some x else b.get j := by
  by_cases h : i < 0 ∨ (64 * words : Nat) ≤ i
  · have hs : (b.set i x).bm = b.bm :=
      congrArg Prod.snd (Bitmap.bmSet_of_out b.bm i (by rw [b.size_eq]; exact h) (some x))
    rw [if_neg (by omega), get, hs, get]
  obtain ⟨k, rfl⟩ := Int.eq_ofNat_of_zero_le (show 0 ≤ i by omega)
  by_cases hj : j < 0 ∨ (64 * words : Nat) ≤ j
  · rw [get_of_out _ j hj, get_of_out _ j hj, if_neg (by omega)]
  obtain ⟨m, rfl⟩ := Int.eq_ofNat_of_zero_le (show 0 ≤ j by omega)
  rw [get_eq_data, get_eq_data, set, Bitmap.bmSet_data _ b.len_eq k (by rw [b.size_eq]; omega)]
  by_cases hmk : m = k
  · subst hmk
    rw [if_pos rfl, if_pos ⟨rfl, by omega, by omega⟩]
  · rw [if_neg hmk, if_neg (by omega)]

theorem settable_iff (x : α) : b.settable i x = true ↔ 0 ≤ i ∧ i < (64 * words : Nat) := by
  by_cases h : i < 0 ∨ (64 * words : Nat) ≤ i
  · rw [settable, Bitmap.bmSet_of_out _ i (by rw [b.size_eq]; exact h)]
    simp only [Bool.false_eq_true, false_iff]
    omega
  obtain ⟨k, rfl⟩ := Int.eq_ofNat_of_zero_le (show 0 ≤ i by omega)
  rw [settable, Bitmap.bmSet_of_lt _ b.len_eq k (by rw [b.size_eq]; omega)]
  simp only [true_iff]
  omega

@[simp] theorem get_unset (j : Int) : (b.unset i).get j = if j = i then none else b.get j := by
  by_cases h : i < 0 ∨ (64 * words : Nat) ≤ i
  · have hu : (b.unset i).bm = b.bm := Bitmap.bmUnset_of_out _ i (by rw [b.size_eq]; exact h)
    by_cases hj : j = i
    · rw [if_pos hj, hj, get_of_out _ i h]
    · rw [if_neg hj, get, hu, get]
  · obtain ⟨k, rfl⟩ := Int.eq_ofNat_of_zero_le (show 0 ≤ i by omega)
    by_cases hj : j < 0 ∨ (64 * words : Nat) ≤ j
    · rw [get_of_out _ j hj, get_of_out _ j hj, if_neg (by omega)]
    obtain ⟨m, rfl⟩ := Int.eq_ofNat_of_zero_le (show 0 ≤ j by omega)
    rw [get_eq_data, get_eq_data, unset, Bitmap.bmUnset_data _ b.len_eq k (by rw [b.size_eq]; omega)]
    by_cases hmk : m = k
    · rw [if_pos hmk, if_pos (by rw [hmk])]
    · rw [if_neg hmk, if_neg (by omega)]

theorem get_shiftRight (s : Nat) (j : Int) (hj : 0 ≤ j) : (b.shiftRight s).get j = b.get (j + s) := by
  obtain ⟨m, rfl⟩ := Int.eq_ofNat_of_zero_le hj
  rw [shiftRight]
  split_ifs with h
  · rw [get_eq_data, Bitmap.bmShiftRight_data _ s h, ← get_eq_data]
    rfl
  · rw [get_clear, get_of_out _ _ (by rw [b.size_eq] at h; omega)]

/-- `bm_max` bounds every packet and is itself one, or there is none. -/
theorem max_spec : (b.max = -1 ∧ ∀ i, b.get i = none) ∨
    (0 ≤ b.max ∧ b.get b.max ≠ none ∧ ∀ i, b.get i ≠ none → i ≤ b.max) := by
  rcases Bitmap.bmMax_spec b.bm b.len_eq with ⟨h1, h2⟩ | ⟨m, h1, h2, h3, h4⟩
  · refine Or.inl ⟨h1, fun i => ?_⟩
    by_contra hi
    obtain ⟨k, rfl⟩ := Int.eq_ofNat_of_zero_le (b.get_range i hi).1
    have := h2 k
    rw [bit_eq] at this
    exact hi (Option.isSome_eq_false_iff.1 this |> Option.isNone_iff_eq_none.1)
  · have hm : b.max = m := h1
    refine Or.inr ⟨by omega, ?_, fun i hi => ?_⟩
    · rw [hm]
      rw [bit_eq] at h3
      exact Option.isSome_iff_ne_none.1 h3
    · obtain ⟨k, rfl⟩ := Int.eq_ofNat_of_zero_le (b.get_range i hi).1
      rw [hm]
      have := h4 k (by rw [bit_eq]; exact Option.isSome_iff_ne_none.2 hi)
      omega

theorem count_eq_zero : b.count = 0 ↔ ∀ i, b.get i = none := by
  rw [count, Bitmap.bmCount_eq_zero]
  constructor
  · intro h i
    by_contra hi
    obtain ⟨k, rfl⟩ := Int.eq_ofNat_of_zero_le (b.get_range i hi).1
    have := h k
    rw [bit_eq, Option.isSome_iff_ne_none.2 hi] at this
    cases this
  · intro h k
    rw [bit_eq, h]
    rfl

theorem ext_get {a b : PtrBitmap α words} (h : ∀ i, a.get i = b.get i) : a = b := by
  have hdata : a.bm.dataArr = b.bm.dataArr := by
    have hlen : a.bm.dataArr.length = b.bm.dataArr.length := by
      have ha := a.size_eq
      have hb := b.size_eq
      simp only [Bitmap.size] at ha hb
      rw [ha, hb]
    refine List.ext_getElem hlen fun i h1 h2 => ?_
    have := h i
    rw [get_eq_data, get_eq_data, Bitmap.data, Bitmap.data, List.getD_eq_getElem _ _ h1,
      List.getD_eq_getElem _ _ h2] at this
    exact this
  have hbits : a.bm.bitArr = b.bm.bitArr := by
    have hlen : a.bm.bitArr.length = b.bm.bitArr.length := by
      have ha := a.words_eq
      have hb := b.words_eq
      simp only [Bitmap.bitArrLen] at ha hb
      rw [ha, hb]
    refine List.ext_getElem hlen fun i h1 h2 => BitVec.eq_of_getLsbD_eq fun j hj => ?_
    have hbit : a.bm.bit (64 * i + j) = b.bm.bit (64 * i + j) := by rw [bit_eq, bit_eq, h]
    rw [Bitmap.bit, Bitmap.bit, show (64 * i + j) / 64 = i by omega,
      show (64 * i + j) % 64 = j by omega, List.getD_eq_getElem _ _ h1, List.getD_eq_getElem _ _ h2] at hbit
    exact hbit
  have hbm : a.bm = b.bm := by
    cases ha : a.bm
    cases hb : b.bm
    rw [ha, hb] at hdata hbits
    simp_all
  cases a
  cases b
  simp_all

theorem unset_set (x : α) (h : b.get i = none) : (b.set i x).unset i = b := by
  refine ext_get fun j => ?_
  rw [get_unset, get_set]
  by_cases hj : j = i
  · rw [if_pos hj, hj, h]
  · rw [if_neg hj, if_neg (fun hc => hj hc.1)]

theorem set_set (x y : α) : (b.set i x).set i y = b.set i y := by
  refine ext_get fun j => ?_
  rw [get_set, get_set, get_set]
  split_ifs <;> rfl

end PtrBitmap
end Uet
