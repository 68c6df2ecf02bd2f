import Mathlib

/-!
# The bitmap of `util/bitmap.c`

`struct bitmap` is an array of 64-bit words with one data pointer per bit. The
functions below follow the C text word by word, in-place loops included; the
lemmas describe them by the bit and the pointer each index holds.
-/

namespace Uet

open List BitVec

/-- `struct bitmap`. A NULL data pointer is `none`. -/
structure Bitmap (α : Type) where
  bitArr : List (BitVec 64)
  dataArr : List (Option α)

namespace Bitmap

variable {α : Type}

def bitArrLen (bm : Bitmap α) : Nat := bm.bitArr.length
def size (bm : Bitmap α) : Nat := bm.dataArr.length

/-- The bit at index `i`, clear beyond the array. -/
def bit (bm : Bitmap α) (i : Nat) : Bool := (bm.bitArr.getD (i / 64) 0#64).getLsbD (i % 64)

/-- The data pointer at index `i`. -/
def data (bm : Bitmap α) (i : Nat) : Option α := bm.dataArr.getD i none

/-- `bm_create`, allocation succeeding. -/
def bmCreate (α : Type) (size : Nat) : Option (Bitmap α) :=
  if size % 64 ≠ 0 then none
  else some ⟨List.replicate (size / 64) 0#64, List.replicate size none⟩

def bmClear (bm : Bitmap α) : Bitmap α :=
  ⟨List.replicate bm.bitArrLen 0#64, List.replicate bm.size none⟩

/-- `__builtin_popcountll`. -/
def totalNonzero (w : BitVec 64) : Nat := (List.range 64).countP (fun k => w.getLsbD k)

def bmCount (bm : Bitmap α) : Nat := (bm.bitArr.map totalNonzero).sum

/-- `bm_set`; the Bool is the C return value. -/
def bmSet (bm : Bitmap α) (i : Int) (data : Option α) : Bool × Bitmap α :=
  if i < 0 ∨ bm.size ≤ i then (false, bm)
  else
    let k := i.toNat
    if bm.bitArrLen ≤ k / 64 then (false, bm)
    else (true, ⟨bm.bitArr.set (k / 64) (bm.bitArr.getD (k / 64) 0#64 ||| (1#64 <<< (k % 64))),
      bm.dataArr.set k data⟩)

def bmUnset (bm : Bitmap α) (i : Int) : Bitmap α :=
  if (bm.bitArrLen : Int) ≤ i.tdiv 64 then bm
  else if i < 0 ∨ bm.size ≤ i then bm
  else
    let k := i.toNat
    ⟨bm.bitArr.set (k / 64) (bm.bitArr.getD (k / 64) 0#64 &&& ~~~(1#64 <<< (k % 64))),
      bm.dataArr.set k none⟩

/-- `bm_get`: the bit, and the pointer written through `data` (NULL when the
index is refused and nothing is written). -/
def bmGet (bm : Bitmap α) (i : Int) : Bool × Option α :=
  if (bm.bitArrLen : Int) ≤ i.tdiv 64 then (false, none)
  else if i < 0 ∨ bm.size ≤ i then (false, none)
  else
    let k := i.toNat
    (bm.bitArr.getD (k / 64) 0#64 &&& (1#64 <<< (k % 64)) != 0#64, bm.data k)

/-- `63 - __builtin_clzll(w)` for a nonzero word. -/
def topBit (w : BitVec 64) : Nat := w.toNat.log2

/-- The downward loop of `bm_max`. -/
def bmMaxGo (bm : Bitmap α) : Nat → Int
  | 0 => -1
  | i + 1 =>
    let idxVal := bm.bitArr.getD i 0#64
    if idxVal ≠ 0#64 then topBit idxVal + (i * 64 : Nat) else bmMaxGo bm i

def bmMax (bm : Bitmap α) : Int := bm.bmMaxGo bm.bitArrLen

/-- An in-place loop `for (i = 0; i < n; i++) arr[i] = f(arr, i)`. -/
def loopUp {β : Type} (n : Nat) (f : List β → Nat → β) (arr : List β) : List β :=
  (List.range n).foldl (fun a i => a.set i (f a i)) arr

/-- `bm_shift_right`, for `0 ≤ s ≤ size`. -/
def bmShiftRight (bm : Bitmap α) (s : Nat) : Bitmap α :=
  let chopWords := s / 64
  let shift := s % 64
  let len := bm.bitArrLen
  if s = 0 then bm
  else
    let words :=
      if shift = 0 then loopUp (len - chopWords) (fun a i => a.getD (i + chopWords) 0#64) bm.bitArr
      else
        let a := loopUp (len - 1 - chopWords) (fun a i =>
          a.getD (i + chopWords) 0#64 >>> shift |||
            a.getD (i + 1 + chopWords) 0#64 <<< (64 - shift)) bm.bitArr
        a.set (len - 1 - chopWords) (a.getD (len - 1) 0#64 >>> shift)
    let words := (List.range chopWords).foldl (fun a i => a.set (len - 1 - i) 0#64) words
    let ptrs := loopUp (bm.size - s) (fun a i => a.getD (i + s) none) bm.dataArr
    let ptrs := (List.range s).foldl (fun a i => a.set (bm.size - s + i) none) ptrs
    ⟨words, ptrs⟩

/-- `bm_extract64` for a start index inside the bitmap. -/
def extractAt (bm : Bitmap α) (i : Nat) : BitVec 64 :=
  let wordIdx := i / 64
  let bitIdx := i % 64
  let lo := bm.bitArr.getD wordIdx 0#64 >>> bitIdx
  if bitIdx ≠ 0 ∧ wordIdx + 1 < bm.bitArrLen then
    lo ||| bm.bitArr.getD (wordIdx + 1) 0#64 <<< (64 - bitIdx)
  else lo

/-- `bm_extract64`: ones below the bitmap, zeros above it. -/
def bmExtract64 (bm : Bitmap α) (i : Int) : BitVec 64 :=
  if bm.size ≤ i then 0#64
  else if i + 64 ≤ 0 then ~~~0#64
  else if i < 0 then
    let shift := (-i).toNat
    -- the recursive call of the source is at index 0
    (if bm.size ≤ (0 : Int) then 0#64 else bm.extractAt 0) <<< shift ||| ((1#64 <<< shift) - 1)
  else bm.extractAt i.toNat

/-! ## Reading an updated array -/

variable {β : Type} (n : Nat) (d : β)

theorem getD_set (l : List β) (i j : Nat) (x d : β) :
    (l.set i x).getD j d = if i = j ∧ i < l.length then x else l.getD j d := by
  by_cases h : i = j
  · subst h
    by_cases h' : i < l.length
    · simp [h']
    · simp [h']
  · simp [h]

theorem getD_replicate (i : Nat) (d : β) : (List.replicate n d).getD i d = d := by
  simp only [getD_eq_getElem?_getD, getElem?_replicate]
  split <;> rfl

@[simp] theorem loopUp_length (f : List β → Nat → β) (arr : List β) : (loopUp n f arr).length = arr.length := by
  induction n with
  | zero => rfl
  | succ n ih => simpa [loopUp, range_succ] using ih

theorem loopUp_getD (n : Nat) (f : List β → Nat → β) (arr : List β)
    (hf : ∀ a i, i < n → (∀ j, i ≤ j → a.getD j d = arr.getD j d) → f a i = f arr i) (hn : n ≤ arr.length) (j : Nat) :
    (loopUp n f arr).getD j d = if j < n then f arr j else arr.getD j d := by
  induction n generalizing j with
  | zero => simp [loopUp]
  | succ n ih =>
    have ih' := ih (fun a i hi => hf a i (Nat.lt_succ_of_lt hi)) (by omega)
    have hrest : ∀ k, n ≤ k → (loopUp n f arr).getD k d = arr.getD k d := by
      intro k hk
      rw [ih' k, if_neg (by omega)]
    have hstep : loopUp (n + 1) f arr = (loopUp n f arr).set n (f arr n) := by
      rw [← hf _ n (Nat.lt_succ_self n) hrest]
      simp [loopUp, range_succ]
    rw [hstep, getD_set, loopUp_length, ih' j]
    split_ifs <;> grind

@[simp] theorem fill_length (g : Nat → Nat) (v : β) (arr : List β) :
    ((List.range n).foldl (fun a i => a.set (g i) v) arr).length = arr.length := by
  induction n with
  | zero => rfl
  | succ n ih => simpa [range_succ] using ih

theorem fill_getD (n : Nat) (g : Nat → Nat) (v : β) (arr : List β) (j : Nat) (hj : j < arr.length) :
    ((List.range n).foldl (fun a i => a.set (g i) v) arr).getD j d =
      if ∃ i, i < n ∧ g i = j then v else arr.getD j d := by
  induction n with
  | zero => simp
  | succ n ih =>
    rw [range_succ, foldl_append, foldl_cons, foldl_nil, getD_set, fill_length, ih]
    by_cases hn : g n = j
    · rw [if_pos ⟨hn, hn ▸ hj⟩, if_pos ⟨n, Nat.lt_succ_self n, hn⟩]
    rw [if_neg (fun h => hn h.1)]
    refine if_congr ⟨fun ⟨i, hi, h⟩ => ⟨i, by omega, h⟩, fun ⟨i, hi, h⟩ => ⟨i, ?_, h⟩⟩ rfl rfl
    rcases Nat.lt_succ_iff_lt_or_eq.mp hi with h' | h'
    · exact h'
    · exact absurd (h' ▸ h) hn

theorem getD_of_length_le (l : List β) (i : Nat) (d : β) (h : l.length ≤ i) : l.getD i d = d := by
  simp [List.getElem?_eq_none h]

/-! ## What each operation does to the bit and the pointer at an index -/

section

variable (bm : Bitmap α)

theorem bit_of_le (hl : bm.size = 64 * bm.bitArrLen) (i : Nat) (h : bm.size ≤ i) : bm.bit i = false := by
  rw [bit, getD_of_length_le _ _ _ (by simp only [bitArrLen] at hl; omega)]
  simp

theorem data_of_le (i : Nat) (h : bm.size ≤ i) : bm.data i = none :=
  getD_of_length_le _ _ _ h

theorem bmClear_bit (i : Nat) : bm.bmClear.bit i = false := by
  simp only [bit, bmClear, getD_replicate]
  simp

theorem bmClear_data (i : Nat) : bm.bmClear.data i = none := by
  simp only [data, bmClear, getD_replicate]

theorem bmSet_of_lt (hl : bm.size = 64 * bm.bitArrLen) (k : Nat) (h : k < bm.size) (d : Option α) :
    bm.bmSet k d = (true, ⟨bm.bitArr.set (k / 64)
      (bm.bitArr.getD (k / 64) 0#64 ||| (1#64 <<< (k % 64))), bm.dataArr.set k d⟩) := by
  rw [bmSet, if_neg (by omega)]
  simp only [Int.toNat_natCast]
  rw [if_neg (by omega)]

@[simp] theorem bmClear_bitArrLen : bm.bmClear.bitArrLen = bm.bitArrLen := by
  simp [bmClear, bitArrLen]

@[simp] theorem bmClear_size : bm.bmClear.size = bm.size := by
  simp [bmClear, size]

variable (i : Int)

@[simp] theorem bmSet_bitArrLen (d : Option α) : (bm.bmSet i d).2.bitArrLen = bm.bitArrLen := by
  rw [bmSet]
  dsimp only
  split_ifs <;> simp [bitArrLen]

@[simp] theorem bmSet_size (d : Option α) : (bm.bmSet i d).2.size = bm.size := by
  rw [bmSet]
  dsimp only
  split_ifs <;> simp [size]

@[simp] theorem bmUnset_bitArrLen : (bm.bmUnset i).bitArrLen = bm.bitArrLen := by
  rw [bmUnset]
  split_ifs <;> simp [bitArrLen]

@[simp] theorem bmUnset_size : (bm.bmUnset i).size = bm.size := by
  rw [bmUnset]
  split_ifs <;> simp [size]

theorem bmSet_of_out (h : i < 0 ∨ bm.size ≤ i) (d : Option α) : bm.bmSet i d = (false, bm) := by
  rw [bmSet, if_pos h]

section

variable (hl : bm.size = 64 * bm.bitArrLen) (k : Nat) (h : k < bm.size)
include hl k h

theorem bmSet_bit (d : Option α) (j : Nat) : (bm.bmSet k d).2.bit j = (decide (j = k) || bm.bit j) := by
  rw [bmSet_of_lt bm hl k h d]
  simp only [bit, getD_set]
  have hk : k / 64 < bm.bitArr.length := by simp only [bitArrLen] at hl; omega
  by_cases hw : k / 64 = j / 64
  · rw [if_pos ⟨hw, hk⟩, hw, getLsbD_or, getLsbD_shiftLeft]
    by_cases hb : j = k
    · subst hb
      simp [Nat.mod_lt]
    have : j % 64 ≠ k % 64 := by omega
    by_cases hlt : j % 64 < k % 64
    · simp [hlt, hb]
    · have h0 : ¬ (j % 64 - k % 64 = 0) := by omega
      simp [hb, getLsbD_one, h0]
  · rw [if_neg (fun h => hw h.1)]
    have : j ≠ k := fun h => hw (by rw [h])
    simp [this]

theorem bmSet_data (d : Option α) (j : Nat) : (bm.bmSet k d).2.data j = if j = k then d else bm.data j := by
  rw [bmSet_of_lt bm hl k h d]
  simp only [data, getD_set]
  simp only [size] at h
  grind

theorem bmUnset_of_lt :
    bm.bmUnset k = ⟨bm.bitArr.set (k / 64)
      (bm.bitArr.getD (k / 64) 0#64 &&& ~~~(1#64 <<< (k % 64))), bm.dataArr.set k none⟩ := by
  have hd : (k : Int).tdiv 64 = (k / 64 : Nat) := rfl
  rw [bmUnset, hd, if_neg (by omega), if_neg (by omega)]
  simp only [Int.toNat_natCast]

theorem bmUnset_bit (j : Nat) : (bm.bmUnset k).bit j = (decide (j ≠ k) && bm.bit j) := by
  rw [bmUnset_of_lt bm hl k h]
  simp only [bit, getD_set]
  have hk : k / 64 < bm.bitArr.length := by simp only [bitArrLen] at hl; omega
  by_cases hw : k / 64 = j / 64
  · rw [if_pos ⟨hw, hk⟩, hw, getLsbD_and, getLsbD_not, getLsbD_shiftLeft]
    have hj : j % 64 < 64 := Nat.mod_lt _ (by decide)
    by_cases hb : j = k
    · subst hb
      simp [hj]
    have : j % 64 ≠ k % 64 := by omega
    by_cases hlt : j % 64 < k % 64
    · simp [hlt, hb, hj]
    · have h0 : ¬ (j % 64 - k % 64 = 0) := by omega
      simp [hb, getLsbD_one, h0, hj]
  · rw [if_neg (fun h => hw h.1)]
    have : j ≠ k := fun h => hw (by rw [h])
    simp [this]

theorem bmUnset_data (j : Nat) : (bm.bmUnset k).data j = if j = k then none else bm.data j := by
  rw [bmUnset_of_lt bm hl k h]
  simp only [data, getD_set]
  grind

end

variable (w : BitVec 64)

theorem and_one_shift_ne_zero (k : Nat) (h : k < 64) :
    (w &&& (1#64 <<< k) != 0#64) = w.getLsbD k := by
  have hbit : ∀ j, (w &&& (1#64 <<< k)).getLsbD j = (decide (j = k) && w.getLsbD j) := by
    intro j
    rw [getLsbD_and, getLsbD_shiftLeft]
    by_cases hb : j = k
    · subst hb
      simp [h]
    by_cases hlt : j < k
    · simp [hlt, hb]
    · have h0 : ¬ (j - k = 0) := by omega
      simp [hb, getLsbD_one, h0]
  cases hw : w.getLsbD k with
  | true =>
    have hk := hbit k
    simp only [hw, decide_true, Bool.and_true] at hk
    rw [bne_iff_ne]
    intro hz
    rw [hz] at hk
    simp at hk
  | false =>
    have hz : w &&& (1#64 <<< k) = 0#64 := by
      refine eq_of_getLsbD_eq fun j hj => ?_
      rw [hbit j]
      by_cases hb : j = k
      · subst hb
        simp [hw]
      · simp [hb]
    rw [hz]
    rfl

theorem bmGet_of_lt (hl : bm.size = 64 * bm.bitArrLen) (k : Nat) (h : k < bm.size) :
    bm.bmGet k = (bm.bit k, bm.data k) := by
  have hd : (k : Int).tdiv 64 = (k / 64 : Nat) := rfl
  rw [bmGet, hd, if_neg (by omega), if_neg (by omega)]
  simp only [Int.toNat_natCast, and_one_shift_ne_zero _ _ (Nat.mod_lt k (by decide : 64 > 0)), bit]

theorem bmGet_of_out (h : i < 0 ∨ bm.size ≤ i) : bm.bmGet i = (false, none) := by
  rw [bmGet]
  split_ifs <;> rfl

theorem bmUnset_of_out (h : i < 0 ∨ bm.size ≤ i) : bm.bmUnset i = bm := by
  rw [bmUnset]
  split_ifs <;> rfl

/-- The word at index `k` after `bm_shift_right`, words beyond the array being zero. -/
theorem bmShiftRight_word (hl : bm.size = 64 * bm.bitArrLen) (s : Nat) (hs : s ≤ bm.size) (k : Nat) :
    (bm.bmShiftRight s).bitArr.getD k 0#64 =
      if s % 64 = 0 then bm.bitArr.getD (k + s / 64) 0#64
      else bm.bitArr.getD (k + s / 64) 0#64 >>> (s % 64) |||
        bm.bitArr.getD (k + 1 + s / 64) 0#64 <<< (64 - s % 64) := by
  rw [bmShiftRight]
  by_cases h0 : s = 0
  · simp [h0]
  rw [if_neg h0]
  simp only [bitArrLen] at hl ⊢
  by_cases hk : k < bm.bitArr.length
  swap
  · rw [getD_of_length_le _ k _ (by split_ifs <;> simp <;> omega),
      getD_of_length_le _ (k + s / 64) _ (by omega), getD_of_length_le _ (k + 1 + s / 64) _ (by omega)]
    simp
  have hzero : (∃ i, i < s / 64 ∧ bm.bitArr.length - 1 - i = k) ↔ bm.bitArr.length - s / 64 ≤ k := by
    refine ⟨fun ⟨i, hi, h⟩ => by omega, fun h => ⟨bm.bitArr.length - 1 - k, by omega, by omega⟩⟩
  by_cases hsh : s % 64 = 0
  · simp only [hsh, if_true]
    rw [fill_getD _ _ _ _ _ _ (by simpa using hk)]
    simp only [hzero]
    rw [loopUp_getD 0#64 _ _ _ (fun a i _ h => h (i + s / 64) (by omega)) (by omega)]
    by_cases hlast : bm.bitArr.length - s / 64 ≤ k
    · rw [if_pos hlast, getD_of_length_le _ _ _ (by omega)]
    · rw [if_neg hlast, if_pos (by omega)]
  · simp only [hsh, if_false]
    have hbody : ∀ (a : List (BitVec 64)) (i : Nat), i < bm.bitArr.length - 1 - s / 64 →
        (∀ j, i ≤ j → a.getD j 0#64 = bm.bitArr.getD j 0#64) →
        a.getD (i + s / 64) 0#64 >>> (s % 64) ||| a.getD (i + 1 + s / 64) 0#64 <<< (64 - s % 64) =
        bm.bitArr.getD (i + s / 64) 0#64 >>> (s % 64) |||
          bm.bitArr.getD (i + 1 + s / 64) 0#64 <<< (64 - s % 64) := by
      intro a i _ h
      rw [h _ (by omega), h _ (by omega)]
    rw [fill_getD _ _ _ _ _ _ (by simpa using hk)]
    simp only [hzero]
    by_cases hlast : bm.bitArr.length - s / 64 ≤ k
    · rw [if_pos hlast, getD_of_length_le _ (k + s / 64) _ (by omega),
        getD_of_length_le _ (k + 1 + s / 64) _ (by omega)]
      simp
    rw [if_neg hlast, getD_set, loopUp_length]
    by_cases htop : bm.bitArr.length - 1 - s / 64 = k
    · rw [if_pos ⟨htop, by omega⟩, loopUp_getD 0#64 _ _ _ hbody (by omega), if_neg (by omega),
        getD_of_length_le _ (k + 1 + s / 64) _ (by omega), ← htop]
      rw [show bm.bitArr.length - 1 - s / 64 + s / 64 = bm.bitArr.length - 1 by omega]
      simp
    · rw [if_neg (fun h => htop h.1), loopUp_getD 0#64 _ _ _ hbody (by omega), if_pos (by omega)]

@[simp] theorem bmShiftRight_bitArrLen (s : Nat) : (bm.bmShiftRight s).bitArrLen = bm.bitArrLen := by
  rw [bmShiftRight, bitArrLen, bitArrLen]
  split_ifs <;> simp

@[simp] theorem bmShiftRight_size (s : Nat) : (bm.bmShiftRight s).size = bm.size := by
  rw [bmShiftRight, size, size]
  split_ifs <;> simp

theorem bmShiftRight_bit (hl : bm.size = 64 * bm.bitArrLen) (s : Nat) (hs : s ≤ bm.size)
    (j : Nat) : (bm.bmShiftRight s).bit j = bm.bit (j + s) := by
  simp only [bit]
  rw [bmShiftRight_word bm hl s hs]
  by_cases hsh : s % 64 = 0
  · rw [if_pos hsh, show (j + s) / 64 = j / 64 + s / 64 by omega,
      show (j + s) % 64 = j % 64 by omega]
  rw [if_neg hsh, getLsbD_or, getLsbD_ushiftRight, getLsbD_shiftLeft]
  by_cases hlow : j % 64 + s % 64 < 64
  · rw [show (j + s) / 64 = j / 64 + s / 64 by omega, show (j + s) % 64 = s % 64 + j % 64 by omega]
    have : j % 64 < 64 - s % 64 := by omega
    simp [this]
  rw [show (j + s) / 64 = j / 64 + 1 + s / 64 by omega,
    show (j + s) % 64 = j % 64 - (64 - s % 64) by omega, getLsbD_of_ge _ (s % 64 + j % 64) (by omega)]
  have h1 : ¬ (j % 64 < 64 - s % 64) := by omega
  have h2 : j % 64 < 64 := Nat.mod_lt _ (by decide)
  simp [h1, h2]

theorem bmShiftRight_data (s : Nat) (hs : s ≤ bm.size) (j : Nat) :
    (bm.bmShiftRight s).data j = bm.data (j + s) := by
  rw [bmShiftRight]
  by_cases h0 : s = 0
  · simp [h0]
  rw [if_neg h0]
  simp only [size] at hs ⊢
  simp only [data]
  by_cases hj : j < bm.dataArr.length
  swap
  · rw [getD_of_length_le _ j _ (by simp; omega), getD_of_length_le _ (j + s) _ (by omega)]
  rw [fill_getD _ _ _ _ _ _ (by simpa using hj)]
  rw [loopUp_getD none _ _ _ (fun a i _ h => h (i + s) (by omega)) (by omega)]
  by_cases hlast : bm.dataArr.length - s ≤ j
  · rw [if_pos ⟨j - (bm.dataArr.length - s), by omega, by omega⟩, getD_of_length_le _ _ _ (by omega)]
  · rw [if_neg (fun ⟨i, _, h⟩ => by omega), if_pos (by omega)]

theorem topBit_spec (hw : w ≠ 0#64) :
    w.getLsbD (topBit w) = true ∧ topBit w < 64 ∧ ∀ k, w.getLsbD k = true → k ≤ topBit w := by
  have hn : w.toNat ≠ 0 := fun h => hw (eq_of_toNat_eq (by simpa using h))
  refine ⟨Nat.testBit_log2 hn, (Nat.log2_lt hn).2 w.isLt, fun k hk => ?_⟩
  exact (Nat.le_log2 hn).2 (Nat.ge_two_pow_of_testBit hk)

theorem bmMaxGo_spec (n : Nat) :
    (bm.bmMaxGo n = -1 ∧ ∀ j, j < 64 * n → bm.bit j = false) ∨
    ∃ m : Nat, bm.bmMaxGo n = m ∧ m < 64 * n ∧ bm.bit m = true ∧
      ∀ j, j < 64 * n → bm.bit j = true → j ≤ m := by
  induction n with
  | zero => exact Or.inl ⟨rfl, fun j hj => by omega⟩
  | succ n ih =>
    rw [bmMaxGo]
    by_cases hw : bm.bitArr.getD n 0#64 = 0#64
    · have hclear : ∀ j, 64 * n ≤ j → j < 64 * (n + 1) → bm.bit j = false := by
        intro j h1 h2
        rw [bit, show j / 64 = n by omega, hw]
        simp
      simp only [hw, ne_eq, not_true_eq_false, if_false]
      rcases ih with ⟨h1, h2⟩ | ⟨m, h1, h2, h3, h4⟩
      · refine Or.inl ⟨h1, fun j hj => ?_⟩
        by_cases hj' : j < 64 * n
        · exact h2 j hj'
        · exact hclear j (by omega) hj
      · refine Or.inr ⟨m, h1, by omega, h3, fun j hj hb => ?_⟩
        by_cases hj' : j < 64 * n
        · exact h4 j hj' hb
        · rw [hclear j (by omega) hj] at hb
          cases hb
    · obtain ⟨t1, t2, t3⟩ := topBit_spec _ hw
      simp only [ne_eq, hw, not_false_eq_true, if_true]
      refine Or.inr ⟨topBit (bm.bitArr.getD n 0#64) + n * 64, by push_cast; rfl, by omega, ?_, ?_⟩
      · rw [bit, Nat.add_mul_div_right _ _ (by decide), Nat.div_eq_of_lt t2, zero_add,
          Nat.add_mul_mod_self_right, Nat.mod_eq_of_lt t2]
        exact t1
      · intro j hj hb
        by_cases hjn : j / 64 = n
        · rw [bit, hjn] at hb
          have := t3 _ hb
          omega
        · omega

/-- `bm_max` is the greatest set index, or -1. -/
theorem bmMax_spec (hl : bm.size = 64 * bm.bitArrLen) :
    (bm.bmMax = -1 ∧ ∀ j, bm.bit j = false) ∨
    ∃ m : Nat, bm.bmMax = m ∧ m < bm.size ∧ bm.bit m = true ∧ ∀ j, bm.bit j = true → j ≤ m := by
  have hout : ∀ j, bm.bit j = true → j < 64 * bm.bitArrLen := by
    intro j hb
    by_contra h
    rw [bit_of_le bm hl j (by omega)] at hb
    cases hb
  rcases bmMaxGo_spec bm bm.bitArrLen with ⟨h1, h2⟩ | ⟨m, h1, h2, h3, h4⟩
  · refine Or.inl ⟨h1, fun j => ?_⟩
    by_contra h
    rw [Bool.not_eq_false] at h
    rw [h2 j (hout j h)] at h
    cases h
  · exact Or.inr ⟨m, h1, by omega, h3, fun j hb => h4 j (hout j hb) hb⟩

theorem totalNonzero_eq_zero : totalNonzero w = 0 ↔ w = 0#64 := by
  rw [totalNonzero, countP_eq_zero]
  refine ⟨fun h => eq_of_getLsbD_eq fun j hj => ?_, fun h => by simp [h]⟩
  have := h j (mem_range.2 hj)
  simpa using this

theorem bmCount_eq_zero : bm.bmCount = 0 ↔ ∀ i, bm.bit i = false := by
  rw [bmCount, List.sum_eq_zero_iff_forall_eq_nat]
  constructor
  · intro h i
    rw [bit]
    by_cases hi : i / 64 < bm.bitArr.length
    · have hmem : bm.bitArr.getD (i / 64) 0#64 ∈ bm.bitArr := by
        rw [getD_eq_getElem _ _ hi]
        exact getElem_mem hi
      rw [(totalNonzero_eq_zero _).1 (h _ (mem_map_of_mem hmem))]
      simp
    · rw [getD_of_length_le _ _ _ (by omega)]
      simp
  · intro h x hx
    obtain ⟨w, hw, rfl⟩ := mem_map.1 hx
    obtain ⟨k, hk, rfl⟩ := getElem_of_mem hw
    refine (totalNonzero_eq_zero _).2 (eq_of_getLsbD_eq fun j hj => ?_)
    have := h (64 * k + j)
    rw [bit, show (64 * k + j) / 64 = k by omega, show (64 * k + j) % 64 = j by omega,
      getD_eq_getElem _ _ hk] at this
    simpa using this

end

end Bitmap
end Uet
