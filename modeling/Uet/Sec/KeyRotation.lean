import Mathlib

/-!
# Key rotation by the clock

`uet_sec_sd.c`, the stand-in for key distribution: the wall clock gives a rotation index,
the index an association number, a slot of the key pool and a generation, and the
generation is mixed into the key of the slot. A secure domain keeps the effective keys of
the previous, the current and the next index, and rebuilds or shifts them when the clock
has moved. `uet_sec_sd_key` picks among the three by the association number of a packet
and the time into the interval.

A clock reading is the 64-bit number of milliseconds of `uet_gettime`. An entry of the
cache is right if it equals the key generated from scratch; the entries for an index of 2
or more always are, the others once the first call has found such an index.
-/

namespace Uet.Sec

open BitVec

abbrev Byte := BitVec 8

/-- `UET_SEC_ROT_INTERVAL_MS`. -/
def rotIntervalMs : BitVec 64 := 10000

/-- `UET_SEC_ROT_GUARD_MS`. -/
def rotGuardMs : BitVec 64 := 2000

/-- `UET_SEC_KEY_SIZE`: the bytes of a GCM key; `UET_SEC_KDF_GEN_SIZE` has the IV mask
behind them. -/
abbrev KeyBytes := Fin 44 → Byte

/-- `UET_SEC_FAM`. -/
inductive Fam where
  | v4 | v6
  deriving DecidableEq, Repr

inductive Which where
  | prev | cur | next
  deriving DecidableEq, Repr

/-- `uet_sec_rot_now`: the rotation index. -/
def rotNow (now : BitVec 64) : BitVec 64 := now / rotIntervalMs

/-- `uet_sec_rot_now`: the time into the interval. -/
def rotInto (now : BitVec 64) : BitVec 64 := now - rotNow now * rotIntervalMs

/-- `uet_sec_wrap_const`. -/
def wrapConst (i : Nat) : Byte :=
  [0x9e, 0x37, 0x79, 0xb9, 0x7f, 0x4a, 0x7c, 0x15,
   0xf3, 0x9c, 0xc0, 0x60, 0x5c, 0xed, 0xc8, 0x34,
   0x10, 0x82, 0x27, 0x6b, 0xf3, 0xa2, 0x72, 0x51,
   0xec, 0xdd, 0x74, 0x35, 0x21, 0xf8, 0x8e, 0xa3].getD i 0

/-- The key pool `def_key`; the bytes behind a key are zero. -/
def defKey (slot : Fin 4) : KeyBytes := fun i =>
  (match slot with
    | 0 => [0x07, 0xe9, 0x72, 0x49, 0x58, 0xd9, 0xe1, 0xf7,
            0x10, 0xf5, 0x94, 0xe1, 0x8e, 0x11, 0xfd, 0x8d,
            0x4a, 0x35, 0x82, 0xc2, 0x56, 0xcc, 0xfe, 0xcf,
            0xc5, 0xeb, 0x19, 0x02, 0xe5, 0x56, 0xbe, 0xd4]
    | 1 => [0xd4, 0xc3, 0xa2, 0xcf, 0xb3, 0xc1, 0x06, 0x7f,
            0xdd, 0xcf, 0x9f, 0xe2, 0xe1, 0x42, 0x8a, 0x29,
            0xc8, 0xd3, 0x1b, 0xfb, 0x2a, 0x97, 0x02, 0x64,
            0x90, 0x0f, 0x16, 0xdf, 0x7c, 0x36, 0xdb, 0x6f]
    | 2 => [0x3b, 0x8f, 0x0d, 0x6a, 0xe4, 0x27, 0x91, 0xac,
            0x55, 0x1e, 0xc0, 0x74, 0x2d, 0xb9, 0x66, 0x08,
            0xf1, 0x4c, 0xaa, 0x93, 0x70, 0xd5, 0x3e, 0x82,
            0x19, 0xbb, 0x6f, 0x24, 0xce, 0x07, 0x41, 0x98]
    | 3 => [0xa7, 0x62, 0xf5, 0x11, 0x8c, 0x4b, 0x30, 0xde,
            0x09, 0x9a, 0x77, 0xe3, 0x5f, 0x21, 0xb8, 0xc6,
            0x74, 0x0e, 0xd2, 0x46, 0x99, 0x2b, 0xa5, 0x18,
            0xed, 0x53, 0x81, 0x6c, 0x3a, 0xf0, 0x27, 0xbd]).getD i.val 0

/-- `uet_sec_wrap_mix`, byte `i`. -/
def wrapMix (gen : BitVec 64) (i : Nat) : Byte :=
  wrapConst i ^^^ (gen >>> (i % 8 * 8)).setWidth 8 ^^^ (gen + BitVec.ofNat 64 i).setWidth 8

/-- `r & (UET_SEC_ROT_N - 1)`. -/
def rotSlot (r : Int) : Fin 4 := ⟨(r % 4).toNat, by omega⟩

/-- `r / UET_SEC_ROT_N`, a division towards zero. -/
def rotGen (r : Int) : BitVec 64 := BitVec.ofInt 64 (r.tdiv 4)

/-- `uet_sec_sd_gen_key`: the effective key of index `r` from a pool. -/
def genKey (pool : Fin 4 → KeyBytes) (r : Int) : KeyBytes := fun i =>
  if i.val < 32 then pool (rotSlot r) i ^^^ wrapMix (rotGen r) i.val else pool (rotSlot r) i

/-- The keys of `struct uet_sec_sd`. -/
structure SdKeys where
  rotationEnabled : Bool
  pool : Fam → Fin 4 → KeyBytes
  cacheRot : BitVec 64
  eff : Fam → Which → KeyBytes

/-- The keys as `uet_sec_init_sd` leaves them where it derives none. -/
def SdKeys.init (rotationEnabled : Bool) : SdKeys :=
  { rotationEnabled, pool := fun _ => defKey, cacheRot := 0, eff := fun _ _ _ => 0 }

/-- `uet_sec_sd_refresh_keys`. -/
def refreshKeys (sd : SdKeys) (rot : BitVec 64) : SdKeys :=
  { sd with
    cacheRot := rot
    eff := fun fam which =>
      if rot = sd.cacheRot + 1 then
        match which with
        | .prev => sd.eff fam .cur
        | .cur => sd.eff fam .next
        | .next => genKey (sd.pool fam) (rot.toInt + 1)
      else
        match which with
        | .prev => genKey (sd.pool fam) (rot.toInt - 1)
        | .cur => genKey (sd.pool fam) rot.toInt
        | .next => genKey (sd.pool fam) (rot.toInt + 1) }

/-- The cache as a call of `uet_sec_sd_key` leaves it. -/
def sdKeyCache (sd : SdKeys) (now : BitVec 64) : SdKeys :=
  if sd.rotationEnabled && rotNow now != sd.cacheRot then refreshKeys sd (rotNow now) else sd

def sdKeyWhich (now : BitVec 64) (an : Bool) : Which :=
  if an = (rotNow now).getLsbD 0 then .cur
  else if rotInto now < rotGuardMs then .prev
  else .next

/-- `uet_sec_sd_key`; without rotation the association number is the slot. -/
def sdKey (sd : SdKeys) (now : BitVec 64) (fam : Fam) (an : Bool) : SdKeys × KeyBytes :=
  if !sd.rotationEnabled then (sd, sd.pool fam (if an then 1 else 0))
  else (sdKeyCache sd now, (sdKeyCache sd now).eff fam (sdKeyWhich now an))

/-- `uet_sec_sd_tx_an` with rotation: the association number a sender stamps. -/
def txAn (now : BitVec 64) : Bool := (rotNow now).getLsbD 0

/-! ## The clock -/

variable {sd : SdKeys} (now : BitVec 64)

theorem toNat_rotNow : (rotNow now).toNat = now.toNat / 10000 := by
  rw [rotNow, toNat_udiv]
  rfl

theorem toNat_rotInto : (rotInto now).toNat = now.toNat % 10000 := by
  have hle : rotNow now * rotIntervalMs ≤ now := by
    rw [le_def, toNat_mul, toNat_rotNow]
    exact (Nat.mod_le _ _).trans (Nat.div_mul_le_self _ 10000)
  rw [rotInto, toNat_sub_of_le hle, toNat_mul, toNat_rotNow,
    show rotIntervalMs.toNat = 10000 from rfl, Nat.mod_eq_of_lt ((Nat.div_mul_le_self _ _).trans_lt now.isLt)]
  omega

theorem rotNow_lt : (rotNow now).toNat < 2 ^ 51 := by
  rw [toNat_rotNow]
  omega

theorem toInt_rotNow : (rotNow now).toInt = ((rotNow now).toNat : Int) := by
  rw [toInt_eq_toNat_of_lt]
  have := rotNow_lt now
  omega

theorem txAn_eq : txAn now = decide ((now.toNat / 10000) % 2 = 1) := by
  rw [txAn, getLsbD, toNat_rotNow, Nat.testBit_zero]

/-! ## The cache -/

def Which.off : Which → Int
  | .prev => -1
  | .cur => 0
  | .next => 1

def SdKeys.Right (sd : SdKeys) (w : Which) : Prop :=
  ∀ fam, sd.eff fam w = genKey (sd.pool fam) (sd.cacheRot.toInt + w.off)

def SdKeys.Built (sd : SdKeys) : Prop := ∀ w, sd.Right w

/-- The slots for an index of 2 or more are right, and the cache is for an index the clock
can give. -/
structure SdKeys.FromTwo (sd : SdKeys) : Prop where
  right : ∀ w, 2 ≤ sd.cacheRot.toInt + w.off → sd.Right w
  index : sd.cacheRot.toNat < 2 ^ 51

theorem fromTwo_init (enabled : Bool) : (SdKeys.init enabled).FromTwo := by
  refine ⟨fun w hw => absurd hw ?_, by simp [SdKeys.init]⟩
  cases w <;> simp [SdKeys.init, Which.off]

theorem toInt_succ {c : BitVec 64} (h : c.toNat < 2 ^ 51) : (c + 1).toInt = c.toInt + 1 := by
  have h1 : (c + 1).toNat = c.toNat + 1 := by
    rw [toNat_add]
    exact Nat.mod_eq_of_lt (show c.toNat + 1 < 2 ^ 64 by omega)
  rw [toInt_eq_toNat_of_lt (by omega), toInt_eq_toNat_of_lt (by omega), h1]
  omega

theorem right_refreshKeys_shift (hidx : sd.cacheRot.toNat < 2 ^ 51) {w v : Which} (hw : w.off + 1 = v.off)
    (h : sd.Right v) : (refreshKeys sd (sd.cacheRot + 1)).Right w := by
  intro fam
  have heq : (refreshKeys sd (sd.cacheRot + 1)).eff fam w = sd.eff fam v := by
    cases w <;> cases v <;> simp [Which.off] at hw <;> simp [refreshKeys]
  rw [heq, h fam]
  simp only [refreshKeys, toInt_succ hidx]
  congr 1
  omega

theorem right_refreshKeys_new (sd : SdKeys) (rot : BitVec 64) : (refreshKeys sd rot).Right .next := by
  intro fam
  simp only [refreshKeys, Which.off]
  split <;> rfl

theorem built_refreshKeys_gap {rot : BitVec 64} (h : rot ≠ sd.cacheRot + 1) : (refreshKeys sd rot).Built := by
  intro w fam
  simp only [refreshKeys, if_neg h]
  cases w <;> simp [Which.off, Int.sub_eq_add_neg]

theorem fromTwo_sdKeyCache (h : sd.FromTwo) (now : BitVec 64) : (sdKeyCache sd now).FromTwo := by
  unfold sdKeyCache
  split
  · refine ⟨fun w hw => ?_, rotNow_lt now⟩
    by_cases hrot : rotNow now = sd.cacheRot + 1
    · rw [hrot] at hw ⊢
      simp only [refreshKeys, toInt_succ h.index] at hw
      cases w with
      | prev =>
        exact right_refreshKeys_shift h.index (v := .cur) rfl
          (h.right .cur (by simp only [Which.off] at hw ⊢; omega))
      | cur =>
        exact right_refreshKeys_shift h.index (v := .next) rfl
          (h.right .next (by simp only [Which.off] at hw ⊢; omega))
      | next => exact right_refreshKeys_new sd _
    · exact built_refreshKeys_gap hrot w
  · exact h

theorem built_sdKeyCache (h : sd.FromTwo) (hb : sd.Built) (now : BitVec 64) : (sdKeyCache sd now).Built := by
  unfold sdKeyCache
  split
  · by_cases hrot : rotNow now = sd.cacheRot + 1
    · rw [hrot]
      intro w
      cases w with
      | prev => exact right_refreshKeys_shift h.index (v := .cur) rfl (hb .cur)
      | cur => exact right_refreshKeys_shift h.index (v := .next) rfl (hb .next)
      | next => exact right_refreshKeys_new sd _
    · exact built_refreshKeys_gap hrot
  · exact hb

theorem cacheRot_sdKeyCache (he : sd.rotationEnabled = true) (now : BitVec 64) :
    (sdKeyCache sd now).cacheRot = rotNow now := by
  unfold sdKeyCache
  by_cases h : rotNow now = sd.cacheRot
  · simp [he, h]
  · simp [he, h, refreshKeys]

@[simp] theorem pool_sdKeyCache (sd : SdKeys) (now : BitVec 64) : (sdKeyCache sd now).pool = sd.pool := by
  unfold sdKeyCache
  split <;> rfl

@[simp] theorem rotationEnabled_sdKeyCache (sd : SdKeys) (now : BitVec 64) :
    (sdKeyCache sd now).rotationEnabled = sd.rotationEnabled := by
  unfold sdKeyCache
  split <;> rfl

/-! ## The key of a packet -/

/-- The slot chosen at `tr` for a packet stamped at `ts` is that of the sender's index. -/
theorem sdKeyWhich_index {ts tr : BitVec 64} (hlow : ts.toNat ≤ tr.toNat + 8000)
    (hhigh : tr.toNat < ts.toNat + 2000) :
    (rotNow tr).toInt + (sdKeyWhich tr (txAn ts)).off = (rotNow ts).toInt := by
  have hinto : rotInto tr < rotGuardMs ↔ tr.toNat % 10000 < 2000 := by
    rw [lt_def, toNat_rotInto]
    rfl
  have hpar : txAn ts = (rotNow tr).getLsbD 0 ↔ (ts.toNat / 10000 % 2 = 1 ↔ tr.toNat / 10000 % 2 = 1) := by
    rw [show (rotNow tr).getLsbD 0 = txAn tr from rfl, txAn_eq, txAn_eq, decide_eq_decide]
  rw [toInt_rotNow, toInt_rotNow, toNat_rotNow, toNat_rotNow, sdKeyWhich]
  -- the two indices differ by one at most, and by one only with different parities
  split
  · rename_i h
    rw [hpar] at h
    simp only [Which.off]
    omega
  · rename_i h
    rw [hpar] at h
    split
    · rename_i hg
      rw [hinto] at hg
      simp only [Which.off]
      omega
    · rename_i hg
      rw [hinto] at hg
      simp only [Which.off]
      omega

theorem sdKey_eq (he : sd.rotationEnabled = true) (h : sd.FromTwo) {ts tr : BitVec 64}
    (hlow : ts.toNat ≤ tr.toNat + 8000) (hhigh : tr.toNat < ts.toNat + 2000) (htwo : 2 ≤ (rotNow ts).toNat)
    (fam : Fam) : (sdKey sd tr fam (txAn ts)).2 = genKey (sd.pool fam) (rotNow ts).toInt := by
  have hw := sdKeyWhich_index hlow hhigh
  have hright := (fromTwo_sdKeyCache h tr).right (sdKeyWhich tr (txAn ts)) (by
    rw [cacheRot_sdKeyCache he, hw, toInt_rotNow]
    omega)
  simp only [sdKey, he, Bool.not_true, Bool.false_eq_true, if_false]
  rw [hright fam, cacheRot_sdKeyCache he, hw, pool_sdKeyCache]

/-! ## Effective keys differ -/

def gcmPart (k : KeyBytes) : Fin 32 → Byte := fun i => k (i.castLE (by decide))

theorem gcmPart_genKey (pool : Fin 4 → KeyBytes) (r : Int) (i : Fin 32) :
    gcmPart (genKey pool r) i = gcmPart (pool (rotSlot r)) i ^^^ wrapMix (rotGen r) i.val := by
  simp [gcmPart, genKey]

theorem lowBit_wrapMix (gen : BitVec 64) (i : Nat) :
    (wrapMix gen i).getLsbD 0 = ((wrapConst i).getLsbD 0 ^^ gen.getLsbD (i % 8 * 8) ^^
      (gen.getLsbD 0 ^^ decide (i % 2 = 1))) := by
  have hsum : (gen + BitVec.ofNat 64 i).getLsbD 0 = (gen.getLsbD 0 ^^ decide (i % 2 = 1)) := by
    rw [getLsbD_add (by decide), carry_zero, getLsbD_ofNat, Nat.testBit_zero]
    simp
  simp only [wrapMix, getLsbD_xor, getLsbD_setWidth, getLsbD_ushiftRight, add_zero, hsum]
  simp

theorem lowBits_genKey (pool : Fin 4 → KeyBytes) (r : Int) {i j : Fin 32} (h8 : i.val % 8 = j.val % 8) :
    ((gcmPart (genKey pool r) i).getLsbD 0 ^^ (gcmPart (genKey pool r) j).getLsbD 0) =
      (((gcmPart (pool (rotSlot r)) i).getLsbD 0 ^^ (wrapConst i.val).getLsbD 0) ^^
        ((gcmPart (pool (rotSlot r)) j).getLsbD 0 ^^ (wrapConst j.val).getLsbD 0)) := by
  have h2 : i.val % 2 = j.val % 2 := by omega
  rw [gcmPart_genKey, gcmPart_genKey, getLsbD_xor, getLsbD_xor, lowBit_wrapMix, lowBit_wrapMix, h8, h2]
  generalize (rotGen r).getLsbD (j.val % 8 * 8) = x
  generalize (rotGen r).getLsbD 0 = y
  generalize decide (j.val % 2 = 1) = z
  generalize (wrapConst i.val).getLsbD 0 = c
  generalize (wrapConst j.val).getLsbD 0 = d
  generalize (gcmPart (pool (rotSlot r)) i).getLsbD 0 = a
  generalize (gcmPart (pool (rotSlot r)) j).getLsbD 0 = b
  revert a b c d x y z
  decide

theorem rotSlot_eq_of_genKey {r s : Int}
    (h : gcmPart (genKey defKey r) = gcmPart (genKey defKey s)) : rotSlot r = rotSlot s := by
  have hbits : ∀ i j : Fin 32, i.val % 8 = j.val % 8 →
      (((gcmPart (defKey (rotSlot r)) i).getLsbD 0 ^^ (wrapConst i.val).getLsbD 0) ^^
        ((gcmPart (defKey (rotSlot r)) j).getLsbD 0 ^^ (wrapConst j.val).getLsbD 0)) =
      (((gcmPart (defKey (rotSlot s)) i).getLsbD 0 ^^ (wrapConst i.val).getLsbD 0) ^^
        ((gcmPart (defKey (rotSlot s)) j).getLsbD 0 ^^ (wrapConst j.val).getLsbD 0)) := by
    intro i j h8
    rw [← lowBits_genKey defKey r h8, ← lowBits_genKey defKey s h8, h]
  have h1 := hbits 7 23 rfl
  have h2 := hbits 7 31 rfl
  have h3 := hbits 0 8 rfl
  generalize rotSlot r = a at h1 h2 h3 ⊢
  generalize rotSlot s = b at h1 h2 h3 ⊢
  revert a b
  decide

theorem wrapMix_inj {g g' : BitVec 64} (hg : g.toNat < 2 ^ 56) (hg' : g'.toNat < 2 ^ 56)
    (h : ∀ i, i < 8 → wrapMix g i = wrapMix g' i) : g = g' := by
  -- byte 7 has nothing of the generation but the sum, which gives the lowest byte
  have hlow : g.setWidth 8 = g'.setWidth 8 := by
    have htop : ∀ x : BitVec 64, x.toNat < 2 ^ 56 → (x >>> (7 % 8 * 8)).setWidth 8 = (0 : Byte) := by
      intro x hx
      apply eq_of_toNat_eq
      rw [toNat_setWidth, toNat_ushiftRight, Nat.shiftRight_eq_div_pow, Nat.div_eq_of_lt hx]
      rfl
    have h7 := h 7 (by decide)
    rw [wrapMix, wrapMix, htop g hg, htop g' hg', xor_right_inj,
      setWidth_add _ _ (by decide), setWidth_add _ _ (by decide), BitVec.add_left_inj] at h7
    exact h7
  have hbyte : ∀ k, k < 8 → (g >>> (k * 8)).setWidth 8 = (g' >>> (k * 8)).setWidth 8 := by
    intro k hk
    have hk' := h k hk
    rw [wrapMix, wrapMix, setWidth_add _ _ (by decide), setWidth_add _ _ (by decide),
      hlow, xor_left_inj, xor_right_inj, Nat.mod_eq_of_lt hk] at hk'
    exact hk'
  apply eq_of_getLsbD_eq
  intro i hi
  have hb := congrArg (fun x : Byte => x.getLsbD (i % 8)) (hbyte (i / 8) (by omega))
  have hi8 : i / 8 * 8 + i % 8 = i := by omega
  have hm : i % 8 < 8 := Nat.mod_lt _ (by decide)
  simpa [getLsbD_setWidth, getLsbD_ushiftRight, hi8, hm] using hb

theorem toNat_rotGen {r : Nat} (hr : r < 2 ^ 51) : (rotGen r).toNat = r / 4 := by
  have hdiv : (r : Int).tdiv 4 = ((r / 4 : Nat) : Int) := by
    rw [Int.tdiv_eq_ediv_of_nonneg (by omega)]
    omega
  rw [rotGen, hdiv, ofInt_natCast, toNat_ofNat]
  exact Nat.mod_eq_of_lt (by omega)

theorem genKey_inj_of_slot {pool : Fin 4 → KeyBytes} {r s : Nat} (hr : r < 2 ^ 51) (hs : s < 2 ^ 51)
    (hslot : rotSlot r = rotSlot s) (h : gcmPart (genKey pool r) = gcmPart (genKey pool s)) : r = s := by
  have hgr := toNat_rotGen hr
  have hgs := toNat_rotGen hs
  have hgen : rotGen r = rotGen s := by
    refine wrapMix_inj (by omega) (by omega) fun i hi => ?_
    have hi' := congrFun h ⟨i, by omega⟩
    rwa [gcmPart_genKey, gcmPart_genKey, hslot, xor_right_inj] at hi'
  have hmod : r % 4 = s % 4 := by
    have := congrArg Fin.val hslot
    simp only [rotSlot] at this
    omega
  rw [hgen] at hgr
  omega

theorem genKey_inj {r s : Nat} (hr : r < 2 ^ 51) (hs : s < 2 ^ 51)
    (h : gcmPart (genKey defKey r) = gcmPart (genKey defKey s)) : r = s :=
  genKey_inj_of_slot hr hs (rotSlot_eq_of_genKey h) h

/-! ## Any history of calls -/

/-- A call of `uet_sec_sd_key`. -/
structure KeyCall where
  now : BitVec 64
  fam : Fam
  an : Bool

def SdKeys.run (sd : SdKeys) (calls : List KeyCall) : SdKeys :=
  calls.foldl (fun sd c => (sdKey sd c.now c.fam c.an).1) sd

theorem sdKey_fst (he : sd.rotationEnabled = true) (now : BitVec 64) (fam : Fam) (an : Bool) :
    (sdKey sd now fam an).1 = sdKeyCache sd now := by
  simp [sdKey, he]

theorem run_fromTwo (he : sd.rotationEnabled = true) (h : sd.FromTwo) (calls : List KeyCall) :
    (sd.run calls).FromTwo ∧ (sd.run calls).rotationEnabled = true ∧
      (sd.run calls).pool = sd.pool ∧ (sd.Built → (sd.run calls).Built) := by
  induction calls generalizing sd with
  | nil => exact ⟨h, he, rfl, id⟩
  | cons c calls ih =>
    have hfst := sdKey_fst he c.now c.fam c.an
    have hen : (sdKey sd c.now c.fam c.an).1.rotationEnabled = true := by
      rw [hfst, rotationEnabled_sdKeyCache, he]
    have htwo : (sdKey sd c.now c.fam c.an).1.FromTwo := hfst ▸ fromTwo_sdKeyCache h c.now
    obtain ⟨h1, h2, h3, h4⟩ := ih hen htwo
    refine ⟨h1, h2, h3.trans ?_, fun hb => h4 ?_⟩
    · rw [hfst, pool_sdKeyCache]
    · rw [hfst]
      exact built_sdKeyCache h hb c.now

def FirstFromTwo (calls : List KeyCall) : Prop :=
  match calls with
  | [] => False
  | c :: _ => 2 ≤ (rotNow c.now).toNat

instance (calls : List KeyCall) : Decidable (FirstFromTwo calls) := by
  unfold FirstFromTwo
  split <;> infer_instance

theorem built_of_firstFromTwo {calls : List KeyCall} (hfirst : FirstFromTwo calls) :
    ((SdKeys.init true).run calls).Built := by
  cases calls with
  | nil => exact hfirst.elim
  | cons c calls =>
    have htwo : 2 ≤ (rotNow c.now).toNat := hfirst
    have hinit : (SdKeys.init true).rotationEnabled = true := rfl
    have hfst := sdKey_fst hinit c.now c.fam c.an
    have hgap : rotNow c.now ≠ (SdKeys.init true).cacheRot + 1 := fun h => by
      rw [h] at htwo
      exact absurd htwo (by decide)
    have hstale : rotNow c.now ≠ (SdKeys.init true).cacheRot := fun h => by
      rw [h] at htwo
      exact absurd htwo (by decide)
    have hbuilt : (sdKeyCache (SdKeys.init true) c.now).Built := by
      unfold sdKeyCache
      rw [if_pos (by simp [hinit, hstale])]
      exact built_refreshKeys_gap hgap
    have hrun : (SdKeys.init true).run (c :: calls) = (sdKeyCache (SdKeys.init true) c.now).run calls :=
      congrArg (SdKeys.run · calls) hfst
    rw [hrun]
    exact (run_fromTwo (by rw [rotationEnabled_sdKeyCache, hinit])
      (fromTwo_sdKeyCache (fromTwo_init true) c.now) calls).2.2.2 hbuilt

/-- After every history of calls, with the clock jumping as it likes, a receiver whose clock
is at most 8 seconds behind the sender's stamp and less than the guard ahead of it chooses
the sender's key; once a first call has found an index of 2 or more, the cache holds the
keys generated from scratch; and two indices with one slot never share a key. -/
theorem key_agreement (calls : List KeyCall) :
    let sd := (SdKeys.init true).run calls
    (∀ ts tr : BitVec 64, 2 ≤ (rotNow ts).toNat → 2 ≤ (rotNow tr).toNat →
      -8000 ≤ (tr.toNat : Int) - ts.toNat → (tr.toNat : Int) - ts.toNat < 2000 → ∀ fam,
      (sdKey sd tr fam (txAn ts)).2 = genKey (sd.pool fam) (rotNow ts).toInt) ∧
    (FirstFromTwo calls → ∀ fam,
      sd.eff fam .prev = genKey (sd.pool fam) (sd.cacheRot.toInt - 1) ∧
      sd.eff fam .cur = genKey (sd.pool fam) sd.cacheRot.toInt ∧
      sd.eff fam .next = genKey (sd.pool fam) (sd.cacheRot.toInt + 1)) ∧
    (∀ t t' : BitVec 64, rotNow t ≠ rotNow t' → rotSlot (rotNow t).toInt = rotSlot (rotNow t').toInt → ∀ fam,
      gcmPart (genKey (sd.pool fam) (rotNow t).toInt) ≠
        gcmPart (genKey (sd.pool fam) (rotNow t').toInt)) := by
  intro sd
  obtain ⟨htwo, he, -, -⟩ := run_fromTwo (show (SdKeys.init true).rotationEnabled = true from rfl)
    (fromTwo_init true) calls
  refine ⟨fun ts tr hts _ hlow hhigh fam => ?_, fun hfirst fam => ?_, fun t t' hne hslot fam h => ?_⟩
  · exact sdKey_eq he htwo (by omega) (by omega) hts fam
  · have hb := built_of_firstFromTwo hfirst
    refine ⟨?_, ?_, ?_⟩
    · rw [Int.sub_eq_add_neg]
      exact hb .prev fam
    · simpa [Which.off] using hb .cur fam
    · exact hb .next fam
  · rw [toInt_rotNow, toInt_rotNow] at hslot h
    exact hne (eq_of_toNat_eq (genKey_inj_of_slot (rotNow_lt t) (rotNow_lt t') hslot h))

/-- A first call at index 1 takes the unbuilt cache for that of index 0 and shifts its zero
keys: at index 2 the previous key is not the key of index 1. -/
theorem cache_shifted_unbuilt :
    let sd := (SdKeys.init true).run [⟨10000, .v4, true⟩, ⟨20000, .v4, false⟩]
    sd.cacheRot = 2 ∧ sd.eff .v4 .prev ≠ genKey (sd.pool .v4) (sd.cacheRot.toInt - 1) := by
  refine ⟨by decide +kernel, fun h => ?_⟩
  exact absurd (congrFun h 0) (by decide +kernel)

/-- A receiver that was called at 25 s, then with its clock set back to 5 s, takes at 31 s
the key of a sender that stamped at 29 s and a half. -/
theorem key_agreement_set_back :
    let sd := (SdKeys.init true).run [⟨25000, .v4, false⟩, ⟨5000, .v6, true⟩]
    (sdKey sd 31000 .v4 (txAn 29500)).2 = genKey defKey 2 ∧
      sd.eff .v4 .prev = genKey defKey (-1) := by
  intro sd
  have h := key_agreement [⟨25000, .v4, false⟩, ⟨5000, .v6, true⟩]
  exact ⟨h.1 29500 31000 (by decide) (by decide) (by decide) (by decide) .v4, (h.2.1 (by decide) .v4).1⟩

end Uet.Sec
