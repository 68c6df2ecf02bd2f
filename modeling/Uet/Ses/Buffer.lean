import Uet.Flat

/-!
# Buffers and the copies into and out of them

The buffer representations of `uet_api.c` and the functions that copy between a flat
payload and one of them: a contiguous buffer, a vector of buffers, a page list of level
0, 1 or 2, and a list of segments of memory regions. Each copy into a buffer is a store
through the list of the addresses of its bytes, each copy out of it a read through that
list, so the callers never see the pieces.

The entries of page directories are taken as given and translated: `none` is an entry
that the address translation refuses.
-/

namespace Uet.Ses

open Uet.Flat List Option

abbrev Byte := BitVec 8

abbrev Mem := Nat → Byte

def memcpy (m : Mem) (dst : Nat) (bs : List Byte) : Mem := poke m (run dst bs.length) bs

theorem memcpy_take (m : Mem) (dst : Nat) (bs : List Byte) (n : Nat) :
    memcpy m dst (bs.take n) = poke m (run dst n) bs := by
  rw [memcpy, length_take, Nat.min_comm, ← take_run, poke_take_left, take_take, Nat.min_comm,
    ← take_take, take_length, ← poke_take_left, take_of_length_le (Nat.le_of_eq (length_run _ _))]

/-- `struct iovec`. -/
structure Iovec where
  base : Nat
  len : Nat
  deriving DecidableEq, Repr

def iovAddrs (iov : List Iovec) : List Nat := iov.flatMap fun v => run v.base v.len

@[simp] theorem iovAddrs_nil : iovAddrs [] = [] := rfl

@[simp] theorem iovAddrs_cons (v : Iovec) (vs : List Iovec) :
    iovAddrs (v :: vs) = run v.base v.len ++ iovAddrs vs := rfl

theorem drop_iovAddrs_past {v : Iovec} {vs : List Iovec} {off : Nat} (h : v.len ≤ off) :
    (iovAddrs (v :: vs)).drop off = (iovAddrs vs).drop (off - v.len) := by
  have hrun : (run v.base v.len).drop off = [] := drop_eq_nil_of_le (by simpa using h)
  rw [iovAddrs_cons, drop_append, hrun, nil_append, length_run]

theorem drop_iovAddrs_within {v : Iovec} {vs : List Iovec} {within : Nat} (h : within ≤ v.len) :
    (iovAddrs (v :: vs)).drop within = run (v.base + within) (v.len - within) ++ iovAddrs vs := by
  rw [iovAddrs_cons, drop_append, drop_run, length_run, Nat.sub_eq_zero_of_le h, drop_zero]

/-! ## Vectors -/

/-- The first loop of `scatter_flat_to_iov`: the entry that holds the offset, and the
offset in it. -/
def iovSeek : List Iovec → Nat → List Iovec × Nat
  | [], _ => ([], 0)
  | v :: vs, off =>
    if off = 0 then (v :: vs, 0)
    else if v.len ≤ off then iovSeek vs (off - v.len)
    else (v :: vs, off)

/-- The second loop of `scatter_flat_to_iov`, with the number of bytes placed. -/
def iovFill (m : Mem) : List Iovec → Nat → List Byte → Mem × Nat
  | [], _, _ => (m, 0)
  | v :: vs, within, bs =>
    if bs = [] then (m, 0)
    else
      let avail := v.len - within
      if avail < bs.length then
        let (m, n) := iovFill (memcpy m (v.base + within) (bs.take avail)) vs 0 (bs.drop avail)
        (m, avail + n)
      else (memcpy m (v.base + within) bs, bs.length)

/-- `scatter_flat_to_iov`. -/
def scatterFlatToIov (m : Mem) (iov : List Iovec) (bs : List Byte) (off : Nat) : Mem × Nat :=
  let (rest, within) := iovSeek iov off
  iovFill m rest within bs

/-- The copy loop of `gather_iov_to_flat` and `gather_iov_to_buffer`. -/
def iovCollect (m : Mem) : List Iovec → Nat → Nat → List Byte
  | [], _, _ => []
  | v :: vs, within, n =>
    if n = 0 then []
    else
      let toCopy := min (v.len - within) n
      (run (v.base + within) toCopy).map m ++ iovCollect m vs 0 (n - toCopy)

/-- `gather_iov_to_flat`; fewer bytes than asked for is a short result. -/
def gatherIovToFlat (m : Mem) (iov : List Iovec) (n off : Nat) : List Byte :=
  let (rest, within) := iovSeek iov off
  iovCollect m rest within n

/-- The first loop of `gather_iov_to_buffer`, and of the segment copy. -/
def iovSkip : List Iovec → Nat → List Iovec × Nat
  | [], off => ([], off)
  | v :: vs, off => if v.len ≤ off then iovSkip vs (off - v.len) else (v :: vs, off)

/-- `gather_iov_to_buffer`; a short vector gives no buffer. -/
def gatherIovToBuffer (m : Mem) (iov : List Iovec) (n off : Nat) : Option (List Byte) :=
  let (rest, within) := iovSkip iov off
  let bs := iovCollect m rest within n
  if bs.length = n then some bs else none

def Within (rest : List Iovec) (within : Nat) : Prop :=
  match rest with
  | [] => True
  | v :: _ => within ≤ v.len

theorem iovSeek_spec (iov : List Iovec) (off : Nat) :
    Within (iovSeek iov off).1 (iovSeek iov off).2 ∧
    (iovAddrs (iovSeek iov off).1).drop (iovSeek iov off).2 = (iovAddrs iov).drop off := by
  induction iov generalizing off with
  | nil => simp [iovSeek, Within]
  | cons v vs ih =>
    rw [iovSeek]
    split
    · rename_i h
      subst h
      exact ⟨Nat.zero_le _, rfl⟩
    split
    · rename_i h1 h2
      obtain ⟨hw, hd⟩ := ih (off - v.len)
      exact ⟨hw, hd.trans (drop_iovAddrs_past h2).symm⟩
    · exact ⟨by simp only [Within]; omega, rfl⟩

theorem iovSkip_spec (iov : List Iovec) (off : Nat) :
    Within (iovSkip iov off).1 (iovSkip iov off).2 ∧
    (iovAddrs (iovSkip iov off).1).drop (iovSkip iov off).2 = (iovAddrs iov).drop off := by
  induction iov generalizing off with
  | nil => simp [iovSkip, Within]
  | cons v vs ih =>
    rw [iovSkip]
    split
    · rename_i h
      obtain ⟨hw, hd⟩ := ih (off - v.len)
      exact ⟨hw, hd.trans (drop_iovAddrs_past h).symm⟩
    · exact ⟨by simp only [Within]; omega, rfl⟩

section

variable (m : Mem) (iov : List Iovec)
include m iov

theorem iovFill_eq (within : Nat) (bs : List Byte) (hw : Within iov within) :
    iovFill m iov within bs =
      (poke m ((iovAddrs iov).drop within) bs, min bs.length ((iovAddrs iov).length - within)) := by
  induction iov generalizing m within bs with
  | nil => simp [iovFill]
  | cons v vs ih =>
    have hle : within ≤ v.len := hw
    have hlen : (iovAddrs (v :: vs)).length - within = v.len - within + (iovAddrs vs).length := by
      rw [iovAddrs_cons, length_append, length_run]
      omega
    rw [iovFill, drop_iovAddrs_within hle, hlen]
    split
    · rename_i h
      subst h
      simp
    have hr := ih (memcpy m (v.base + within) (bs.take (v.len - within))) 0
      (bs.drop (v.len - within)) (by cases vs <;> simp [Within])
    rw [drop_zero, memcpy_take] at hr
    rw [poke_append, length_run]
    dsimp only
    rw [memcpy_take]
    split
    · simp only [hr, length_drop, Prod.mk.injEq, true_and]
      omega
    · rename_i hge
      -- the store stops where the payload ends
      rw [drop_of_length_le (Nat.not_lt.1 hge), poke_nil_right, ← memcpy_take,
        take_of_length_le (Nat.not_lt.1 hge)]
      congr 1
      omega

theorem scatterFlatToIov_eq (bs : List Byte) (off : Nat) :
    scatterFlatToIov m iov bs off =
      (poke m ((iovAddrs iov).drop off) bs, min bs.length ((iovAddrs iov).length - off)) := by
  obtain ⟨hw, hd⟩ := iovSeek_spec iov off
  have hl := congrArg List.length hd
  rw [length_drop, length_drop] at hl
  simp only [scatterFlatToIov, iovFill_eq _ _ _ _ hw, hd, hl]

theorem iovCollect_eq (within n : Nat) (hw : Within iov within) :
    iovCollect m iov within n = (((iovAddrs iov).drop within).take n).map m := by
  induction iov generalizing within n with
  | nil => simp [iovCollect]
  | cons v vs ih =>
    have hle : within ≤ v.len := hw
    rw [iovCollect]
    split
    · rename_i h
      simp [h]
    have hr := ih 0 (n - min (v.len - within) n) (by cases vs <;> simp [Within])
    have htake : (run (v.base + within) (v.len - within)).take n =
        run (v.base + within) (min (v.len - within) n) := by rw [take_run, Nat.min_comm]
    have hsub : n - (run (v.base + within) (v.len - within)).length = n - min (v.len - within) n := by
      rw [length_run]
      omega
    simp only [hr, drop_iovAddrs_within hle, drop_zero, take_append, htake, hsub, map_append]

theorem gatherIovToFlat_eq (n off : Nat) :
    gatherIovToFlat m iov n off = (((iovAddrs iov).drop off).take n).map m := by
  obtain ⟨hw, hd⟩ := iovSeek_spec iov off
  simp only [gatherIovToFlat, iovCollect_eq _ _ _ _ hw, hd]

theorem gatherIovToBuffer_eq {n off : Nat} (h : off + n ≤ (iovAddrs iov).length) :
    gatherIovToBuffer m iov n off = some ((((iovAddrs iov).drop off).take n).map m) := by
  obtain ⟨hw, hd⟩ := iovSkip_spec iov off
  simp only [gatherIovToBuffer, iovCollect_eq _ _ _ _ hw, hd]
  refine if_pos ?_
  rw [length_map, length_take, length_drop]
  omega

end

/-! ## Page lists -/

/-- `uet_pbl_level_t` with what the level reads: the root itself, or directories. -/
inductive PblLevel where
  | zero (root : Nat)
  | one (dir : Nat → Option Nat)
  | two (dir : Nat → Option (Nat → Option Nat))

/-- `struct uet_mr_desc_pbl`. The page size is `2 ^ pageShift`. -/
structure Pbl where
  pageShift : Nat
  pageOffset : Nat
  level : PblLevel

def Pbl.pageSize (p : Pbl) : Nat := 2 ^ p.pageShift

theorem Pbl.pageSize_pos (p : Pbl) : 0 < p.pageSize := Nat.two_pow_pos _

def Pbl.page (p : Pbl) (idx : Nat) : Option Nat :=
  match p.level with
  | .zero root => some (root + idx * p.pageSize)
  | .one dir => dir idx
  | .two dir =>
    let perDir := p.pageSize / 8
    (dir (idx / perDir)).bind fun ents => ents (idx % perDir)

/-- `uet_mr_pbl_resolve`: a pointer, and how many bytes follow it in the same page. -/
def Pbl.resolve (p : Pbl) (len offset : Nat) : Option (Nat × Nat) :=
  let abs := p.pageOffset + offset
  match p.level with
  | .zero root => some (root + abs, len - offset)
  | _ => (p.page (abs / p.pageSize)).map fun page =>
      (page + abs % p.pageSize, p.pageSize - abs % p.pageSize)

def Pbl.addr (p : Pbl) (offset : Nat) : Option Nat :=
  let abs := p.pageOffset + offset
  (p.page (abs / p.pageSize)).map (· + abs % p.pageSize)

/-- `uet_mr_pbl_copy` into the region. Each round moves a byte at least, so the payload's
length bounds the rounds. -/
def Pbl.copyIn (p : Pbl) (len : Nat) : Nat → Mem → Nat → List Byte → Mem × Nat
  | 0, m, _, _ => (m, 0)
  | fuel + 1, m, offset, bs =>
    if bs = [] then (m, 0)
    else
      match p.resolve len offset with
      | none => (m, 0)
      | some (ptr, runLen) =>
        let n := min runLen bs.length
        if n = 0 then (m, 0)
        else
          let (m, k) := p.copyIn len fuel (memcpy m ptr (bs.take n)) (offset + n) (bs.drop n)
          (m, n + k)

/-- `uet_mr_pbl_copy` out of the region. -/
def Pbl.copyOut (p : Pbl) (len : Nat) (m : Mem) : Nat → Nat → Nat → List Byte
  | 0, _, _ => []
  | fuel + 1, offset, n =>
    if n = 0 then []
    else
      match p.resolve len offset with
      | none => []
      | some (ptr, runLen) =>
        let k := min runLen n
        if k = 0 then []
        else (run ptr k).map m ++ p.copyOut len m fuel (offset + k) (n - k)

private theorem samePage {s : Nat} (hs : 0 < s) (a : Nat) {j : Nat} (hj : j < s - a % s) :
    (a + j) / s = a / s ∧ (a + j) % s = a % s + j := by
  have hlt : a % s + j < s := by omega
  have ha := Nat.div_add_mod a s
  have hsum : a + j = s * (a / s) + (a % s + j) := by omega
  constructor
  · rw [hsum, Nat.mul_add_div hs, Nat.div_eq_of_lt hlt, Nat.add_zero]
  · rw [hsum, Nat.mul_add_mod, Nat.mod_eq_of_lt hlt]

theorem Pbl.resolve_run (p : Pbl) {len offset ptr runLen : Nat}
    (h : p.resolve len offset = some (ptr, runLen)) {j : Nat} (hj : j < runLen) :
    p.addr (offset + j) = some (ptr + j) := by
  have hz := p.pageSize_pos
  cases hl : p.level with
  | zero root =>
    simp only [Pbl.resolve, hl, some.injEq, Prod.mk.injEq] at h
    obtain ⟨rfl, rfl⟩ := h
    simp only [Pbl.addr, Pbl.page, hl, map_some, some.injEq]
    have := Nat.div_add_mod (p.pageOffset + (offset + j)) p.pageSize
    rw [Nat.mul_comm] at this
    omega
  | one dir | two dir =>
    simp only [Pbl.resolve, hl, map_eq_some_iff] at h
    obtain ⟨page, hp, he⟩ := h
    simp only [Prod.mk.injEq] at he
    obtain ⟨rfl, rfl⟩ := he
    obtain ⟨h1, h2⟩ := samePage hz (p.pageOffset + offset) hj
    rw [Pbl.addr, ← Nat.add_assoc, h1, h2, hp, map_some]
    simp only [some.injEq]
    omega

/-- The addresses of `n` bytes of a region from `offset` on, where all of them resolve. -/
def Pbl.addrs (p : Pbl) : Nat → Nat → Option (List Nat)
  | _, 0 => some []
  | offset, n + 1 =>
    match p.addr offset, p.addrs (offset + 1) n with
    | some a, some as => some (a :: as)
    | _, _ => none

variable {p : Pbl}

theorem Pbl.addrs_iff {offset n : Nat} {as : List Nat} :
    p.addrs offset n = some as ↔
      as.length = n ∧ ∀ j, (h : j < as.length) → p.addr (offset + j) = some as[j] := by
  induction n generalizing offset as with
  | zero =>
    rw [Pbl.addrs, some.injEq, length_eq_zero_iff]
    constructor
    · rintro rfl
      exact ⟨rfl, fun j hj => absurd hj (Nat.not_lt_zero j)⟩
    · exact fun h => h.1.symm
  | succ n ih =>
    rw [Pbl.addrs]
    constructor
    · intro h
      split at h
      · rename_i a as' ha has'
        obtain ⟨hl, hget⟩ := ih.1 has'
        cases h
        refine ⟨by rw [length_cons, hl], fun j hj => ?_⟩
        cases j with
        | zero => exact ha
        | succ j =>
          rw [getElem_cons_succ, ← hget j (by simpa using hj)]
          congr 1
          omega
      · cases h
    · rintro ⟨hl, hget⟩
      cases as with
      | nil => cases hl
      | cons a as =>
        have ha : p.addr offset = some a := hget 0 (Nat.succ_pos _)
        have has : p.addrs (offset + 1) n = some as := by
          refine ih.2 ⟨by simpa using hl, fun j hj => ?_⟩
          rw [Nat.add_assoc, Nat.add_comm 1 j]
          exact hget (j + 1) (by simpa using hj)
        rw [ha, has]

theorem Pbl.addrs_take {len offset ptr runLen : Nat} {as : List Nat}
    (h : p.addrs offset as.length = some as) (hr : p.resolve len offset = some (ptr, runLen)) {k : Nat}
    (hk : k ≤ runLen) (hk' : k ≤ as.length) : as.take k = run ptr k := by
  apply ext_getElem
  · rw [length_take, length_run]
    omega
  · intro j h1 h2
    rw [length_run] at h2
    rw [getElem_take, getElem_run]
    have e1 := (Pbl.addrs_iff.1 h).2 j (by omega)
    have e2 := p.resolve_run hr (show j < runLen by omega)
    exact some.inj (e1.symm.trans e2)

theorem Pbl.addrs_drop {offset k : Nat} {as : List Nat} (h : p.addrs offset as.length = some as) :
    p.addrs (offset + k) (as.drop k).length = some (as.drop k) := by
  refine Pbl.addrs_iff.2 ⟨rfl, fun j hj => ?_⟩
  rw [length_drop] at hj
  rw [getElem_drop, Nat.add_assoc]
  exact (Pbl.addrs_iff.1 h).2 (k + j) (by omega)

theorem Pbl.addrs_window {len off n : Nat} {as : List Nat} (h : p.addrs 0 len = some as) (hfit : off + n ≤ len) :
    p.addrs off n = some ((as.drop off).take n) := by
  have hlen : as.length = len := (Pbl.addrs_iff.1 h).1
  refine Pbl.addrs_iff.2 ⟨by rw [length_take, length_drop]; omega, fun j hj => ?_⟩
  rw [length_take, length_drop] at hj
  rw [getElem_take, getElem_drop, ← (Pbl.addrs_iff.1 h).2 (off + j) (by omega), Nat.zero_add]

theorem Pbl.resolve_of_addr {len offset a : Nat} (h : p.addr offset = some a)
    (hlt : offset < len) : ∃ ptr runLen, p.resolve len offset = some (ptr, runLen) ∧ 0 < runLen := by
  have hz := p.pageSize_pos
  have hmod := Nat.mod_lt (p.pageOffset + offset) hz
  cases hl : p.level with
  | zero root =>
    refine ⟨_, _, by simp only [Pbl.resolve, hl]; rfl, ?_⟩
    omega
  | one dir | two dir =>
    simp only [Pbl.addr, map_eq_some_iff] at h
    obtain ⟨page, hp, -⟩ := h
    refine ⟨_, _, by simp only [Pbl.resolve, hl, hp, map_some]; rfl, ?_⟩
    omega

theorem Pbl.copyIn_eq (p : Pbl) {len fuel offset : Nat} {m : Mem} {bs : List Byte} {as : List Nat}
    (has : p.addrs offset bs.length = some as) (hfit : offset + bs.length ≤ len)
    (hfuel : bs.length ≤ fuel) : p.copyIn len fuel m offset bs = (poke m as bs, bs.length) := by
  have hlen : as.length = bs.length := (Pbl.addrs_iff.1 has).1
  rw [← hlen] at has
  induction fuel generalizing m offset bs as with
  | zero =>
    have : bs = [] := length_eq_zero_iff.1 (by omega)
    subst this
    simp [Pbl.copyIn]
  | succ fuel ih =>
    rw [Pbl.copyIn]
    split
    · rename_i h
      subst h
      simp
    rename_i hne
    have hpos : 0 < bs.length := length_pos_iff.2 hne
    have h0 := (Pbl.addrs_iff.1 has).2 0 (by omega)
    obtain ⟨ptr, runLen, hr, hrun⟩ := Pbl.resolve_of_addr h0 (show offset + 0 < len by omega)
    rw [Nat.add_zero] at hr
    -- the first round covers the first `n` addresses, the induction the rest
    have hn : min runLen bs.length ≠ 0 := by omega
    have htake := Pbl.addrs_take has hr (Nat.min_le_left runLen bs.length) (by omega)
    have hrest := @ih (offset + min runLen bs.length)
      (memcpy m ptr (bs.take (min runLen bs.length))) (bs.drop (min runLen bs.length))
      (as.drop (min runLen bs.length)) (Pbl.addrs_drop has) (by rw [length_drop]; omega)
      (by rw [length_drop]; omega) (by rw [length_drop, length_drop, hlen])
    have hpoke : poke m as bs = poke (memcpy m ptr (bs.take (min runLen bs.length)))
        (as.drop (min runLen bs.length)) (bs.drop (min runLen bs.length)) := by
      conv_lhs => rw [← take_append_drop (min runLen bs.length) as]
      rw [poke_append, htake, length_run, memcpy_take]
    simp only [hr, if_neg hn, hrest, hpoke, length_drop, Prod.mk.injEq, true_and]
    omega

theorem Pbl.copyOut_eq (p : Pbl) {len fuel offset n : Nat} {m : Mem} {as : List Nat}
    (has : p.addrs offset n = some as) (hfit : offset + n ≤ len) (hfuel : n ≤ fuel) :
    p.copyOut len m fuel offset n = as.map m := by
  have hlen : as.length = n := (Pbl.addrs_iff.1 has).1
  subst hlen
  induction fuel generalizing offset as with
  | zero =>
    have : as = [] := length_eq_zero_iff.1 (by omega)
    subst this
    simp [Pbl.copyOut]
  | succ fuel ih =>
    rw [Pbl.copyOut]
    split
    · rename_i h
      rw [length_eq_zero_iff.1 h]
      rfl
    have h0 := (Pbl.addrs_iff.1 has).2 0 (by omega)
    obtain ⟨ptr, runLen, hr, hrun⟩ := Pbl.resolve_of_addr h0 (show offset + 0 < len by omega)
    rw [Nat.add_zero] at hr
    have hn : min runLen as.length ≠ 0 := by omega
    have htake := Pbl.addrs_take has hr (Nat.min_le_left runLen as.length) (by omega)
    have hrest := ih (Pbl.addrs_drop (k := min runLen as.length) has)
      (by rw [length_drop]; omega) (by rw [length_drop]; omega)
    rw [length_drop] at hrest
    simp only [hr, if_neg hn, hrest, ← htake, ← map_append, take_append_drop]

/-! ## Memory regions -/

/-- `uet_mr_buf_type_t` with the union it selects. -/
inductive MrBufKind where
  | contig (buf : Nat)
  | iov (iov : List Iovec)
  | pbl (pbl : Pbl)

/-- A contiguous buffer lies in the address space, a vector holds as many bytes as the
region is long. -/
def MrBufKind.Holds (len : Nat) : MrBufKind → Prop
  | .contig buf => buf + len ≤ 2 ^ 64
  | .iov v => len ≤ (iovAddrs v).length
  | .pbl _ => True

instance (len : Nat) (k : MrBufKind) : Decidable (k.Holds len) := by
  unfold MrBufKind.Holds
  split <;> infer_instance

/-- `struct uet_mr_buf_desc`: the length a region is registered with is the length of
its vector modulo `2 ^ 64`, so never more. -/
structure MrBuf where
  kind : MrBufKind
  len : Nat
  holds : kind.Holds len

def MrBuf.addrs (b : MrBuf) : Option (List Nat) :=
  match b.kind with
  | .contig buf => some (run buf b.len)
  | .iov iov => some ((iovAddrs iov).take b.len)
  | .pbl p => p.addrs 0 b.len

theorem MrBuf.length_addrs {b : MrBuf} {as : List Nat} (h : b.addrs = some as) : as.length = b.len := by
  have hh := b.holds
  cases hk : b.kind with
  | contig buf =>
    simp only [MrBuf.addrs, hk, some.injEq] at h
    rw [← h, length_run]
  | iov iov =>
    simp only [MrBuf.addrs, hk, some.injEq] at h
    simp only [hk, MrBufKind.Holds] at hh
    rw [← h, length_take]
    omega
  | pbl p =>
    simp only [MrBuf.addrs, hk] at h
    exact (Pbl.addrs_iff.1 h).1

/-- `uet_mr_scatter`. -/
def mrScatter (m : Mem) (b : MrBuf) (off : Nat) (bs : List Byte) : Mem × Nat :=
  if b.len < off ∨ b.len - off < bs.length then (m, 0)
  else
    match b.kind with
    | .contig buf => (memcpy m (buf + off) bs, bs.length)
    | .iov iov => scatterFlatToIov m iov bs off
    | .pbl p => p.copyIn b.len bs.length m off bs

/-- `uet_mr_gather`; fewer bytes than asked for is a short result. -/
def mrGather (m : Mem) (b : MrBuf) (off n : Nat) : List Byte :=
  if b.len < off ∨ b.len - off < n then []
  else
    match b.kind with
    | .contig buf => (run (buf + off) n).map m
    | .iov iov => gatherIovToFlat m iov n off
    | .pbl p => p.copyOut b.len m n off n

private theorem take_drop_take {α : Type} (as : List α) {off n len : Nat} (h : off + n ≤ len) :
    ((as.take len).drop off).take n = (as.drop off).take n := by
  rw [drop_take, take_take, Nat.min_eq_left (by omega)]

private theorem run_take_drop (buf : Nat) {off n len : Nat} (h : off + n ≤ len) :
    ((run buf len).drop off).take n = run (buf + off) n := by
  rw [drop_run, take_run, Nat.min_eq_left (by omega)]

theorem mrScatter_eq (m : Mem) {b : MrBuf} {as : List Nat} (h : b.addrs = some as) (off : Nat)
    (bs : List Byte) :
    mrScatter m b off bs =
      if off + bs.length ≤ b.len then (poke m (as.drop off) bs, bs.length) else (m, 0) := by
  by_cases hfit : off + bs.length ≤ b.len
  · rw [mrScatter, if_neg (by omega), if_pos hfit]
    cases hk : b.kind with
    | contig buf =>
      simp only [MrBuf.addrs, hk, some.injEq] at h
      subst h
      simp only [memcpy, ← run_take_drop buf hfit, poke_take]
    | iov iov =>
      simp only [MrBuf.addrs, hk, some.injEq] at h
      have hh : b.len ≤ (iovAddrs iov).length := by simpa only [hk, MrBufKind.Holds] using b.holds
      subst h
      simp only [scatterFlatToIov_eq]
      rw [← poke_take m (List.drop off (List.take b.len (iovAddrs iov))), take_drop_take _ hfit, poke_take]
      congr 1
      omega
    | pbl p =>
      simp only [MrBuf.addrs, hk] at h
      simp only [p.copyIn_eq (Pbl.addrs_window h hfit) hfit (Nat.le_refl _), poke_take]
  · rw [mrScatter, if_pos (by omega), if_neg hfit]

theorem mrGather_eq (m : Mem) {b : MrBuf} {as : List Nat} (h : b.addrs = some as) (off n : Nat) :
    mrGather m b off n = if off + n ≤ b.len then ((as.drop off).take n).map m else [] := by
  by_cases hfit : off + n ≤ b.len
  · rw [mrGather, if_neg (by omega), if_pos hfit]
    cases hk : b.kind with
    | contig buf =>
      simp only [MrBuf.addrs, hk, some.injEq] at h
      subst h
      simp only [run_take_drop buf hfit]
    | iov iov =>
      simp only [MrBuf.addrs, hk, some.injEq] at h
      subst h
      simp only [gatherIovToFlat_eq, take_drop_take _ hfit]
    | pbl p =>
      simp only [MrBuf.addrs, hk] at h
      simp only [p.copyOut_eq (Pbl.addrs_window h hfit) hfit (Nat.le_refl _)]
  · rw [mrGather, if_pos (by omega), if_neg hfit]

/-! ## Segment lists -/

/-- What the copies read of a memory region: its buffer, and the address that names its
first byte. -/
structure Region where
  buf : MrBuf
  baseVa : Nat

/-- `uet_mr_addr_to_offset`. -/
def Region.toOffset (r : Region) (addr len : Nat) : Option Nat :=
  if addr < r.baseVa then none
  else if r.buf.len < addr - r.baseVa ∨ r.buf.len - (addr - r.baseVa) < len then none
  else some (addr - r.baseVa)

theorem Region.toOffset_eq_some {r : Region} {addr len off : Nat} :
    r.toOffset addr len = some off ↔ addr = r.baseVa + off ∧ off + len ≤ r.buf.len := by
  rw [Region.toOffset]
  split
  · constructor
    · intro h
      cases h
    · omega
  · split
    · constructor
      · intro h
        cases h
      · omega
    · rw [some.injEq]
      omega

/-- `struct uet_mr_seg`; a NULL region is `none`. -/
structure MrSeg where
  addr : Nat
  len : Nat
  mr : Option Nat
  deriving DecidableEq, Repr

section

variable (mrs : Nat → Region)

/-- The loop of `uet_seg_copy` that locates the offset. -/
def segSkip : List MrSeg → Nat → List MrSeg × Nat
  | [], off => ([], off)
  | s :: ss, off => if off < s.len then (s :: ss, off) else segSkip ss (off - s.len)

/-- The copy loop of `uet_seg_copy` into the list. -/
def segFill (m : Mem) : List MrSeg → Nat → List Byte → Mem × Nat
  | [], _, _ => (m, 0)
  | s :: ss, within, bs =>
    if bs = [] then (m, 0)
    else
      let n := min (s.len - within) bs.length
      match s.mr with
      | none => (m, 0)
      | some i =>
        match (mrs i).toOffset (s.addr + within) n with
        | none => (m, 0)
        | some off =>
          let (m, moved) := mrScatter m (mrs i).buf off (bs.take n)
          if moved ≠ n then (m, 0)
          else
            let (m, k) := segFill m ss 0 (bs.drop n)
            (m, n + k)

/-- `scatter_flat_to_seg`. -/
def scatterFlatToSeg (m : Mem) (segs : List MrSeg) (bs : List Byte) (off : Nat) : Mem × Nat :=
  let (rest, within) := segSkip segs off
  segFill mrs m rest within bs

/-- The copy loop of `uet_seg_copy` out of the list. -/
def segCollect (m : Mem) : List MrSeg → Nat → Nat → List Byte
  | [], _, _ => []
  | s :: ss, within, len =>
    if len = 0 then []
    else
      let n := min (s.len - within) len
      match s.mr with
      | none => []
      | some i =>
        match (mrs i).toOffset (s.addr + within) n with
        | none => []
        | some off =>
          let got := mrGather m (mrs i).buf off n
          if got.length ≠ n then [] else got ++ segCollect m ss 0 (len - n)

/-- `gather_seg_to_flat`; fewer bytes than asked for is a short result. -/
def gatherSegToFlat (m : Mem) (segs : List MrSeg) (n off : Nat) : List Byte :=
  let (rest, within) := segSkip segs off
  segCollect mrs m rest within n

def MrSeg.addrs (s : MrSeg) : Option (List Nat) :=
  s.mr.bind fun i => ((mrs i).toOffset s.addr s.len).bind fun off =>
    (mrs i).buf.addrs.map fun as => (as.drop off).take s.len

def segAddrs : List MrSeg → Option (List Nat)
  | [] => some []
  | s :: ss => (s.addrs mrs).bind fun as => (segAddrs ss).map fun as' => as ++ as'

variable {mrs}

variable {as : List Nat} {segs : List MrSeg}

theorem MrSeg.addrs_eq_some {s : MrSeg} (h : s.addrs mrs = some as) :
    ∃ i off bytes, s.mr = some i ∧ s.addr = (mrs i).baseVa + off ∧
      off + s.len ≤ (mrs i).buf.len ∧ (mrs i).buf.addrs = some bytes ∧
      as = (bytes.drop off).take s.len ∧ as.length = s.len := by
  simp only [MrSeg.addrs, bind_eq_some_iff, map_eq_some_iff] at h
  obtain ⟨i, hi, off, hoff, bytes, hb, rfl⟩ := h
  obtain ⟨h1, h2⟩ := Region.toOffset_eq_some.1 hoff
  have hl := MrBuf.length_addrs hb
  refine ⟨i, off, bytes, hi, h1, h2, hb, rfl, ?_⟩
  rw [length_take, length_drop]
  omega

theorem segAddrs_cons {s : MrSeg} {ss : List MrSeg} (h : segAddrs mrs (s :: ss) = some as) :
    ∃ as1 as2, s.addrs mrs = some as1 ∧ segAddrs mrs ss = some as2 ∧ as = as1 ++ as2 := by
  simp only [segAddrs, bind_eq_some_iff, map_eq_some_iff] at h
  obtain ⟨as1, h1, as2, h2, rfl⟩ := h
  exact ⟨as1, as2, h1, h2, rfl⟩

/-- From offset `within` of the first segment on, the list is `n` bytes of one region and then
the other segments. -/
structure SegWindow (mrs : Nat → Region) (s : MrSeg) (ss : List MrSeg) (within : Nat) (as : List Nat) where
  i : Nat
  off : Nat
  bytes : List Nat
  rest : List Nat
  mr : s.mr = some i
  toOffset : ∀ n ≤ s.len - within, (mrs i).toOffset (s.addr + within) n = some off
  fits : off + (s.len - within) ≤ (mrs i).buf.len
  addrs : (mrs i).buf.addrs = some bytes
  others : segAddrs mrs ss = some rest
  window : as.drop within = (bytes.drop off).take (s.len - within) ++ rest
  length : ((bytes.drop off).take (s.len - within)).length = s.len - within

theorem segWindow {s : MrSeg} {ss : List MrSeg} {within : Nat} (h : segAddrs mrs (s :: ss) = some as)
    (hle : within ≤ s.len) : Nonempty (SegWindow mrs s ss within as) := by
  obtain ⟨as1, as2, h1, h2, rfl⟩ := segAddrs_cons h
  obtain ⟨i, off, bytes, hi, haddr, hfit, hb, has1, hl1⟩ := MrSeg.addrs_eq_some h1
  have hbl := MrBuf.length_addrs hb
  refine ⟨⟨i, off + within, bytes, as2, hi, fun n hn => ?_, by omega, hb, h2, ?_, ?_⟩⟩
  · exact Region.toOffset_eq_some.2 ⟨by omega, by omega⟩
  · rw [drop_append, hl1, Nat.sub_eq_zero_of_le hle, drop_zero, has1, drop_take, drop_drop]
  · rw [length_take, length_drop]
    omega

private theorem drop_past {α : Type} {as bs : List α} {n : Nat} (h : as.length ≤ n) :
    (as ++ bs).drop n = bs.drop (n - as.length) := by
  rw [drop_append, drop_of_length_le h, nil_append]

theorem segSkip_spec (h : segAddrs mrs segs = some as) (off : Nat) :
    ∃ as', segAddrs mrs (segSkip segs off).1 = some as' ∧
      as'.drop (segSkip segs off).2 = as.drop off ∧
      ∀ s ss, (segSkip segs off).1 = s :: ss → (segSkip segs off).2 < s.len := by
  induction segs generalizing as off with
  | nil =>
    cases h
    exact ⟨[], rfl, by simp, fun s ss hc => by cases hc⟩
  | cons s ss ih =>
    obtain ⟨as1, as2, h1, h2, rfl⟩ := segAddrs_cons h
    rw [segSkip]
    split
    · rename_i hlt
      exact ⟨as1 ++ as2, h, rfl, fun s' ss' hc => by cases hc; exact hlt⟩
    obtain ⟨-, -, -, -, -, -, -, -, hl⟩ := MrSeg.addrs_eq_some h1
    obtain ⟨as', ha, hd, hw⟩ := ih h2 (off - s.len)
    refine ⟨as', ha, ?_, hw⟩
    rw [hd, drop_past (by omega), hl]

section

variable (m : Mem) (h : segAddrs mrs segs = some as)
include m h

theorem segFill_eq (within : Nat) (bs : List Byte)
    (hw : ∀ s ss, segs = s :: ss → within ≤ s.len) : segFill mrs m segs within bs =
      (poke m (as.drop within) bs, min bs.length (as.length - within)) := by
  induction segs generalizing m as within bs with
  | nil =>
    cases h
    simp [segFill]
  | cons s ss ih =>
    obtain ⟨w⟩ := segWindow h (hw s ss rfl)
    have hlen := congrArg List.length w.window
    rw [length_append, w.length, length_drop] at hlen
    rw [segFill]
    split
    · rename_i hnil
      subst hnil
      simp
    have htake : bs.take (min (s.len - within) bs.length) = bs.take (s.len - within) :=
      take_eq_take_iff.2 (by omega)
    have hdrop : bs.drop (min (s.len - within) bs.length) = bs.drop (s.len - within) :=
      drop_eq_drop_iff.2 (by omega)
    have hfits := w.fits
    have hsc := mrScatter_eq m w.addrs w.off (bs.take (s.len - within))
    rw [length_take, if_pos (by omega), ← poke_take_left] at hsc
    have hrest := ih (poke m ((w.bytes.drop w.off).take (s.len - within)) bs) w.others 0
      (bs.drop (s.len - within)) (fun _ _ _ => Nat.zero_le _)
    simp only [w.mr, w.toOffset _ (Nat.min_le_left _ _), htake, hdrop, hsc, ne_eq, not_true_eq_false,
      if_false, hrest, drop_zero, w.window, poke_append, w.length, length_drop, Prod.mk.injEq, true_and]
    omega

theorem scatterFlatToSeg_eq (bs : List Byte) (off : Nat) :
    scatterFlatToSeg mrs m segs bs off = (poke m (as.drop off) bs, min bs.length (as.length - off)) := by
  obtain ⟨as', ha, hd, hw⟩ := segSkip_spec h off
  have hl := congrArg List.length hd
  rw [length_drop, length_drop] at hl
  simp only [scatterFlatToSeg]
  rw [segFill_eq m ha _ _ fun s ss hs => Nat.le_of_lt (hw s ss hs), hd, hl]

theorem segCollect_eq (within n : Nat) (hw : ∀ s ss, segs = s :: ss → within ≤ s.len) :
    segCollect mrs m segs within n = ((as.drop within).take n).map m := by
  induction segs generalizing as within n with
  | nil =>
    cases h
    simp [segCollect]
  | cons s ss ih =>
    obtain ⟨w⟩ := segWindow h (hw s ss rfl)
    rw [segCollect]
    split
    · rename_i hz
      simp [hz]
    have hfits := w.fits
    have hga := mrGather_eq m w.addrs w.off (min (s.len - within) n)
    rw [if_pos (by omega), Nat.min_comm, ← take_take, Nat.min_comm] at hga
    have hlen : (mrGather m (mrs w.i).buf w.off (min (s.len - within) n)).length = min (s.len - within) n := by
      rw [hga, length_map, length_take, w.length, Nat.min_comm]
    have hrest := ih w.others 0 (n - min (s.len - within) n) (fun _ _ _ => Nat.zero_le _)
    have hsub : n - (s.len - within) = n - min (s.len - within) n := by omega
    simp only [w.mr, w.toOffset _ (Nat.min_le_left _ _), hlen, ne_eq, not_true_eq_false, if_false]
    rw [hrest, hga, drop_zero, w.window, take_append, w.length, hsub, map_append]

theorem gatherSegToFlat_eq (n off : Nat) :
    gatherSegToFlat mrs m segs n off = ((as.drop off).take n).map m := by
  obtain ⟨as', ha, hd, hw⟩ := segSkip_spec h off
  simp only [gatherSegToFlat]
  rw [segCollect_eq m ha _ _ fun s ss hs => Nat.le_of_lt (hw s ss hs), hd]

end

end

end Uet.Ses
