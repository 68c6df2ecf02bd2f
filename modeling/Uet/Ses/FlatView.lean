import Uet.Ses.AddrConvention

/-!
# One flat view of every buffer

A buffer is the concatenation of its pieces: a contiguous buffer, the entries of a vector, the
pages of a page list, the segments of a segment list. `FlatCopy` says of a pair of copy routines
that they move bytes of this concatenation and touch nothing else, and `MrBuf.Piece` which piece
holds a byte. A page list of level 2 with pages too small for a directory entry has no view: the
routines divide by the number of entries.
-/

namespace Uet.Ses

open Flat List

/-! ## Copies -/

/-- Storing `bs` gives `put`, and `get` reads: both move `moved n` of `n` bytes from offset `off`
on, where the bytes of the buffer are at `as`. -/
structure FlatCopy (as : List Nat) (off : Nat) (moved : Nat → Nat) (bs : List Byte) (m : Mem) (put : Mem × Nat)
    (get : Mem → Nat → List Byte) : Prop where
  count : put.2 = moved bs.length
  bytes : ((as.drop off).take put.2).map put.1 = bs.take put.2
  rest : ∀ a, a ∉ (as.drop off).take put.2 → put.1 a = m a
  read : ∀ m' n, get m' n = ((as.drop off).take (moved n)).map m'
  back : get put.1 bs.length = bs.take put.2

section

variable {as : List Nat} {off : Nat} {bs : List Byte} {m : Mem} {put : Mem × Nat} {get : Mem → Nat → List Byte}

theorem FlatCopy.of_poke (hn : as.Nodup) {moved : Nat → Nat} (hle : moved bs.length ≤ min bs.length (as.length - off))
    (hput : put = (poke m (as.drop off) (bs.take (moved bs.length)), moved bs.length))
    (hget : ∀ m' n, get m' n = ((as.drop off).take (moved n)).map m') : FlatCopy as off moved bs m put get := by
  subst hput
  have hlen : (bs.take (moved bs.length)).length = moved bs.length := by
    rw [length_take]
    omega
  have hbytes := map_poke m (hn.sublist (drop_sublist off as)) (bs.take (moved bs.length))
  rw [hlen, length_drop, take_take, Nat.min_eq_right (by omega)] at hbytes
  refine ⟨rfl, hbytes, fun a ha => ?_, hget, (hget _ _).trans hbytes⟩
  rw [← poke_take, hlen]
  exact poke_of_not_mem ha

/-- The routines over lists move what there is. -/
theorem FlatCopy.of_min (hn : as.Nodup) (hput : put = (poke m (as.drop off) bs, min bs.length (as.length - off)))
    (hget : ∀ m' n, get m' n = ((as.drop off).take n).map m') :
    FlatCopy as off (fun n => min n (as.length - off)) bs m put get := by
  refine .of_poke hn (Nat.le_refl _) ?_ fun m' n => ?_
  · rw [hput, ← poke_take_left, ← length_drop, ← take_take, take_length, poke_take]
  · rw [hget, ← length_drop, ← take_take, take_length]

end

/-! ## Pieces -/

/-- Byte `off` of a vector is at `a` in one of its entries, `n` bytes before the end of the entry. -/
inductive InEntry : List Iovec → Nat → Nat → Nat → Prop
  | here {v : Iovec} {vs : List Iovec} {k : Nat} (lt : k < v.len) : InEntry (v :: vs) k (v.base + k) (v.len - k)
  | later {v : Iovec} {vs : List Iovec} {off a n : Nat} (h : InEntry vs off a n) : InEntry (v :: vs) (v.len + off) a n

/-- Byte `off` of the region is at `a`, and its piece goes on for `n` bytes from there. -/
inductive MrBuf.Piece (b : MrBuf) : Nat → Nat → Nat → Prop
  | contig {off buf : Nat} (kind : b.kind = .contig buf) : b.Piece off (buf + off) (b.len - off)
  | entry {iov : List Iovec} {off a n : Nat} (kind : b.kind = .iov iov) (h : InEntry iov off a n) : b.Piece off a n
  | root {p : Pbl} {off root : Nat} (kind : b.kind = .pbl p) (level : p.level = .zero root) :
    b.Piece off (root + (p.pageOffset + off)) (b.len - off)
  | page {p : Pbl} {off idx k base : Nat} (kind : b.kind = .pbl p) (level : ∀ root, p.level ≠ .zero root)
    (page : p.page idx = some base) (at_ : p.pageOffset + off = p.pageSize * idx + k) (lt : k < p.pageSize) :
    b.Piece off (base + k) (p.pageSize - k)

theorem iovLocate_iff {iov : List Iovec} {off a n : Nat} : iovLocate iov off = some (a, n) ↔ InEntry iov off a n := by
  induction iov generalizing off with
  | nil => exact ⟨nofun, nofun⟩
  | cons v vs ih =>
    rw [iovLocate]
    split
    · rename_i hlt
      refine ⟨fun h => by cases h; exact .here hlt, fun h => ?_⟩
      cases h with
      | here => rfl
      | later => omega
    · rw [ih]
      refine ⟨fun h => ?_, fun h => ?_⟩
      · rw [show off = v.len + (off - v.len) by omega]
        exact .later h
      · cases h with
        | here => omega
        | later h => rwa [Nat.add_sub_cancel_left]

theorem MrBuf.piece_iff {b : MrBuf} {off a n : Nat} : b.piece off = some (a, n) ↔ b.Piece off a n := by
  constructor
  · intro h
    unfold MrBuf.piece at h
    split at h
    · rename_i hk
      cases h
      exact .contig hk
    · rename_i hk
      exact .entry hk (iovLocate_iff.1 h)
    · rename_i p hk
      unfold Pbl.resolve at h
      split at h
      · rename_i hl
        cases h
        exact .root hk hl
      · rename_i hl
        obtain ⟨base, hp, he⟩ := Option.map_eq_some_iff.1 h
        cases he
        exact .page hk hl hp (Nat.div_add_mod ..).symm (Nat.mod_lt _ p.pageSize_pos)
  · intro h
    cases h with
    | contig hk => simp only [MrBuf.piece, hk]
    | entry hk h => simp only [MrBuf.piece, hk, iovLocate_iff.2 h]
    | root hk hl => simp only [MrBuf.piece, hk, Pbl.resolve, hl]
    | page hk hl hp hat hlt =>
      simp only [MrBuf.piece, hk, Pbl.resolve, hat, Nat.mul_add_div (Pbl.pageSize_pos _), Nat.mul_add_mod,
        Nat.div_eq_of_lt hlt, Nat.mod_eq_of_lt hlt, Nat.add_zero, hp, Option.map_some]

/-! ## Every buffer -/

/-- What `uet_mr_reg_pbl` checks of the page size and the offset in the first page. -/
def regPblOk (pageSize pageOffset : BitVec 32) : Bool :=
  !(pageSize == 0 || pageSize &&& (pageSize - 1) != 0) && !decide (pageSize ≤ pageOffset)

/-- A directory page holds an entry, so that `uet_mr_pbl_resolve` can divide by their number. -/
def MrBuf.divides (b : MrBuf) : Bool :=
  match b.kind with
  | .pbl ⟨shift, _, .two _⟩ => decide (0 < 2 ^ shift / 8)
  | _ => true

/-- The outcome of a routine that resolves `n` bytes from `off` on, none where it divides by zero. -/
def MrBuf.resolving {α : Type} (b : MrBuf) (off n : Nat) (r : α) : Option α :=
  if off + n ≤ b.len ∧ 0 < n ∧ b.divides = false then none else some r

/-- Two entries of 4 and 8 bytes with an empty one between. -/
def threeEntries : MrBuf := ⟨.iov [⟨4096, 4⟩, ⟨8192, 0⟩, ⟨12288, 8⟩], 12, by decide⟩

/-- A page of 4 bytes is accepted, and holds no entry of a directory. -/
def tinyPages : MrBuf := ⟨.pbl ⟨2, 0, .two fun _ => some fun i => some (4096 + 4 * i)⟩, 4, trivial⟩

end Uet.Ses
