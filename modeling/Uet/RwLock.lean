import Mathlib

/-!
# The read-write lock

`struct uet_rw_lock` with `n` users. Each load, exchange and unlock is a step; in between, the others may
take any steps of theirs.
-/

namespace Uet.RwLock

/-- `uet_rw_lock_access_t`. -/
inductive Access where
  | rd | wr
  deriving DecidableEq

/-- A user is outside, in a loop of `uet_rw_lock`, has loaded a value to become a reader, or is inside. -/
inductive User where
  | out
  | asks (a : Access)
  | saw (cur : BitVec 32)
  | holds (a : Access)
  deriving DecidableEq

/-- A step of `uet_rw_lock_rd`, `uet_rw_lock_wr` or `uet_rw_unlock`; -1 is `UET_RW_LOCK_WR_ACQUIRED_VAL`. -/
def User.step (a : Access) (val : BitVec 32) : User → BitVec 32 × User
  | out => (val, asks a)
  | asks .rd => (val, saw val)
  | asks .wr => if val = 0 then (-1, holds .wr) else (val, asks .wr)
  | saw cur => if cur ≠ -1 ∧ val = cur then (cur + 1, holds .rd) else (val, asks .rd)
  | holds .rd => (val - 1, out)
  | holds .wr => (val + 1, out)

structure Lock (n : Nat) where
  val : BitVec 32
  users : Vector User n

variable {n : Nat}

/-- `uet_rw_lock_init`. -/
def Lock.init (n : Nat) : Lock n := ⟨0, .replicate n .out⟩

def Lock.step (l : Lock n) (x : Fin n × Access) : Lock n :=
  let r := l.users[x.1].step x.2 l.val
  ⟨r.1, l.users.set x.1 r.2⟩

def Lock.inside (l : Lock n) (a : Access) : Nat := l.users.count (.holds a)

/-- One writer is inside and no reader, or as many readers as the value says. -/
def Lock.Exclusive (l : Lock n) : Prop :=
  l.val = -1 ∧ l.inside .wr = 1 ∧ l.inside .rd = 0 ∨ l.inside .wr = 0 ∧ l.val.toNat = l.inside .rd

theorem Lock.Exclusive.step {l : Lock n} (h : l.Exclusive) (hn : n < 2 ^ 32 - 1) (x : Fin n × Access) :
    (l.step x).Exclusive := by
  have hle : l.inside .rd ≤ n := Vector.count_le_size
  have hpos : 0 < l.users.count l.users[x.1] := Vector.count_pos_iff.mpr (by simp)
  have hset (u : User) (a : Access) : (l.users.set x.1 u).count (.holds a) = _ := Vector.count_set x.1.isLt
  unfold Exclusive inside Lock.step at *
  generalize hu : l.users[x.1] = u at *
  -- who enters or leaves changes one of the counts, and the value with it
  fun_cases User.step x.2 l.val u <;> simp [hset] at h ⊢ <;> bv_omega

/-- However the users take their steps, a writer is alone inside, and without one the value counts the readers. -/
theorem readers_or_writer (n : Fin (2 ^ 32 - 1)) (xs : List (Fin n × Access)) :
    (xs.foldl Lock.step (.init n)).Exclusive :=
  List.foldlRecOn xs Lock.step (.inr (by simp [Lock.init, Lock.inside, Vector.count_replicate]))
    fun _ h x _ => h.step n.isLt x

end Uet.RwLock
