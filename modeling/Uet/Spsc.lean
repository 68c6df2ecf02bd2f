import Uet.Guarded

/-!
# Single-producer single-consumer rings

A ring of `n` slots between two threads. Each thread owns one of two counters of `w` bits that
only grow, wrapping around, and reads the other one now and then: what it goes by may be old.
The producer writes entries behind its counter and then publishes them all at once; the
consumer reads entries and then gives their slots back all at once. Both may leave a batch
without effect. `idx` maps a counter to a slot.

`Fifo` says that the ring is a queue. It holds in every state of a run in which the producer
never finds the slot it writes in use (`WritesFree`).
-/

namespace Uet.Spsc

open Guarded List Function

variable {α : Type*} {w : Nat}

/-- The shared memory of a ring, what each thread has loaded and has in hand, and what has
been published and delivered so far. -/
structure Ring (α : Type*) (w : Nat) where
  slot : Nat → α
  producer : BitVec w
  consumer : BitVec w
  pSeen : BitVec w
  staged : List α
  cSeen : BitVec w
  taken : List α
  published : List α
  delivered : List α

/-- A ring whose slots all hold `a`. -/
def Ring.init (w : Nat) (a : α) : Ring α w := ⟨fun _ => a, 0, 0, 0, [], 0, [], [], []⟩

inductive Ev (α : Type*) where
  /-- the producer loads the consumer's counter -/
  | pLoad
  /-- the producer writes its next entry -/
  | write (a : α)
  /-- the producer stores its counter -/
  | publish
  /-- the producer gives the batch up -/
  | pAbandon
  /-- the consumer loads the producer's counter -/
  | cLoad
  /-- the consumer reads its next entry -/
  | read
  /-- the consumer stores its counter -/
  | release
  /-- the consumer gives the batch up -/
  | cAbandon

section

variable (n : Nat) (idx : BitVec w → Nat)

def Ring.next (r : Ring α w) : BitVec w := r.producer + BitVec.ofNat w r.staged.length

def Ring.hasRoom (r : Ring α w) : Bool := (r.next - r.pSeen).toNat < n

def Ring.hasEntry (r : Ring α w) : Bool := r.taken.length < (r.cSeen - r.consumer).toNat

def Ring.step (r : Ring α w) : Ev α → Ring α w
  | .pLoad => { r with pSeen := r.consumer, staged := [] }
  | .write a =>
    if r.hasRoom n then
      { r with slot := update r.slot (idx r.next) a, staged := r.staged ++ [a] }
    else r
  | .publish => { r with producer := r.next, staged := [], published := r.published ++ r.staged }
  | .pAbandon => { r with staged := [] }
  | .cLoad => { r with cSeen := r.producer, taken := [] }
  | .read =>
    if r.hasEntry then
      { r with taken := r.taken ++ [r.slot (idx (r.consumer + BitVec.ofNat w r.taken.length))] }
    else r
  | .release =>
    { r with consumer := r.consumer + BitVec.ofNat w r.taken.length
             taken := [], delivered := r.delivered ++ r.taken }
  | .cAbandon => { r with taken := [] }

def Ring.inUse (r : Ring α w) : Nat := (r.next - r.consumer).toNat

theorem Ring.next_eq_add (r : Ring α w) : r.next = r.consumer + BitVec.ofNat w r.inUse := by
  rw [Ring.inUse, BitVec.ofNat_toNat, BitVec.setWidth_eq, BitVec.add_comm, BitVec.sub_add_cancel]

/-- No entry in use is in the slot of counter `c`. -/
def Ring.Free (r : Ring α w) (c : BitVec w) : Prop :=
  ∀ i, i < r.inUse → idx (r.consumer + BitVec.ofNat w i) ≠ idx c

def WritesFree (r : Ring α w) : Ev α → Prop
  | .write _ => r.hasRoom n = true → r.Free idx r.next
  | _ => True

/-- The ring is a queue: what has been delivered is what was published first, the
counters count what is pending, which fits the ring and is there to be read. -/
structure Fifo (r : Ring α w) : Prop where
  order : r.delivered ++ r.taken <+: r.published
  count : (r.producer - r.consumer).toNat = r.published.length - r.delivered.length
  bound : (r.producer - r.consumer).toNat ≤ n
  intact : ∀ i a, r.published[r.delivered.length + i]? = some a →
    r.slot (idx (r.consumer + BitVec.ofNat w i)) = a

end

/-! ## Counters -/

theorem ofNat_add (w a b : Nat) : BitVec.ofNat w a + BitVec.ofNat w b = BitVec.ofNat w (a + b) :=
  (BitVec.ofNat_add a b).symm

theorem toNat_sub_ofNat {a b : Nat} (h : a ≤ b) (hlt : b - a < 2 ^ w) :
    (BitVec.ofNat w b - BitVec.ofNat w a).toNat = b - a := by
  have hb : BitVec.ofNat w b = BitVec.ofNat w a + BitVec.ofNat w (b - a) := by
    rw [ofNat_add, Nat.add_sub_cancel' h]
  rw [hb, BitVec.add_comm, BitVec.add_sub_cancel, BitVec.toNat_ofNat, Nat.mod_eq_of_lt hlt]

/-! ## The invariant -/

variable {n : Nat} {idx : BitVec w → Nat}

/-- The counters are the numbers of entries modulo a turn; what a thread has loaded is an
earlier value of the other counter, `pc` and `cp` entries in; entries in use are in their slots. -/
structure Inv (n : Nat) (idx : BitVec w → Nat) (r : Ring α w) (pc cp : Nat) : Prop where
  producer : r.producer = BitVec.ofNat w r.published.length
  consumer : r.consumer = BitVec.ofNat w r.delivered.length
  pSeen : r.pSeen = BitVec.ofNat w pc
  cSeen : r.cSeen = BitVec.ofNat w cp
  pOld : pc ≤ r.delivered.length
  cOld : cp ≤ r.published.length
  room : r.published.length + r.staged.length ≤ pc + n
  read : r.delivered.length + r.taken.length ≤ cp
  order : r.delivered ++ r.taken <+: r.published
  slots : ∀ i a, (r.published ++ r.staged)[r.delivered.length + i]? = some a →
    r.slot (idx (BitVec.ofNat w (r.delivered.length + i))) = a

section

variable {r : Ring α w} {pc cp : Nat}

theorem inv_init (a : α) : Inv n idx (Ring.init w a) 0 0 := by
  constructor <;> simp [Ring.init]

section

variable (h : Inv n idx r pc cp)
include h

theorem Inv.next_eq : r.next = BitVec.ofNat w (r.published.length + r.staged.length) := by
  rw [Ring.next, h.producer, ofNat_add]

theorem Inv.fifo (hn : n < 2 ^ w) : Fifo n idx r := by
  have hread := h.read
  have hroom := h.room
  have hpOld := h.pOld
  have hcOld := h.cOld
  have hcount : (r.producer - r.consumer).toNat = r.published.length - r.delivered.length := by
    rw [h.producer, h.consumer]
    exact toNat_sub_ofNat (by omega) (by omega)
  refine ⟨h.order, hcount, by omega, fun i a ha => ?_⟩
  rw [h.consumer, ofNat_add]
  apply h.slots i a
  rw [getElem?_append_left (List.getElem?_eq_some_iff.1 ha).1]
  exact ha

theorem Inv.write (hn : n < 2 ^ w) {a : α} (hroom : r.hasRoom n = true) (hfree : r.Free idx r.next) :
    Inv n idx { r with slot := update r.slot (idx r.next) a, staged := r.staged ++ [a] } pc cp := by
  have hold := h.room
  have hpOld := h.pOld
  have hread := h.read
  have hcOld := h.cOld
  have hlt : r.published.length + r.staged.length - pc < n := by
    rw [Ring.hasRoom, decide_eq_true_eq, h.next_eq, h.pSeen, toNat_sub_ofNat (by omega) (by omega)] at hroom
    exact hroom
  refine { h with room := ?_, slots := fun i b hb => ?_ }
  · simp only [length_append, length_singleton]
    omega
  · dsimp only at hb ⊢
    rw [← append_assoc] at hb
    rcases Nat.lt_or_ge (r.delivered.length + i) (r.published ++ r.staged).length with hi | hi
    · -- an entry that was there: its slot is not the one written
      rw [getElem?_append_left hi] at hb
      rw [length_append] at hi
      have hne := hfree i (by
        rw [Ring.inUse, h.next_eq, h.consumer, toNat_sub_ofNat (by omega) (by omega)]
        omega)
      rw [h.consumer, ofNat_add] at hne
      rw [update_of_ne hne]
      exact h.slots i b hb
    · -- the entry written
      obtain ⟨hlen, hget⟩ := List.getElem?_eq_some_iff.1 hb
      simp only [length_append, length_singleton] at hi hlen
      have hlast : r.delivered.length + i = (r.published ++ r.staged).length := by
        rw [length_append]
        omega
      rw [hlast, getElem?_concat_length] at hb
      rw [hlast, length_append, ← h.next_eq, update_self]
      exact Option.some.inj hb

theorem Inv.take (hn : n < 2 ^ w) (hentry : r.hasEntry = true) :
    Inv n idx { r with
      taken := r.taken ++ [r.slot (idx (r.consumer + BitVec.ofNat w r.taken.length))] } pc cp := by
  have hroom := h.room
  have hpOld := h.pOld
  have hread := h.read
  have hcOld := h.cOld
  have hlt : r.delivered.length + r.taken.length < cp := by
    rw [Ring.hasEntry, decide_eq_true_eq, h.cSeen, h.consumer,
      toNat_sub_ofNat (by omega) (by omega)] at hentry
    omega
  have hpub : r.delivered.length + r.taken.length < r.published.length := by omega
  have hslot := h.slots r.taken.length (r.published[r.delivered.length + r.taken.length]) (by
    rw [getElem?_append_left hpub, getElem?_eq_getElem hpub])
  refine { h with read := ?_, order := ?_ }
  · simp only [length_append, length_singleton]
    omega
  · rw [h.consumer, ofNat_add, hslot, ← append_assoc]
    obtain ⟨rest, hrest⟩ := h.order
    have hdrop := drop_eq_getElem_cons hpub
    refine ⟨r.published.drop (r.delivered.length + r.taken.length + 1), ?_⟩
    rw [append_assoc, singleton_append, ← hdrop]
    have hpre : r.delivered ++ r.taken = r.published.take (r.delivered.length + r.taken.length) := by
      rw [← hrest, ← length_append, take_left]
    rw [hpre, take_append_drop]

theorem Inv.release : Inv n idx (r.step n idx .release) pc cp := by
  have hpOld := h.pOld
  have hlen : (r.delivered ++ r.taken).length = r.delivered.length + r.taken.length := length_append
  constructor
  case consumer => simp only [Ring.step, h.consumer, ofNat_add, hlen]
  case pOld =>
    simp only [Ring.step, hlen]
    omega
  case read =>
    simp only [Ring.step, hlen, length_nil, Nat.add_zero]
    exact h.read
  case order => simpa [Ring.step] using h.order
  case slots =>
    intro i a ha
    simp only [Ring.step, hlen, Nat.add_assoc] at ha ⊢
    exact h.slots _ a ha
  all_goals first
    | exact h.producer
    | exact h.pSeen
    | exact h.cSeen
    | exact h.cOld
    | exact h.room

theorem Inv.step (hn : n < 2 ^ w) {ev : Ev α} (hev : WritesFree n idx r ev) :
    ∃ pc' cp', Inv n idx (r.step n idx ev) pc' cp' := by
  have hread := h.read
  have hroom := h.room
  have hpOld := h.pOld
  have hcOld := h.cOld
  have hdrop : ∀ i a, (r.published ++ [])[r.delivered.length + i]? = some a →
      r.slot (idx (BitVec.ofNat w (r.delivered.length + i))) = a := by
    intro i a ha
    rw [append_nil] at ha
    apply h.slots i a
    rw [getElem?_append_left (List.getElem?_eq_some_iff.1 ha).1]
    exact ha
  have hprefix : r.delivered ++ [] <+: r.published := by
    rw [append_nil]
    exact (prefix_append _ _).trans h.order
  cases ev with
  | pLoad =>
    refine ⟨r.delivered.length, cp, { h with
      pSeen := h.consumer, pOld := Nat.le_refl _, room := ?_, slots := hdrop }⟩
    simp only [Ring.step, length_nil]
    omega
  | write a =>
    refine ⟨pc, cp, ?_⟩
    rw [Ring.step]
    split
    · rename_i hroom
      exact h.write hn hroom (hev hroom)
    · exact h
  | publish =>
    refine ⟨pc, cp, { h with producer := ?_, cOld := ?_, room := ?_, order := ?_, slots := ?_ }⟩
    · simp only [Ring.step, h.next_eq, length_append]
    · simp only [Ring.step, length_append]
      omega
    · simpa [Ring.step] using hroom
    · exact h.order.trans (prefix_append _ _)
    · intro i a ha
      simp only [Ring.step, append_nil] at ha
      exact h.slots i a ha
  | pAbandon =>
    refine ⟨pc, cp, { h with room := ?_, slots := hdrop }⟩
    simp only [Ring.step, length_nil]
    omega
  | cLoad =>
    refine ⟨pc, r.published.length, { h with
      cSeen := h.producer, cOld := Nat.le_refl _, read := ?_, order := hprefix }⟩
    simp only [Ring.step, length_nil]
    omega
  | read =>
    refine ⟨pc, cp, ?_⟩
    rw [Ring.step]
    split
    · rename_i hentry
      exact h.take hn hentry
    · exact h
  | release => exact ⟨pc, cp, h.release⟩
  | cAbandon =>
    refine ⟨pc, cp, { h with read := ?_, order := hprefix }⟩
    simp only [Ring.step, length_nil]
    omega

end

def Good (n : Nat) (idx : BitVec w → Nat) (r : Ring α w) : Prop := ∃ pc cp, Inv n idx r pc cp

/-- A producer that has room has less than `n` entries in use. -/
theorem Good.inUse_lt (h : Good n idx r) (hn : n < 2 ^ w) (hroom : r.hasRoom n = true) : r.inUse < n := by
  obtain ⟨pc, cp, h⟩ := h
  have hold := h.room
  have hpOld := h.pOld
  have hread := h.read
  have hcOld := h.cOld
  rw [Ring.hasRoom, decide_eq_true_eq, h.next_eq, h.pSeen, toNat_sub_ofNat (by omega) (by omega)] at hroom
  rw [Ring.inUse, h.next_eq, h.consumer, toNat_sub_ofNat (by omega) (by omega)]
  omega

/-- The rule for runs: where the condition on the steps keeps the producer from a slot in use,
the ring is a queue, wherever the run stands. -/
theorem fifo_run (hw : n < 2 ^ w) (a : α) {C : Ring α w → Ev α → Prop}
    (hC : ∀ r ev, Good n idx r → C r ev → WritesFree n idx r ev) {evs : List (Ev α)}
    (h : Meets (Ring.step n idx) C (Ring.init w a) evs) :
    Fifo n idx (evs.foldl (Ring.step n idx) (Ring.init w a)) := by
  have hstep : ∀ r ev, Good n idx r → C r ev → Good n idx (r.step n idx ev) := by
    intro r ev hr hev
    obtain ⟨pc, cp, hinv⟩ := hr
    exact hinv.step hw (hC r ev ⟨pc, cp, hinv⟩ hev)
  obtain ⟨pc, cp, hinv⟩ := h.keep hstep ⟨0, 0, inv_init a⟩
  exact hinv.fifo hw

/-- The slots of fewer than `n` counters in a row and of the one after them differ. -/
def Apart (n : Nat) (idx : BitVec w → Nat) : Prop :=
  ∀ (c : BitVec w) (i m : Nat), i < m → m < n →
    idx (c + BitVec.ofNat w i) ≠ idx (c + BitVec.ofNat w m)

theorem Good.step (h : Good n idx r) (hn : n < 2 ^ w) (hapart : Apart n idx) (ev : Ev α) :
    Good n idx (r.step n idx ev) := by
  have hfree : WritesFree n idx r ev := by
    cases ev with
    | write a =>
      intro hroom i hi
      rw [r.next_eq_add]
      exact hapart r.consumer i r.inUse hi (h.inUse_lt hn hroom)
    | _ => trivial
  obtain ⟨pc, cp, hinv⟩ := h
  exact hinv.step hn hfree

theorem Good.order (h : Good n idx r) : r.delivered ++ r.taken <+: r.published := by
  obtain ⟨pc, cp, h⟩ := h
  exact h.order

theorem Good.available_le (h : Good n idx r) (hn : n < 2 ^ w) :
    (r.cSeen - r.consumer).toNat ≤ r.published.length - r.delivered.length ∧
      (r.cSeen - r.consumer).toNat ≤ n := by
  obtain ⟨pc, cp, h⟩ := h
  have hroom := h.room
  have hpOld := h.pOld
  have hread := h.read
  have hcOld := h.cOld
  rw [h.cSeen, h.consumer, toNat_sub_ofNat (by omega) (by omega)]
  omega

theorem good_init (a : α) : Good n idx (Ring.init w a) := ⟨0, 0, inv_init a⟩

/-! ## Batches -/

def Ring.writeAll (n : Nat) (idx : BitVec w → Nat) (r : Ring α w) (l : List α) : Ring α w :=
  l.foldl (fun r a => r.step n idx (.write a)) r

/-- The consumer reads `k` entries. -/
def Ring.readAll (n : Nat) (idx : BitVec w → Nat) (r : Ring α w) : Nat → Ring α w
  | 0 => r
  | k + 1 => (r.readAll n idx k).step n idx .read

/-- The producer has room for `k` entries, as far as it knows. -/
theorem Good.hasRoom (h : Good n idx r) (hn : n < 2 ^ w) {k : Nat}
    (hk : (r.producer - r.pSeen).toNat + r.staged.length + k ≤ n) (hpos : 0 < k) : r.hasRoom n = true := by
  obtain ⟨pc, cp, h⟩ := h
  have hroom := h.room
  have hpOld := h.pOld
  have hread := h.read
  have hcOld := h.cOld
  rw [h.producer, h.pSeen, toNat_sub_ofNat (by omega) (by omega)] at hk
  rw [Ring.hasRoom, decide_eq_true_eq, h.next_eq, h.pSeen, toNat_sub_ofNat (by omega) (by omega)]
  omega

theorem Good.writeAll (h : Good n idx r) (hn : n < 2 ^ w) (hapart : Apart n idx) {l : List α}
    (hl : (r.producer - r.pSeen).toNat + r.staged.length + l.length ≤ n) :
    Good n idx (r.writeAll n idx l) ∧
      ∃ slot, r.writeAll n idx l = { r with slot, staged := r.staged ++ l } := by
  induction l generalizing r with
  | nil => exact ⟨h, r.slot, by rw [append_nil]; rfl⟩
  | cons a l ih =>
    rw [length_cons] at hl
    have hroom := h.hasRoom hn (k := l.length + 1) hl (Nat.succ_pos _)
    have hstep : r.step n idx (.write a) =
        { r with slot := update r.slot (idx r.next) a, staged := r.staged ++ [a] } := by
      rw [Ring.step, if_pos hroom]
    have hnext := h.step hn hapart (.write a)
    rw [hstep] at hnext
    obtain ⟨hgood, slot, heq⟩ := ih hnext (by
      simp only [length_append, length_singleton]
      omega)
    have hrun : r.writeAll n idx (a :: l) = Ring.writeAll n idx (r.step n idx (.write a)) l := rfl
    rw [hrun, hstep]
    refine ⟨hgood, slot, ?_⟩
    rw [heq]
    simp only [append_assoc, singleton_append]

theorem Good.readAll (h : Good n idx r) (hn : n < 2 ^ w) (hapart : Apart n idx)
    (htaken : r.taken = []) {k : Nat} (hk : k ≤ (r.cSeen - r.consumer).toNat) :
    Good n idx (r.readAll n idx k) ∧
      r.readAll n idx k = { r with taken := (r.published.drop r.delivered.length).take k } ∧
      k ≤ r.published.length - r.delivered.length := by
  induction k with
  | zero =>
    refine ⟨h, ?_, Nat.zero_le _⟩
    rw [take_zero, ← htaken]
    rfl
  | succ k ih =>
    obtain ⟨hgood, heq, hle⟩ := ih (by omega)
    have hstep := hgood.step hn hapart .read
    have hlen : ((r.published.drop r.delivered.length).take k).length = k := by
      rw [length_take, length_drop]
      omega
    have hentry : (r.readAll n idx k).hasEntry = true := by
      rw [heq, Ring.hasEntry, decide_eq_true_eq, hlen]
      exact hk
    have hread : r.readAll n idx (k + 1) = { r with taken := (r.published.drop r.delivered.length).take k ++
        [r.slot (idx (r.consumer + BitVec.ofNat w k))] } := by
      rw [Ring.readAll, Ring.step, if_pos hentry, heq]
      simp only [hlen]
    rw [← Ring.readAll] at hstep
    refine ⟨hstep, ?_⟩
    -- what has been read is what was published next
    obtain ⟨pc, cp, hinv⟩ := hstep
    have horder := hinv.order
    rw [hread] at horder
    obtain ⟨rest, hrest⟩ := horder
    have hcons : (r.published.drop r.delivered.length) = (r.published.drop r.delivered.length).take k ++
          ([r.slot (idx (r.consumer + BitVec.ofNat w k))] ++ rest) := by
      have hdrop := congrArg (List.drop r.delivered.length) hrest
      rw [append_assoc, drop_left, append_assoc] at hdrop
      exact hdrop.symm
    have hkle : k + 1 ≤ r.published.length - r.delivered.length := by
      have hl := congrArg List.length hcons
      simp only [length_append, length_drop, hlen, length_singleton] at hl
      omega
    refine ⟨?_, hkle⟩
    rw [hread]
    congr 1
    have hget : (r.published.drop r.delivered.length)[k]? =
        some (r.slot (idx (r.consumer + BitVec.ofNat w k))) := by
      rw [hcons, getElem?_append_right (Nat.le_of_eq hlen), hlen, Nat.sub_self]
      rfl
    rw [take_add_one, hget]
    rfl

end

end Uet.Spsc
