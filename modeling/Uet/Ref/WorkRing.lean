import Uet.Dev.Datapath
import Uet.Guarded

/-!
# Posting work requests

The provider's side of the two work rings of a queue pair: the posts of `ibv_post_send`,
`ibv_post_recv` and `ibv_post_recv64`, and the builder between `ibv_wr_start` and
`ibv_wr_complete` or `ibv_wr_abort`. The producer index moves while requests are built, and a
doorbell tells the device the index as it is then.

Every request is marked with the call it belongs to and its place in that call, so that what the
device executes can be traced back.

Nothing moves the producer index back. The requests of a batch that is given up, and those before
the one that fails a post, stay behind it and go out with the next doorbell (`NoneLeft` leaves
these out).
-/

namespace Uet.Ref

open Guarded List Function
open Dev (Wqe Sge)

inductive Errno where
  | einval | enomem | eopnotsupp
  deriving DecidableEq

/-! ## Requests -/

/-- `enum ibv_wr_opcode`, as far as the provider knows it. -/
inductive SendOp where
  | send | sendWithImm | rdmaWrite | rdmaWriteWithImm | rdmaRead | other
  deriving DecidableEq

/-- `struct ibv_send_wr`. The two lists are readings of one union; `ah` is the handle of the
address handle, and `immData` is as `be32toh` gives it. -/
structure SendWr where
  wrId : BitVec 64
  opcode : SendOp
  numSge : Int
  ah : Option Nat
  addrIdx : Nat
  jkey : Nat
  immData : BitVec 32
  remoteAddr : BitVec 64
  rkey64 : BitVec 64
  signaled : Bool
  sge64 : Bool
  sgList : Nat → Sge
  sg64List : Nat → Sge

/-- `struct ibv_recv_wr` and `struct ibv_recv_wr64`, which differ in the width of a key. -/
structure RecvWr where
  wrId : BitVec 64
  numSge : Int
  sgList : Nat → Sge

/-- An entry after `memset`. -/
def zeroWqe : Wqe :=
  { wrId := 0, opcode := .send, signaled := false, ah := false, numSge := 0, addrIndex := 0, jkey := 0
    imm := 0, remoteAddr := 0, remoteKey := 0, sge := fun _ => ⟨0, 0, 0⟩ }

def copySges (num : Int) (list : Nat → Sge) : Nat → Sge := fun i => if (i : Int) < num then list i else ⟨0, 0, 0⟩

def numField (num : Int) : Nat := (num % 2 ^ 32).toNat

/-- `uet_ref_fill_wqe`: what the slot holds after it, and its result. -/
def fillWqe (old : Wqe) (wr : SendWr) (maxSge : Nat) : Wqe × Option Errno :=
  if (maxSge : Int) < wr.numSge then (old, some .einval)
  else
    let w : Wqe :=
      { zeroWqe with
          wrId := wr.wrId, numSge := numField wr.numSge, addrIndex := wr.ah.getD wr.addrIdx
          ah := wr.ah.isSome, jkey := wr.jkey }
    let rest (w : Wqe) : Wqe × Option Errno :=
      ({ w with signaled := wr.signaled
                sge := copySges wr.numSge (if wr.sge64 then wr.sg64List else wr.sgList) }, none)
    match wr.opcode with
    | .send => rest { w with opcode := .send }
    | .sendWithImm => rest { w with opcode := .sendImm, imm := wr.immData.setWidth 64 }
    | .rdmaWrite => rest { w with opcode := .rdmaWrite, remoteAddr := wr.remoteAddr, remoteKey := wr.rkey64 }
    | .rdmaWriteWithImm =>
      rest { w with opcode := .rdmaWriteImm, remoteAddr := wr.remoteAddr, remoteKey := wr.rkey64
                    imm := wr.immData.setWidth 64 }
    | .rdmaRead => rest { w with opcode := .rdmaRead, remoteAddr := wr.remoteAddr, remoteKey := wr.rkey64 }
    | .other => (w, some .eopnotsupp)

def recvWqe (wr : RecvWr) : Wqe :=
  { zeroWqe with wrId := wr.wrId, opcode := .recv, numSge := numField wr.numSge, sge := copySges wr.numSge wr.sgList }

/-! ## Rings -/

/-- The mark of a request: the call that built it, and its place among the requests of that call. -/
structure Tag where
  call : Nat
  pos : Nat
  deriving DecidableEq

structure Slot where
  tag : Option Tag
  wqe : Wqe

/-- `struct uet_ref_ring` of a work ring; `buf` says whether it has memory. -/
structure Ring where
  buf : Bool
  entries : Nat
  prod : BitVec 32
  cons : BitVec 32
  slot : Nat → Slot

namespace Ring

/-- `uet_ref_ring_alloc`, with the depth it rounds to. -/
def alloc (buf : Bool) (entries : Nat) : Ring := ⟨buf, entries, 0, 0, fun _ => ⟨none, zeroWqe⟩⟩

def full (r : Ring) : Bool := decide (r.entries ≤ (r.prod - r.cons).toNat)

def next (r : Ring) : Nat := r.prod.toNat % r.entries

def write (r : Ring) (s : Slot) : Ring := { r with slot := update r.slot r.next s }

def advance (r : Ring) : Ring := { r with prod := r.prod + 1 }

def Marks (r : Ring) (P : Tag → Prop) : Prop := ∀ i t, (r.slot i).tag = some t → P t

theorem marks_alloc (buf : Bool) (entries : Nat) (P : Tag → Prop) : (alloc buf entries).Marks P :=
  fun _ _ h => nomatch h

theorem Marks.mono {r : Ring} {P Q : Tag → Prop} (h : r.Marks P) (hpq : ∀ t, P t → Q t) : r.Marks Q :=
  fun i t ht => hpq t (h i t ht)

theorem Marks.write {r : Ring} {P : Tag → Prop} {s : Slot} (h : r.Marks P) (hs : ∀ t, s.tag = some t → P t) :
    (r.write s).Marks P := by
  intro i t ht
  simp only [Ring.write, update_apply] at ht
  split at ht
  · exact hs t ht
  · exact h i t ht

end Ring

/-- A turn of the loop of `uet_ref_post_send`. -/
def sendOne (maxSge : Nat) (r : Ring) (tag : Tag) (wr : SendWr) : Ring × Option Errno :=
  if r.full then (r, some .enomem)
  else
    match fillWqe (r.slot r.next).wqe wr maxSge with
    | (w, some e) => (r.write ⟨none, w⟩, some e)
    | (w, none) => ((r.write ⟨some tag, w⟩).advance, none)

/-- A turn of the loops of `uet_ref_post_recv` and `uet_ref_post_recv64`. -/
def recvOne (maxSge : Nat) (r : Ring) (tag : Tag) (wr : RecvWr) : Ring × Option Errno :=
  if (maxSge : Int) < wr.numSge then (r, some .einval)
  else if r.full then (r, some .enomem)
  else ((r.write ⟨some tag, recvWqe wr⟩).advance, none)

/-- What a loop over requests leaves: the ring, the number of requests built, and the error
that ended it. -/
structure Posted where
  ring : Ring
  count : Nat
  err : Option Errno

/-- The loop over the requests of a post, of which `pos` are built. -/
def postLoop {W : Type} (one : Ring → Tag → W → Ring × Option Errno) (call pos : Nat) (r : Ring) : List W → Posted
  | [] => ⟨r, 0, none⟩
  | wr :: wrs =>
    match one r ⟨call, pos⟩ wr with
    | (r', some e) => ⟨r', 0, some e⟩
    | (r', none) =>
      let p := postLoop one call (pos + 1) r' wrs
      ⟨p.ring, p.count + 1, p.err⟩

/-- A turn of a loop either builds the request or fails and builds none. It writes no slot unless
there is room. -/
inductive Builds (r : Ring) (tag : Tag) : Ring × Option Errno → Prop where
  | built (room : r.full = false) (w : Wqe) : Builds r tag ((r.write ⟨some tag, w⟩).advance, none)
  | spoiled (room : r.full = false) (w : Wqe) (e : Errno) : Builds r tag (r.write ⟨none, w⟩, some e)
  | failed (e : Errno) : Builds r tag (r, some e)

theorem sendOne_builds (maxSge : Nat) (r : Ring) (tag : Tag) (wr : SendWr) :
    Builds r tag (sendOne maxSge r tag wr) := by
  unfold sendOne
  split
  · exact .failed .enomem
  rename_i hroom
  split
  · exact .spoiled (Bool.eq_false_iff.mpr hroom) _ _
  · exact .built (Bool.eq_false_iff.mpr hroom) _

theorem recvOne_builds (maxSge : Nat) (r : Ring) (tag : Tag) (wr : RecvWr) :
    Builds r tag (recvOne maxSge r tag wr) := by
  unfold recvOne
  split
  · exact .failed .einval
  split
  · exact .failed .enomem
  · rename_i hroom
    exact .built (Bool.eq_false_iff.mpr hroom) _

theorem Builds.marks {r : Ring} {tag : Tag} {o : Ring × Option Errno} (ho : Builds r tag o) {P : Tag → Prop}
    (h : r.Marks P) (htag : o.2 = none → P tag) : o.1.Marks P := by
  cases ho with
  | built _ w =>
    apply Ring.Marks.write h
    intro t ht
    cases ht
    exact htag rfl
  | spoiled _ w e => exact h.write fun t ht => nomatch ht
  | failed e => exact h

section

variable {W : Type} {one : Ring → Tag → W → Ring × Option Errno} (hone : ∀ r tag wr, Builds r tag (one r tag wr))

include hone

theorem postLoop_marks (call : Nat) (wrs : List W) (P : Tag → Prop) (pos : Nat) (r : Ring) (h : r.Marks P)
    (hnew : ∀ i, pos ≤ i → i < pos + (postLoop one call pos r wrs).count → P ⟨call, i⟩) :
    (postLoop one call pos r wrs).ring.Marks P := by
  induction wrs generalizing pos r with
  | nil => exact h
  | cons wr wrs ih =>
    have hb := hone r ⟨call, pos⟩ wr
    simp only [postLoop] at hnew ⊢
    split
    · rename_i r' e he
      rw [he] at hb
      exact hb.marks h (fun hn => nomatch hn)
    rename_i r' he
    rw [he] at hb hnew
    dsimp only at hnew ⊢
    apply ih
    · exact hb.marks h fun _ => hnew pos le_rfl (by omega)
    · intro i hi hlt
      exact hnew i (by omega) (by omega)

end

/-! ## The builder -/

inductive BuildOp where
  | send
  | sendImm (imm : BitVec 32)
  | sendImm64 (imm : BitVec 64)
  | rdmaWrite (rkey : BitVec 32) (addr : BitVec 64)
  | rdmaWrite64 (rkey addr : BitVec 64)
  | rdmaRead (rkey : BitVec 32) (addr : BitVec 64)
  | rdmaRead64 (rkey addr : BitVec 64)
  | rdmaWriteImm (rkey : BitVec 32) (addr : BitVec 64) (imm : BitVec 32)
  | rdmaWriteImm64 (rkey : BitVec 32) (addr imm : BitVec 64)
  | rdmaWrite64Imm (rkey addr : BitVec 64) (imm : BitVec 32)
  | rdmaWrite64Imm64 (rkey addr imm : BitVec 64)

/-- `uet_ref_wr_rma`, as far as it fills the entry. -/
def wrRma (opcode : Dev.Opcode) (rkey addr imm : BitVec 64) : Wqe :=
  { zeroWqe with opcode, remoteAddr := addr, remoteKey := rkey, imm }

def BuildOp.entry : BuildOp → Option Wqe
  | .send => some { zeroWqe with opcode := .send }
  | .sendImm imm => some { zeroWqe with opcode := .sendImm, imm := imm.setWidth 64 }
  | .sendImm64 imm => some { zeroWqe with opcode := .sendImm, imm }
  | .rdmaWrite64 rkey addr => some (wrRma .rdmaWrite rkey addr 0)
  | .rdmaRead64 rkey addr => some (wrRma .rdmaRead rkey addr 0)
  | .rdmaWrite64Imm rkey addr imm => some (wrRma .rdmaWriteImm rkey addr (imm.setWidth 64))
  | .rdmaWrite64Imm64 rkey addr imm => some (wrRma .rdmaWriteImm rkey addr imm)
  | .rdmaWrite _ _ | .rdmaRead _ _ | .rdmaWriteImm _ _ _ | .rdmaWriteImm64 _ _ _ => none

inductive Setter where
  | ruAddr (ah : Option Nat) (idx : Nat)
  | jobKey (jkey : Nat)
  | sge (sge : Sge)
  | sgeList (num : Nat) (list : Nat → Sge)

def Setter.apply (w : Wqe) : Setter → Except Errno Wqe
  | .ruAddr (some handle) _ => .ok { w with addrIndex := handle, ah := true }
  | .ruAddr none idx => .ok { w with addrIndex := idx, ah := false }
  | .jobKey jkey => .ok { w with jkey }
  | .sge s => .ok { w with numSge := 1, sge := update w.sge 0 s }
  | .sgeList num list =>
    if Dev.maxSge < num then .error .einval
    else .ok { w with numSge := num, sge := fun i => if i < num then list i else w.sge i }

/-! ## A queue pair and its device -/

structure DevRing where
  prod : BitVec 32
  cons : BitVec 32

/-- A post that failed: the call, and the place of the request that `bad` points to. -/
structure Failure where
  send : Bool
  call : Nat
  bad : Nat

/-- `struct uet_ref_qp`, the device's view of its rings, and what has been built, announced and
executed. The send ring is `ring true`. `batch` marks the requests built since the last `wr_start`,
`wr_complete` or `wr_abort`, of which there are `batchLen`; `voided` are the batches that were
aborted or completed with an error. -/
structure QueuePair where
  ring : Bool → Ring
  cur : Option Nat
  err : Option Errno
  inBatch : Bool
  maxSge : Nat
  dev : Bool → DevRing
  calls : Nat
  batch : Nat
  batchLen : Nat
  built : Bool → List Tag
  announced : Bool → Nat
  executed : Bool → List Tag
  voided : List Nat
  failed : List Failure

namespace QueuePair

/-- `uet_ref_db` for a work ring: the device has the producer index from then on. -/
def doorbell (q : QueuePair) (send : Bool) : QueuePair :=
  { q with dev := update q.dev send { q.dev send with prod := (q.ring send).prod }
           announced := update q.announced send (q.built send).length }

def announcedTags (q : QueuePair) (send : Bool) : List Tag := (q.built send).take (q.announced send)

/-- The end of a post: the doorbell, or `bad` and no doorbell. -/
def finishPost (q : QueuePair) (send : Bool) (p : Posted) : QueuePair :=
  let q' : QueuePair :=
    { q with ring := update q.ring send p.ring
             calls := q.calls + 1
             built := update q.built send
              (q.built send ++ (List.range p.count).map fun i => ⟨q.calls, i⟩) }
  match p.err with
  | some _ => { q' with failed := ⟨send, q.calls, p.count⟩ :: q.failed }
  | none => q'.doorbell send

def post {W : Type} (q : QueuePair) (send : Bool) (one : Ring → Tag → W → Ring × Option Errno) (wrs : List W) :
    Posted :=
  if !(q.ring send).buf then ⟨q.ring send, 0, some .einval⟩ else postLoop one q.calls 0 (q.ring send) wrs

/-- `uet_ref_post_send`. -/
def postSend (q : QueuePair) (wrs : List SendWr) : Posted := q.post true (sendOne q.maxSge) wrs

/-- `uet_ref_post_recv`. -/
def postRecv (q : QueuePair) (wrs : List RecvWr) : Posted := q.post false (recvOne q.maxSge) wrs

/-- `uet_ref_post_recv64`. -/
def postRecv64 (q : QueuePair) (wrs : List RecvWr) : Posted := q.post false (recvOne q.maxSge) wrs

def newBatch (q : QueuePair) : QueuePair := { q with batch := q.calls, batchLen := 0, calls := q.calls + 1 }

/-- `uet_ref_wr_start`. -/
def wrStart (q : QueuePair) : QueuePair := { q.newBatch with err := none, cur := none, inBatch := true }

/-- `uet_ref_wr_begin` with the entry that its caller fills. -/
def wrBegin (q : QueuePair) (w : Wqe) : QueuePair :=
  let r := q.ring true
  if q.err.isSome then q
  else if !r.buf then { q with err := some .einval }
  else if r.full then { q with err := some .enomem }
  else
    let tag : Tag := ⟨q.batch, q.batchLen⟩
    { q with ring := update q.ring true (r.write ⟨some tag, w⟩).advance
             cur := some r.next
             batchLen := q.batchLen + 1
             built := update q.built true (q.built true ++ [tag]) }

def wrOp (q : QueuePair) (wrId : BitVec 64) (signaled : Bool) (op : BuildOp) : QueuePair :=
  match op.entry with
  | some w => q.wrBegin { w with wrId, signaled }
  | none => if q.err.isSome then q else { q with err := some .eopnotsupp }

def wrSet (q : QueuePair) (f : Setter) : QueuePair :=
  match q.cur with
  | none => q
  | some i =>
    let r := q.ring true
    match f.apply (r.slot i).wqe with
    | .error e => { q with err := some e }
    | .ok w =>
      { q with ring := update q.ring true { r with slot := update r.slot i ⟨(r.slot i).tag, w⟩ } }

def giveUp (q : QueuePair) : QueuePair :=
  { q.newBatch with voided := q.batch :: q.voided, inBatch := false, cur := none, err := none }

/-- `uet_ref_wr_complete`. -/
def wrComplete (q : QueuePair) : QueuePair :=
  if q.err.isSome then q.giveUp
  else ({ q.newBatch with inBatch := false, cur := none } : QueuePair).doorbell true

/-- `uet_ref_wr_abort`. -/
def wrAbort (q : QueuePair) : QueuePair := q.giveUp

def take (q : QueuePair) (send : Bool) : QueuePair :=
  let d := q.dev send
  if d.cons = d.prod then q
  else
    let r := q.ring send
    { q with dev := update q.dev send { d with cons := d.cons + 1 }
             executed := update q.executed send
              (q.executed send ++ (r.slot (d.cons.toNat % r.entries)).tag.toList) }

/-- `uet_ref_cq_release`: a completion of the ring has been polled. -/
def release (q : QueuePair) (send : Bool) (ringCons : BitVec 32) : QueuePair :=
  { q with ring := update q.ring send { q.ring send with cons := ringCons } }

end QueuePair

inductive Event where
  | postSend (wrs : List SendWr)
  | postRecv (wrs : List RecvWr)
  | postRecv64 (wrs : List RecvWr)
  | wrStart
  | wrOp (wrId : BitVec 64) (signaled : Bool) (op : BuildOp)
  | wrSet (f : Setter)
  | wrComplete
  | wrAbort
  | take (send : Bool)
  | release (send : Bool) (ringCons : BitVec 32)

namespace QueuePair

def step (q : QueuePair) : Event → QueuePair
  | .postSend wrs => q.finishPost true (q.postSend wrs)
  | .postRecv wrs => q.finishPost false (q.postRecv wrs)
  | .postRecv64 wrs => q.finishPost false (q.postRecv64 wrs)
  | .wrStart => q.wrStart
  | .wrOp wrId signaled op => q.wrOp wrId signaled op
  | .wrSet f => q.wrSet f
  | .wrComplete => q.wrComplete
  | .wrAbort => q.wrAbort
  | .take send => q.take send
  | .release send ringCons => q.release send ringCons

/-- A queue pair as `uet_ref_create_qp` leaves it. -/
def init (sq rq : Ring) (maxSge : Nat) : QueuePair :=
  { ring := fun send => if send then sq else rq
    cur := none, err := none, inBatch := false, maxSge, dev := fun _ => ⟨0, 0⟩
    calls := 1, batch := 0, batchLen := 0, built := fun _ => [], announced := fun _ => 0
    executed := fun _ => [], voided := [], failed := [] }

/-- A batch that was given up has none of its requests executed; of a post that failed exactly the
requests before `bad` have been announced, and no other one of it is executed. -/
structure AllOrPrefix (q : QueuePair) : Prop where
  voided : ∀ send, ∀ t ∈ q.executed send, t.call ∉ q.voided
  announced : ∀ f ∈ q.failed, ∀ pos, ⟨f.call, pos⟩ ∈ q.announcedTags f.send ↔ pos < f.bad
  executed : ∀ f ∈ q.failed, ∀ pos, ⟨f.call, pos⟩ ∈ q.executed f.send → pos < f.bad

def FailsAtOnce (p : Posted) : Prop := p.err.isSome = true → p.count = 0

instance (p : Posted) : Decidable (FailsAtOnce p) := inferInstanceAs (Decidable (_ → _))

def NoneLeft (q : QueuePair) : Event → Prop
  | .postSend wrs => FailsAtOnce (q.postSend wrs)
  | .postRecv wrs => FailsAtOnce (q.postRecv wrs)
  | .postRecv64 wrs => FailsAtOnce (q.postRecv64 wrs)
  | .wrComplete => q.err.isSome = true → q.batchLen = 0
  | .wrAbort => q.batchLen = 0
  | _ => True

instance (q : QueuePair) (ev : Event) : Decidable (NoneLeft q ev) := by
  unfold NoneLeft
  split <;> infer_instance

/-! ## What is executed was built -/

def dead (q : QueuePair) : List Nat := q.voided ++ q.failed.map Failure.call

/-- Requests carry marks that have been given out, none of a call that was given up or failed; what a
slot holds and what was executed was built. -/
structure Traced (q : QueuePair) : Prop where
  batch : q.batch < q.calls
  fresh : ∀ send, ∀ t ∈ q.built send, t.call < q.calls
  open_ : ∀ send, ∀ t ∈ q.built send, t.call = q.batch → t.pos < q.batchLen
  deadOld : ∀ c ∈ q.dead, c < q.calls ∧ c ≠ q.batch
  live : ∀ send, ∀ t ∈ q.built send, t.call ∉ q.dead
  slots : ∀ send, (q.ring send).Marks (· ∈ q.built send)
  executed : ∀ send, ∀ t ∈ q.executed send, t ∈ q.built send
  bad : ∀ f ∈ q.failed, f.bad = 0

theorem Traced.allOrPrefix {q : QueuePair} (h : q.Traced) : q.AllOrPrefix := by
  have hfailed : ∀ f ∈ q.failed, ∀ send pos, (⟨f.call, pos⟩ : Tag) ∉ q.built send := by
    intro f hf send pos ht
    exact h.live send _ ht (mem_append_right _ (mem_map_of_mem hf))
  constructor
  · intro send t ht hv
    exact h.live send t (h.executed send t ht) (mem_append_left _ hv)
  · intro f hf pos
    constructor
    · intro ht
      exact absurd (mem_of_mem_take ht) (hfailed f hf f.send pos)
    · intro hpos
      rw [h.bad f hf] at hpos
      exact absurd hpos (Nat.not_lt_zero pos)
  · intro f hf pos ht
    exact absurd (h.executed f.send _ ht) (hfailed f hf f.send pos)

section

variable {q : QueuePair}

section

variable (h : q.Traced)
include h

variable (send : Bool)

theorem Traced.doorbell : (q.doorbell send).Traced :=
  ⟨h.batch, h.fresh, h.open_, h.deadOld, h.live, h.slots, h.executed, h.bad⟩

theorem Traced.newBatch : q.newBatch.Traced := by
  constructor
  · exact Nat.lt_succ_self _
  · intro send t ht
    exact Nat.lt_succ_of_lt (h.fresh send t ht)
  · intro send t ht hc
    exact absurd hc (ne_of_lt (h.fresh send t ht))
  · intro c hc
    have hlt := (h.deadOld c hc).1
    exact ⟨Nat.lt_succ_of_lt hlt, ne_of_lt hlt⟩
  · exact h.live
  · exact h.slots
  · exact h.executed
  · exact h.bad

theorem Traced.giveUp (hnone : q.batchLen = 0) : q.giveUp.Traced := by
  have hn := h.newBatch
  have hdead : ∀ c, c ∈ q.giveUp.dead ↔ c = q.batch ∨ c ∈ q.dead := fun c => mem_cons
  refine ⟨hn.batch, hn.fresh, hn.open_, ?_, ?_, hn.slots, hn.executed, hn.bad⟩
  · intro c hc
    rcases (hdead c).mp hc with rfl | hc
    · exact ⟨Nat.lt_succ_of_lt h.batch, ne_of_lt h.batch⟩
    · exact hn.deadOld c hc
  · intro send t ht hc
    rcases (hdead t.call).mp hc with hb | hc
    · have hpos := h.open_ send t ht hb
      rw [hnone] at hpos
      exact Nat.not_lt_zero _ hpos
    · exact h.live send t ht hc

theorem Traced.build (cur : Option Nat) {calls len : Nat} {send : Bool} {r : Ring} {ts : List Tag}
    (hcalls : q.calls ≤ calls) (hlen : q.batchLen ≤ len)
    (hnew : ∀ t ∈ ts, t.call < calls ∧ t.call ∉ q.dead ∧ (t.call = q.batch → t.pos < len))
    (hmarks : r.Marks (· ∈ q.built send ++ ts)) :
    Traced { q with
      ring := update q.ring send r, cur, calls, batchLen := len
      built := update q.built send (q.built send ++ ts) } := by
  have hmem : ∀ s t, t ∈ update q.built send (q.built send ++ ts) s → t ∈ q.built s ∨ t ∈ ts := by
    intro s t ht
    by_cases hs : s = send
    · subst hs
      rw [update_self] at ht
      exact mem_append.mp ht
    · rw [update_of_ne hs] at ht
      exact .inl ht
  constructor
  · exact lt_of_lt_of_le h.batch hcalls
  · intro s t ht
    rcases hmem s t ht with ht | ht
    · exact lt_of_lt_of_le (h.fresh s t ht) hcalls
    · exact (hnew t ht).1
  · intro s t ht hc
    rcases hmem s t ht with ht | ht
    · exact lt_of_lt_of_le (h.open_ s t ht hc) hlen
    · exact (hnew t ht).2.2 hc
  · intro c hc
    exact ⟨lt_of_lt_of_le (h.deadOld c hc).1 hcalls, (h.deadOld c hc).2⟩
  · intro s t ht
    rcases hmem s t ht with ht | ht
    · exact h.live s t ht
    · exact (hnew t ht).2.1
  · intro s
    by_cases hs : s = send
    · subst hs
      dsimp only
      rw [update_self, update_self]
      exact hmarks
    · dsimp only
      rw [update_of_ne hs, update_of_ne hs]
      exact h.slots s
  · intro s t ht
    by_cases hs : s = send
    · subst hs
      dsimp only
      rw [update_self]
      exact mem_append_left _ (h.executed s t ht)
    · dsimp only
      rw [update_of_ne hs]
      exact h.executed s t ht
  · exact h.bad

theorem Traced.fail {send : Bool} {c : Nat} (hc : c < q.calls) (hbatch : c ≠ q.batch)
    (hnone : ∀ s, ∀ t ∈ q.built s, t.call ≠ c) : Traced { q with failed := ⟨send, c, 0⟩ :: q.failed } := by
  have hdead : ∀ x, x ∈ q.voided ++ (c :: q.failed.map Failure.call) ↔ x = c ∨ x ∈ q.dead := by
    intro x
    rw [dead, mem_append, mem_append, mem_cons]
    exact or_left_comm
  refine ⟨h.batch, h.fresh, h.open_, ?_, ?_, h.slots, h.executed, ?_⟩
  · intro x hx
    rcases (hdead x).mp hx with rfl | hx
    · exact ⟨hc, hbatch⟩
    · exact h.deadOld x hx
  · intro s t ht hx
    rcases (hdead t.call).mp hx with hx | hx
    · exact hnone s t ht hx
    · exact h.live s t ht hx
  · intro f hf
    rcases mem_cons.mp hf with rfl | hf
    · rfl
    · exact h.bad f hf

theorem Traced.finishPost {p : Posted} (hp : FailsAtOnce p)
    (hmarks : p.ring.Marks (· ∈ q.built send ++ (List.range p.count).map fun i => (⟨q.calls, i⟩ : Tag))) :
    (q.finishPost send p).Traced := by
  have hbatch := h.batch
  have hq := h.build q.cur (Nat.le_succ q.calls) (le_refl q.batchLen)
    (fun t ht => by
      obtain ⟨i, -, rfl⟩ := mem_map.mp ht
      refine ⟨Nat.lt_succ_self _, fun hd => ?_, fun hb => ?_⟩
      · exact absurd rfl (ne_of_lt (h.deadOld _ hd).1)
      · exact absurd hb (Nat.ne_of_gt hbatch)) hmarks
  unfold QueuePair.finishPost
  cases herr : p.err with
  | none => exact hq.doorbell send
  | some e =>
    have hcount : p.count = 0 := hp (by rw [herr]; rfl)
    rw [hcount] at hq ⊢
    apply hq.fail (Nat.lt_succ_self _) (Nat.ne_of_gt hbatch)
    intro s t ht
    have hold : t ∈ q.built s := by
      rw [range_zero, map_nil, append_nil, update_eq_self] at ht
      exact ht
    exact ne_of_lt (h.fresh s t hold)

theorem Traced.post_marks {W : Type} {one : Ring → Tag → W → Ring × Option Errno}
    (hone : ∀ r tag wr, Builds r tag (one r tag wr)) (wrs : List W) : (q.post send one wrs).ring.Marks
      (· ∈ q.built send ++ (List.range (q.post send one wrs).count).map fun i => (⟨q.calls, i⟩ : Tag)) := by
  have hold : ∀ l : List Tag, (q.ring send).Marks (· ∈ q.built send ++ l) := fun l =>
    (h.slots send).mono fun t ht => mem_append_left l ht
  unfold QueuePair.post
  split
  · exact hold _
  apply postLoop_marks hone _ _ _ _ _ (hold _)
  intro i _ hi
  rw [Nat.zero_add] at hi
  exact mem_append_right _ (mem_map.mpr ⟨i, mem_range.mpr hi, rfl⟩)

theorem Traced.wrBegin (w : Wqe) : (q.wrBegin w).Traced := by
  have herr : ∀ e, Traced { q with err := e } := fun e =>
    ⟨h.batch, h.fresh, h.open_, h.deadOld, h.live, h.slots, h.executed, h.bad⟩
  unfold QueuePair.wrBegin
  dsimp only
  split
  · exact h
  split
  · exact herr _
  split
  · exact herr _
  apply h.build _ le_rfl (Nat.le_succ _)
  · intro t ht
    cases mem_singleton.mp ht
    exact ⟨h.batch, fun hd => (h.deadOld _ hd).2 rfl, fun _ => Nat.lt_succ_self _⟩
  · apply Ring.Marks.write ((h.slots true).mono fun t ht => mem_append_left _ ht)
    intro t ht
    cases ht
    exact mem_append_right _ (mem_singleton.mpr rfl)

theorem Traced.setRing {send : Bool} {r : Ring} (hr : ∀ i, (r.slot i).tag = ((q.ring send).slot i).tag) :
    Traced { q with ring := update q.ring send r } := by
  refine ⟨h.batch, h.fresh, h.open_, h.deadOld, h.live, ?_, h.executed, h.bad⟩
  intro s
  by_cases hs : s = send
  · subst hs
    dsimp only
    rw [update_self]
    intro i t ht
    rw [hr i] at ht
    exact h.slots s i t ht
  · dsimp only
    rw [update_of_ne hs]
    exact h.slots s

theorem Traced.wrSet (f : Setter) : (q.wrSet f).Traced := by
  unfold QueuePair.wrSet
  split
  · exact h
  rename_i i _
  dsimp only
  split
  · exact ⟨h.batch, h.fresh, h.open_, h.deadOld, h.live, h.slots, h.executed, h.bad⟩
  apply h.setRing
  intro j
  rcases eq_or_ne j i with rfl | hne
  · dsimp only
    rw [update_self]
  · dsimp only
    rw [update_of_ne hne]

theorem Traced.take : (q.take send).Traced := by
  unfold QueuePair.take
  dsimp only
  split
  · exact h
  refine ⟨h.batch, h.fresh, h.open_, h.deadOld, h.live, h.slots, ?_, h.bad⟩
  intro s t ht
  dsimp only at ht
  by_cases hs : s = send
  · subst hs
    rw [update_self] at ht
    rcases mem_append.mp ht with ht | ht
    · exact h.executed s t ht
    · exact h.slots s _ t (Option.mem_toList.mp ht)
  · rw [update_of_ne hs] at ht
    exact h.executed s t ht

theorem Traced.step {ev : Event} (hev : NoneLeft q ev) : (q.step ev).Traced := by
  cases ev with
  | postSend wrs => exact h.finishPost true hev (h.post_marks true (sendOne_builds q.maxSge) wrs)
  | postRecv wrs => exact h.finishPost false hev (h.post_marks false (recvOne_builds q.maxSge) wrs)
  | postRecv64 wrs => exact h.finishPost false hev (h.post_marks false (recvOne_builds q.maxSge) wrs)
  | wrStart =>
    have hn := h.newBatch
    exact ⟨hn.batch, hn.fresh, hn.open_, hn.deadOld, hn.live, hn.slots, hn.executed, hn.bad⟩
  | wrOp wrId signaled op =>
    simp only [QueuePair.step, QueuePair.wrOp]
    split
    · exact h.wrBegin _
    split
    · exact h
    · exact ⟨h.batch, h.fresh, h.open_, h.deadOld, h.live, h.slots, h.executed, h.bad⟩
  | wrSet => exact h.wrSet ..
  | wrComplete =>
    simp only [QueuePair.step, QueuePair.wrComplete]
    split
    · rename_i herr
      exact h.giveUp (hev herr)
    have hn := h.newBatch
    apply Traced.doorbell
    exact ⟨hn.batch, hn.fresh, hn.open_, hn.deadOld, hn.live, hn.slots, hn.executed, hn.bad⟩
  | wrAbort => exact h.giveUp hev
  | take => exact h.take ..
  | release send ringCons => exact h.setRing fun i => rfl

end

theorem traced_init (sqBuf rqBuf : Bool) (sqEntries rqEntries maxSge : Nat) :
    (init (.alloc sqBuf sqEntries) (.alloc rqBuf rqEntries) maxSge).Traced := by
  constructor
  · exact Nat.zero_lt_one
  · exact fun _ _ h => absurd h not_mem_nil
  · exact fun _ _ h => absurd h not_mem_nil
  · exact fun _ h => absurd h not_mem_nil
  · exact fun _ _ h => absurd h not_mem_nil
  · intro send
    cases send with
    | true => exact Ring.marks_alloc _ _ _
    | false => exact Ring.marks_alloc _ _ _
  · exact fun _ _ h => absurd h not_mem_nil
  · exact fun _ h => absurd h not_mem_nil

end

end QueuePair

open QueuePair

def plainSend (wrId : BitVec 64) (numSge : Int) : SendWr :=
  { wrId, opcode := .send, numSge, ah := none, addrIdx := 0, jkey := 0, immData := 0, remoteAddr := 0
    rkey64 := 0, signaled := true, sge64 := false, sgList := fun _ => ⟨0, 0, 0⟩, sg64List := fun _ => ⟨0, 0, 0⟩ }

def fourSlots : QueuePair := init (.alloc true 4) (.alloc true 4) 8

end Uet.Ref
