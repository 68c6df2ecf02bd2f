import Uet.Dev.Completions
import Uet.FreeIndex
import Uet.Ref.WorkRing

/-!
# Flow control of the work rings

The provider and the device on one queue pair. The provider builds requests at its producer index as long
as its consumer index says that there is room, the device takes them up to the index of the last doorbell, and
completions come in any order, each with the index that the device had reached when it took the request. A
completion that is polled sets the provider's consumer index to the one it carries.

Beside the indices of 32 bits stand the counts they are residues of. What keeps the indices unambiguous
is that the device does not come back to a slot while the library has its record: a completion is less
than one round old when it is written, and the provider can be at most one more round ahead when it is polled.

An older completion that is polled after a newer one moves the consumer index back (`InOrder` leaves this
out).
-/

namespace Uet.Ref

open Guarded FreeIndex List Function
open Dev (Qp Ctx Turn PostReq LibResult LibEntry LibErr Device Opcode Work Wqe sqTurn rqTurn drainEntry drainErr)

/-- The opcodes that `uet_ref_cq_release` takes for the receive ring. -/
def isRecv : Opcode → Bool
  | .recv | .recvRdmaImm => true
  | _ => false

/-- A completion that has been written and not been polled, as far as it concerns the rings; with the
number of its request, unless it is unsolicited, and the number of requests the device had taken. -/
structure Note where
  opcode : Opcode
  ringCons : BitVec 32
  req : Option Nat
  seen : Nat

def Note.count (e : Note) : Nat :=
  match e.req with
  | some i => i + 1
  | none => e.seen

/-- One of the rings: the provider's side of it and its completions. Requests are numbered as they
are built; `num` is the request a record of the device was last written for. -/
structure Lane where
  ring : Ring
  cq : List Note
  built : List Slot
  announced : Nat
  taken : Nat
  num : Nat → Nat
  polled : List Nat

/-- A queue pair of the device with the provider's side of its rings; the send ring is `lane true`. -/
structure Link where
  qp : Qp
  maxSge : Nat
  lane : Bool → Lane

def devRing (qp : Qp) (send : Bool) : Dev.Ring := if send then qp.sq else qp.rq

def devNext (qp : Qp) (send : Bool) : Ctx := if send then qp.sqNext else qp.rqNext

/-- `uet_ref_wr_begin` on a ring with memory. -/
def beginOne (r : Ring) (tag : Tag) (w : Wqe) : Ring × Option Errno :=
  if r.full then (r, some .enomem) else ((r.write ⟨some tag, w⟩).advance, none)

/-- What happens: a request is posted or begun by the builder; a doorbell; a turn of one of the device's
loops; a completion that the library reports; the next completion of a ring is polled. `lost` says that the
completion queue was full or could not be written. -/
inductive LinkEv where
  | send (tag : Tag) (wr : SendWr)
  | recv (tag : Tag) (wr : RecvWr)
  | build (tag : Tag) (wrId : BitVec 64) (signaled : Bool) (op : BuildOp)
  | doorbell (send : Bool)
  | turn (send : Bool) (dev : Device) (readable inserted : Bool) (rc : LibResult) (lost : Bool)
  | entry (dev : Device) (rx : Bool) (e : LibEntry) (lost : Bool)
  | error (e : LibErr) (lost : Bool)
  | poll (send : Bool)

namespace Lane

def put (l : Lane) (o : Ring × Option Errno) : Lane :=
  { l with ring := o.1
           built := if o.2.isSome then l.built else l.built ++ [o.1.slot l.ring.next] }

def note (l : Lane) (lost : Bool) (req : Option Nat) (p : Option PostReq) : Lane :=
  match p with
  | some p => if lost then l else { l with cq := l.cq ++ [⟨p.work.opcode, p.work.ringCons, req, l.taken⟩] }
  | none => l

def takeAt (l : Lane) (slot : Nat) : Lane :=
  { l with taken := l.taken + 1, num := update l.num slot l.taken }

def turn (l : Lane) (slot : Nat) (t : Turn) (lost : Bool) : Lane :=
  if t.more then (l.takeAt slot).note lost (some l.taken) t.post else l

end Lane

namespace Link

def setLane (s : Link) (send : Bool) (l : Lane) : Link := { s with lane := update s.lane send l }

def readNext (s : Link) (send readable : Bool) : Option Wqe :=
  if readable then some ((s.lane send).ring.slot (devNext s.qp send).slot).wqe else none

/-- A turn of `uet_dev_sq_run` or `uet_dev_rq_run`. -/
def devTurn (s : Link) (send : Bool) (dev : Device) (readable inserted : Bool) (rc : LibResult) : Turn :=
  if send then sqTurn dev s.qp (s.readNext send readable) inserted rc
  else rqTurn dev s.qp (s.readNext send readable) rc

def finish (s : Link) (ctx : Option Ctx) (r : Qp × Option PostReq) (lost : Bool) : Link :=
  match ctx with
  | some ctx =>
    { s with qp := r.1 }.setLane ctx.send ((s.lane ctx.send).note lost (some ((s.lane ctx.send).num ctx.slot)) r.2)
  | none => { s with qp := r.1 }.setLane false ((s.lane false).note lost none r.2)

/-- `uet_ref_cq_release`. -/
def release (s : Link) (e : Note) : Link :=
  let l := s.lane (!isRecv e.opcode)
  s.setLane (!isRecv e.opcode) { l with ring := { l.ring with cons := e.ringCons } }

def poll (s : Link) (send : Bool) : Link :=
  match (s.lane send).cq with
  | [] => s
  | e :: rest =>
    (s.setLane send { s.lane send with cq := rest, polled := (s.lane send).polled ++ e.req.toList }).release e

def step (s : Link) : LinkEv → Link
  | .send tag wr => s.setLane true ((s.lane true).put (sendOne s.maxSge (s.lane true).ring tag wr))
  | .recv tag wr => s.setLane false ((s.lane false).put (recvOne s.maxSge (s.lane false).ring tag wr))
  | .build tag wrId signaled op =>
    match op.entry with
    | some w => s.setLane true ((s.lane true).put (beginOne (s.lane true).ring tag { w with wrId, signaled }))
    | none => s
  | .doorbell true =>
    { s with qp := { s.qp with sq := { s.qp.sq with prod := (s.lane true).ring.prod } } }.setLane true
      { s.lane true with announced := (s.lane true).built.length }
  | .doorbell false =>
    { s with qp := { s.qp with rq := { s.qp.rq with prod := (s.lane false).ring.prod } } }.setLane false
      { s.lane false with announced := (s.lane false).built.length }
  | .turn send dev readable inserted rc lost =>
    let t := s.devTurn send dev readable inserted rc
    { s with qp := t.qp }.setLane send ((s.lane send).turn (devNext s.qp send).slot t lost)
  | .entry dev rx e lost => s.finish e.ctx (drainEntry dev rx s.qp e) lost
  | .error e lost => s.finish e.ctx (drainErr s.qp e) lost
  | .poll send => s.poll send

/-- An empty ring of `2 ^ k` slots. -/
def emptyLane (k : Nat) : Lane := ⟨.alloc true (2 ^ k), [], [], 0, 0, fun _ => 0, []⟩

/-- A queue pair whose rings have `2 ^ ks` and `2 ^ kr` slots. -/
def init (qp : Qp) (maxSge ks kr : Nat) : Link :=
  { qp := { qp with
      sq := ⟨{ qp.sq.desc with entries := 2 ^ ks }, 0, 0, true⟩
      rq := ⟨{ qp.rq.desc with entries := 2 ^ kr }, 0, 0, true⟩
      sqWork := fun _ => .zero
      rqWork := fun _ => .zero }
    maxSge
    lane := fun send => if send then emptyLane ks else emptyLane kr }

def consumed (s : Link) (send : Bool) : Nat :=
  let l := s.lane send
  l.built.length - (l.ring.prod - l.ring.cons).toNat

def InOrder (s : Link) : LinkEv → Prop
  | .poll send => (s.lane send).cq.head?.all (fun e =>
      decide ((e.ringCons - (s.lane send).ring.cons).toNat ≤ (s.lane send).ring.entries)) = true
  | _ => True

instance (s : Link) (ev : LinkEv) : Decidable (InOrder s ev) := by
  unfold InOrder
  split <;> infer_instance

end Link

/-! ## A turn of the device -/

variable {post : Option PostReq} (dev : Device)

section

variable {qp : Qp} {send : Bool}

theorem devNext_eq (qp : Qp) (send : Bool) :
    devNext qp send = ⟨send, (devRing qp send).cons.toNat % (devRing qp send).desc.entries⟩ := by
  cases send <;> rfl

theorem devRing_setWork (ctx : Ctx) (w : Work) (b : Bool) : devRing (qp.setWork ctx w) b = devRing qp b := by
  unfold Qp.setWork
  cases ctx.send <;> rfl

variable (w : Work)

theorem work_setWork_ne {ctx ctx' : Ctx} (h : ctx' ≠ ctx) : (qp.setWork ctx w).work ctx' = qp.work ctx' := by
  rw [Dev.work_setWork, if_neg h]

theorem work_setWork_eq (ctx : Ctx) (w : Work) : (qp.setWork ctx w).work ctx = w := by
  rw [Dev.work_setWork, if_pos rfl]

def Tells (qp : Qp) (send : Bool) (w : Work) : Prop :=
  w.ringCons = (devRing qp send).cons + 1 ∧ isRecv w.opcode = !send

/-- A turn leaves the rings as they are, or takes the request in the next slot of one of them. It
writes no record but that of the slot. -/
inductive TurnSpec (qp : Qp) (send : Bool) (t : Turn) : Prop where
  | stays (more : t.more = false) (ring : ∀ b, devRing t.qp b = devRing qp b)
      (others : ∀ ctx, ctx ≠ devNext qp send → t.qp.work ctx = qp.work ctx)
      (own : t.qp.work (devNext qp send) = qp.work (devNext qp send) ∨ (t.qp.work (devNext qp send)).busy = false)
  | takes (more : t.more = true) (ring : devRing t.qp send = { devRing qp send with cons := (devRing qp send).cons + 1 })
      (other : devRing t.qp (!send) = devRing qp (!send))
      (others : ∀ ctx, ctx ≠ devNext qp send → t.qp.work ctx = qp.work ctx)
      (own : (t.qp.work (devNext qp send)).busy = true → Tells qp send (t.qp.work (devNext qp send)))
      (post : ∀ p, t.post = some p → Tells qp send p.work)

theorem turnSpec_rest (send : Bool) : TurnSpec qp send ⟨qp, none, none, false⟩ :=
  .stays rfl (fun _ => rfl) (fun _ _ => rfl) (.inl rfl)

theorem turnSpec_wait (call : Option Dev.LibCall) (hw : w.busy = false) :
    TurnSpec qp send ⟨qp.setWork (devNext qp send) w, none, call, false⟩ := by
  refine .stays rfl (fun b => devRing_setWork _ _ b) (fun ctx h => work_setWork_ne w h) (.inr ?_)
  rw [work_setWork_eq]
  exact hw

theorem turnSpec_takes (hw : Tells qp send w) {t : Turn} (more : t.more = true)
    (ring : devRing t.qp send = { devRing qp send with cons := (devRing qp send).cons + 1 })
    (other : devRing t.qp (!send) = devRing qp (!send))
    (work : ∀ ctx, t.qp.work ctx = (qp.setWork (devNext qp send) w).work ctx)
    (post : ∀ p, t.post = some p → Tells qp send p.work) : TurnSpec qp send t := by
  refine .takes more ring other (fun ctx h => (work ctx).trans (work_setWork_ne w h)) (fun _ => ?_) post
  rw [work, work_setWork_eq]
  exact hw

theorem turnSpec_rq (hw : Tells qp false w) (call : Option Dev.LibCall)
    (hpost : ∀ p, post = some p → Tells qp false p.work) :
    TurnSpec qp false ⟨(qp.setWork qp.rqNext w).rqAdvance, post, call, true⟩ :=
  turnSpec_takes w hw rfl rfl rfl (fun _ => rfl) hpost

theorem turnSpec_sq (hw : Tells qp true w) (call : Option Dev.LibCall)
    (hpost : ∀ p, post = some p → Tells qp true p.work) :
    TurnSpec qp true ⟨(qp.setWork qp.sqNext w).sqAdvance, post, call, true⟩ :=
  turnSpec_takes w hw rfl rfl rfl (fun _ => rfl) hpost

theorem turnSpec_sqFail (hw : Tells qp true w) (st : Dev.WcStatus) (call : Option Dev.LibCall) :
    TurnSpec qp true (Dev.sqFail qp qp.sqNext w st call) := by
  apply turnSpec_sq w hw
  intro p hp
  split at hp
  · cases hp
    exact hw
  · cases hp

theorem rqTurn_spec (wqe : Option Wqe) (rc : LibResult) :
    TurnSpec qp false (rqTurn dev qp wqe rc) := by
  have hrec : ∀ w job, Tells qp false (Dev.rqRecord dev qp w job) := fun w job => ⟨rfl, rfl⟩
  have herr : ∀ w job st p, some (Dev.errorPost qp false (Dev.rqRecord dev qp w job) st) = some p →
      Tells qp false p.work := by
    intro w job st p hp
    cases hp
    exact hrec w job
  have ht := Dev.rqTurn_step dev qp wqe rc
  generalize rqTurn dev qp wqe rc = t at ht
  cases ht with
  | rest => exact turnSpec_rest false
  | pass w idle h =>
    refine .takes rfl rfl rfl (fun _ _ => rfl) (fun hbusy => ?_) (fun p hp => nomatch hp)
    exact absurd (idle.symm.trans hbusy) Bool.false_ne_true
  | refuse w job st idle h => exact turnSpec_rq _ (hrec w job) _ (herr w job st)
  | hand w job segs idle hjob hsegs => exact turnSpec_rq _ ⟨rfl, rfl⟩ _ (fun p hp => nomatch hp)
  | wait w job segs idle hjob hsegs => exact turnSpec_wait _ _ rfl
  | fail w job segs idle hjob hsegs => exact turnSpec_rq _ (hrec w job) _ (herr w job _)

theorem sqTurn_spec {wqe : Option Wqe} (inserted : Bool) (rc : LibResult)
    (hkind : ∀ w, wqe = some w → isRecv w.opcode = false) : TurnSpec qp true (sqTurn dev qp wqe inserted rc) := by
  have hrec : ∀ w jobId, wqe = some w → Tells qp true (Dev.sqRecord qp w jobId) :=
    fun w jobId hw => ⟨rfl, hkind w hw⟩
  have ht := Dev.sqTurn_step dev qp wqe inserted rc
  generalize sqTurn dev qp wqe inserted rc = t at ht
  cases ht with
  | rest => exact turnSpec_rest true
  | unread => exact turnSpec_sqFail _ ⟨rfl, rfl⟩ _ _
  | refuse w st idle h => exact turnSpec_sqFail _ (hrec w 0 rfl) _ _
  | hand w segs job peer idle h => exact turnSpec_sq _ ⟨rfl, hkind w rfl⟩ _ (fun p hp => nomatch hp)
  | wait w segs job peer idle h => exact turnSpec_wait _ _ rfl
  | fail w segs job peer idle h => exact turnSpec_sqFail _ (hrec w _ rfl) _ _

theorem devTurn_empty (s : Link) (send : Bool) (dev : Device) (readable inserted : Bool) (rc : LibResult)
    (h : (devRing s.qp send).cons = (devRing s.qp send).prod) :
    s.devTurn send dev readable inserted rc = ⟨s.qp, none, none, false⟩ := by
  cases send with
  | true => exact if_pos h
  | false => exact if_pos h

end

/-! ## Counts and indices -/

/-- A record that the library has, for request `num`: its index is the count after the request, which is of
the last round of the `taken` requests. -/
structure RecordOk (send : Bool) (n taken num slot : Nat) (w : Work) : Prop where
  index : w.ringCons = BitVec.ofNat 32 (num + 1)
  place : num % n = slot
  old : num < taken
  round : taken ≤ num + n
  kind : isRecv w.opcode = !send

structure NoteOk (send : Bool) (n taken : Nat) (e : Note) : Prop where
  index : e.ringCons = BitVec.ofNat 32 e.count
  count_le : e.count ≤ e.seen
  round : e.seen < e.count + n
  old : e.seen ≤ taken
  kind : isRecv e.opcode = !send

/-- The indices of a ring stand for counts in order. `c` is the count of the provider's consumer index, and
`m` the highest it has been; what was built is at most a round ahead of that. -/
structure LaneOk (send : Bool) (qp : Qp) (l : Lane) (c m : Nat) : Prop where
  size : ∃ k ≤ 31, l.ring.entries = 2 ^ k
  entries : (devRing qp send).desc.entries = l.ring.entries
  prod : l.ring.prod = BitVec.ofNat 32 l.built.length
  devProd : (devRing qp send).prod = BitVec.ofNat 32 l.announced
  devCons : (devRing qp send).cons = BitVec.ofNat 32 l.taken
  taken_le : l.taken ≤ l.announced
  announced_le : l.announced ≤ l.built.length
  holds : Holds l.ring.slot l.ring.entries l.built l.taken
  kind : send = true → ∀ s ∈ l.built, isRecv s.wqe.opcode = false
  records : ∀ k, (qp.work ⟨send, k⟩).busy = true →
    RecordOk send l.ring.entries l.taken (l.num k) k (qp.work ⟨send, k⟩)
  notes : ∀ e ∈ l.cq, NoteOk send l.ring.entries l.taken e
  order : l.cq.Pairwise fun a b => a.seen ≤ b.seen
  cons : l.ring.cons = BitVec.ofNat 32 c
  c_le : c ≤ m
  m_le : m ≤ l.taken
  m_notes : ∀ e ∈ l.cq, m ≤ e.seen
  room : l.built.length ≤ m + l.ring.entries
  lap : l.built.length < c + 2 * l.ring.entries

variable {tag : Tag}

namespace LaneOk

variable {send : Bool} {qp : Qp} {l : Lane} {c m : Nat}

section

variable (h : LaneOk send qp l c m)
include h

theorem dvd : l.ring.entries ∣ 2 ^ 32 := by
  obtain ⟨k, hk, he⟩ := h.size
  rw [he]
  exact Nat.pow_dvd_pow 2 (by omega)

theorem pos : 0 < l.ring.entries := by
  obtain ⟨k, -, he⟩ := h.size
  rw [he]
  exact Nat.two_pow_pos k

theorem two_le : 2 * l.ring.entries ≤ 2 ^ 32 := by
  obtain ⟨k, hk, he⟩ := h.size
  rw [he, ← Nat.pow_succ']
  exact Nat.pow_le_pow_right (by decide) (by omega)

theorem cons_le : c ≤ l.built.length := by
  have h1 := h.c_le
  have h2 := h.m_le
  have h3 := h.taken_le
  have h4 := h.announced_le
  omega

theorem used : (l.ring.prod - l.ring.cons).toNat = l.built.length - c := by
  have h1 := h.lap
  have h2 := h.two_le
  rw [h.prod, h.cons]
  exact Spsc.toNat_sub_ofNat h.cons_le (by omega)

theorem full_iff : l.ring.full = decide (l.ring.entries ≤ l.built.length - c) := by
  rw [Ring.full, h.used]

theorem next : l.ring.next = l.built.length % l.ring.entries := by
  rw [Ring.next, h.prod]
  exact toNat_ofNat_mod h.dvd _

theorem devNext : devNext qp send = ⟨send, l.taken % l.ring.entries⟩ := by
  rw [devNext_eq, h.entries, h.devCons, toNat_ofNat_mod h.dvd]

theorem taken_lt (hne : (devRing qp send).cons ≠ (devRing qp send).prod) : l.taken < l.announced := by
  rw [h.devCons, h.devProd] at hne
  rcases lt_or_eq_of_le h.taken_le with hlt | heq
  · exact hlt
  · exact absurd (congrArg _ heq) hne

theorem congr {qp' : Qp} (hring : devRing qp' send = devRing qp send)
    (hwork : ∀ k, (qp'.work ⟨send, k⟩).busy = true → qp'.work ⟨send, k⟩ = qp.work ⟨send, k⟩) :
    LaneOk send qp' l c m := by
  refine { h with entries := ?_, devProd := ?_, devCons := ?_, records := ?_ }
  · rw [hring]
    exact h.entries
  · rw [hring]
    exact h.devProd
  · rw [hring]
    exact h.devCons
  · intro k hk
    have he := hwork k hk
    rw [he] at hk ⊢
    exact h.records k hk

theorem put {o : Ring × Option Errno} (ho : Builds l.ring tag o)
    (hkind : send = true → o.2 = none → isRecv (o.1.slot l.ring.next).wqe.opcode = false) :
    LaneOk send qp (l.put o) c m := by
  have hroom : l.ring.full = false → l.built.length < c + l.ring.entries := by
    intro hf
    rw [h.full_iff, decide_eq_false_iff_not] at hf
    omega
  have hle : c ≤ l.taken := h.c_le.trans h.m_le
  cases ho with
  | failed e => exact h
  | spoiled room w e =>
    have hlt := hroom room
    refine { h with holds := ?_ }
    have hholds := h.holds.spoil (by omega) (⟨none, w⟩ : Slot)
    rw [← h.next] at hholds
    exact hholds
  | built room w =>
    have hlt := hroom room
    have hcle := h.c_le
    have hslot : ((l.ring.write ⟨some tag, w⟩).advance).slot l.ring.next = ⟨some tag, w⟩ := update_self ..
    have hput : l.put ((l.ring.write ⟨some tag, w⟩).advance, none) =
        { l with ring := (l.ring.write ⟨some tag, w⟩).advance, built := l.built ++ [⟨some tag, w⟩] } := by
      unfold Lane.put
      rw [hslot]
      rfl
    have hlen : (l.built ++ [(⟨some tag, w⟩ : Slot)]).length = l.built.length + 1 := length_append
    rw [hput]
    refine { h with prod := ?_, announced_le := ?_, holds := ?_, kind := ?_, room := ?_, lap := ?_ }
    · show l.ring.prod + 1 = _
      rw [h.prod, hlen]
      exact ofNat_succ _
    · show l.announced ≤ (l.built ++ _).length
      have := h.announced_le
      omega
    · have hholds := h.holds.push (by omega) (⟨some tag, w⟩ : Slot)
      rw [← h.next] at hholds
      exact hholds
    · intro hs x hx
      rcases mem_append.mp hx with hx | hx
      · exact h.kind hs x hx
      have hw := hkind hs rfl
      rw [hslot] at hw
      rw [mem_singleton.mp hx]
      exact hw
    · show (l.built ++ _).length ≤ m + l.ring.entries
      omega
    · show (l.built ++ _).length < c + 2 * l.ring.entries
      have := h.pos
      omega

theorem doorbell {qp' : Qp}
    (hring : devRing qp' send = { devRing qp send with prod := l.ring.prod }) (hwork : ∀ ctx, qp'.work ctx = qp.work ctx) :
    LaneOk send qp' { l with announced := l.built.length } c m := by
  have hle := h.taken_le
  have hann := h.announced_le
  refine { h with entries := ?_, devProd := ?_, devCons := ?_, taken_le := ?_, announced_le := ?_, records := ?_ }
  · rw [hring]
    exact h.entries
  · rw [hring]
    exact h.prod
  · rw [hring]
    exact h.devCons
  · show l.taken ≤ l.built.length
    omega
  · exact le_rfl
  · intro k hk
    rw [hwork] at hk ⊢
    exact h.records k hk

theorem note (lost : Bool) (req : Option Nat)
    (hpost : ∀ p, post = some p → NoteOk send l.ring.entries l.taken ⟨p.work.opcode, p.work.ringCons, req, l.taken⟩) :
    LaneOk send qp (l.note lost req post) c m := by
  unfold Lane.note
  split
  · rename_i p
    split
    · exact h
    have hnew := hpost p rfl
    refine { h with notes := ?_, order := ?_, m_notes := ?_ }
    · intro e he
      rcases mem_append.mp he with he | he
      · exact h.notes e he
      · rw [mem_singleton.mp he]
        exact hnew
    · apply pairwise_append.mpr ⟨h.order, pairwise_singleton _ _, ?_⟩
      intro a ha b hb
      rw [mem_singleton.mp hb]
      exact (h.notes a ha).old
    · intro e he
      rcases mem_append.mp he with he | he
      · exact h.m_notes e he
      · rw [mem_singleton.mp he]
        exact h.m_le
  · exact h

theorem takeAt (hlt : l.taken < l.announced) {qp' : Qp}
    (hring : devRing qp' send = { devRing qp send with cons := (devRing qp send).cons + 1 })
    (hothers : ∀ ctx, ctx ≠ Ref.devNext qp send → qp'.work ctx = qp.work ctx)
    (hown : (qp'.work (Ref.devNext qp send)).busy = true → Tells qp send (qp'.work (Ref.devNext qp send))) :
    LaneOk send qp' (l.takeAt (Ref.devNext qp send).slot) c m := by
  have hnext := h.devNext
  have hpos := h.pos
  have hm := h.m_le
  refine { h with
    entries := ?_, devProd := ?_, devCons := ?_, taken_le := hlt, holds := ?_, records := ?_, notes := ?_, m_le := ?_ }
  · rw [hring]
    exact h.entries
  · rw [hring]
    exact h.devProd
  · rw [hring]
    rw [h.devCons]
    exact ofNat_succ _
  · exact h.holds.mono (Nat.le_succ _)
  · intro k hk
    show RecordOk send l.ring.entries (l.taken + 1) (update l.num (Ref.devNext qp send).slot l.taken k) k _
    rw [hnext] at hown ⊢
    by_cases hkn : k = l.taken % l.ring.entries
    · -- the record of the request that is taken
      subst hkn
      obtain ⟨hindex, hkind⟩ := hown hk
      rw [update_self]
      refine ⟨?_, rfl, Nat.lt_succ_self _, by omega, hkind⟩
      rw [hindex, h.devCons]
      exact ofNat_succ _
    · have hne : (⟨send, k⟩ : Ctx) ≠ Ref.devNext qp send := by
        rw [hnext]
        intro he
        exact hkn (congrArg Ctx.slot he)
      rw [hothers _ hne] at hk ⊢
      rw [update_of_ne hkn]
      have hr := h.records k hk
      have hold := hr.old
      have hround := hr.round
      -- a whole round later the device would be at this slot
      have hstrict : l.taken ≠ l.num k + l.ring.entries := by
        intro he
        apply hkn
        rw [he, Nat.add_mod_right, hr.place]
      exact ⟨hr.index, hr.place, by omega, by omega, hr.kind⟩
  · intro e he
    have hn := h.notes e he
    exact ⟨hn.index, hn.count_le, hn.round, Nat.le_succ_of_le hn.old, hn.kind⟩
  · exact Nat.le_succ_of_le hm

theorem turn {t : Turn} (ht : TurnSpec qp send t)
    (hknown : t.more = true → l.taken < l.announced) (lost : Bool) :
    LaneOk send t.qp (l.turn (Ref.devNext qp send).slot t lost) c m := by
  unfold Lane.turn
  cases ht with
  | stays more ring others own =>
    rw [if_neg (by rw [more]; exact Bool.false_ne_true)]
    refine h.congr (ring send) fun k hk => ?_
    by_cases hkn : (⟨send, k⟩ : Ctx) = Ref.devNext qp send
    · rw [hkn] at hk ⊢
      exact own.resolve_right fun hidle => Bool.false_ne_true (hidle.symm.trans hk)
    · exact others _ hkn
  | takes more ring other others own post =>
    rw [if_pos more]
    apply (h.takeAt (hknown more) ring others own).note
    intro p hp
    obtain ⟨hindex, hkind⟩ := post p hp
    refine ⟨?_, le_rfl, ?_, le_rfl, hkind⟩
    · rw [hindex, h.devCons]
      exact ofNat_succ _
    · have := h.pos
      show l.taken + 1 < l.taken + 1 + l.ring.entries
      omega

theorem giveBack {k : Nat} (hbusy : (qp.work ⟨send, k⟩).busy = true) {w : Work}
    (hidle : w.busy = false)
    (hpost : ∀ p, post = some p → p.work.ringCons = (qp.work ⟨send, k⟩).ringCons ∧
      p.work.opcode = (qp.work ⟨send, k⟩).opcode) (lost : Bool) :
    LaneOk send (qp.setWork ⟨send, k⟩ w) (l.note lost (some (l.num k)) post) c m := by
  have hr := h.records k hbusy
  have hold := hr.old
  have hround := hr.round
  have hset : LaneOk send (qp.setWork ⟨send, k⟩ w) l c m := by
    refine h.congr (devRing_setWork _ _ _) fun j hj => ?_
    rw [Dev.work_setWork] at hj ⊢
    split_ifs at hj ⊢
    · rw [hidle] at hj
      cases hj
    · rfl
  apply hset.note
  intro p hp
  obtain ⟨hindex, hop⟩ := hpost p hp
  refine ⟨?_, hold, ?_, le_rfl, ?_⟩
  · rw [hindex]
    exact hr.index
  · show l.taken < l.num k + 1 + l.ring.entries
    omega
  · rw [hop]
    exact hr.kind

theorem release {e : Note} {rest : List Note} (hcq : l.cq = e :: rest) (polled : List Nat) :
    LaneOk send qp { l with cq := rest, polled, ring := { l.ring with cons := e.ringCons } } e.count (max m e.count) := by
  have hmem : e ∈ l.cq := by
    rw [hcq]
    exact mem_cons_self ..
  have hsub : ∀ x ∈ rest, x ∈ l.cq := by
    intro x hx
    rw [hcq]
    exact mem_cons_of_mem _ hx
  have hpair := h.order
  rw [hcq, pairwise_cons] at hpair
  have hn := h.notes e hmem
  have hle := hn.count_le
  have hold := hn.old
  have hround := hn.round
  have hme := h.m_notes e hmem
  have hm := h.m_le
  have hroom := h.room
  refine { h with
    notes := fun x hx => h.notes x (hsub x hx), order := hpair.2, cons := hn.index
    c_le := le_max_right _ _, m_le := ?_, m_notes := ?_, room := ?_, lap := ?_ }
  · exact Nat.max_le.mpr ⟨hm, hle.trans hold⟩
  · intro x hx
    have hx' := hpair.1 x hx
    exact Nat.max_le.mpr ⟨h.m_notes x (hsub x hx), by omega⟩
  · show l.built.length ≤ max m e.count + l.ring.entries
    omega
  · show l.built.length < e.count + 2 * l.ring.entries
    omega

end

end LaneOk

/-! ## Steps of the queue pair -/

namespace Link

variable {s : Link}

def Ok (s : Link) : Prop := ∀ b, ∃ c m, LaneOk b s.qp (s.lane b) c m

theorem setLane_self (send : Bool) (l : Lane) : (s.setLane send l).lane send = l := update_self ..

variable {b : Bool} {ev : LinkEv}

theorem setLane_of_ne {send : Bool} (h : b ≠ send) (l : Lane) : (s.setLane send l).lane b = s.lane b :=
  update_of_ne h ..

/-- What a step does to a ring: its consumer index stays, or a completion of the ring has been polled. -/
inductive LaneStep (s : Link) (ev : LinkEv) (b : Bool) (c m : Nat) : Prop where
  | stays (ok : LaneOk b (s.step ev).qp ((s.step ev).lane b) c m)
      (polled : ((s.step ev).lane b).polled = (s.lane b).polled)
  | polls (e : Note) (rest : List Note) (call : ev = .poll b) (head : (s.lane b).cq = e :: rest)
      (ok : LaneOk b (s.step ev).qp ((s.step ev).lane b) e.count (max m e.count))
      (polled : ((s.step ev).lane b).polled = (s.lane b).polled ++ e.req.toList)

theorem LaneStep.of_device {send : Bool} {qp : Qp} {l : Lane} {c m : Nat}
    (hstep : s.step ev = ({ s with qp } : Link).setLane send l) (hb : LaneOk b s.qp (s.lane b) c m)
    (hother : b ≠ send → devRing qp b = devRing s.qp b ∧ ∀ k, qp.work ⟨b, k⟩ = s.qp.work ⟨b, k⟩)
    (hown : b = send → LaneOk b qp l c m ∧ l.polled = (s.lane b).polled) : LaneStep s ev b c m := by
  by_cases hs : b = send
  · obtain ⟨hok, hpolled⟩ := hown hs
    subst hs
    refine .stays ?_ ?_ <;> rw [hstep, setLane_self]
    · exact hok
    · exact hpolled
  · obtain ⟨hring, hwork⟩ := hother hs
    refine .stays ?_ ?_ <;> rw [hstep, setLane_of_ne hs]
    exact hb.congr hring fun k _ => hwork k

theorem LaneStep.of_setLane {send : Bool} {l : Lane} {c m : Nat} (hstep : s.step ev = s.setLane send l)
    (hb : LaneOk b s.qp (s.lane b) c m) (hown : b = send → LaneOk b s.qp l c m ∧ l.polled = (s.lane b).polled) :
    LaneStep s ev b c m :=
  .of_device hstep hb (fun _ => ⟨rfl, fun _ => rfl⟩) hown

theorem note_polled (l : Lane) (lost : Bool) (req : Option Nat) (p : Option PostReq) :
    (l.note lost req p).polled = l.polled := by
  unfold Lane.note
  split
  · split <;> rfl
  · rfl

theorem turn_polled (l : Lane) (slot : Nat) (t : Turn) (lost : Bool) : (l.turn slot t lost).polled = l.polled := by
  unfold Lane.turn
  split
  · rw [note_polled]
    rfl
  · rfl

/-- What `uet_ref_fill_wqe` fills in is no receive. -/
theorem fillWqe_kind {old : Wqe} {wr : SendWr} {maxSge : Nat} (h : (fillWqe old wr maxSge).2 = none) :
    isRecv (fillWqe old wr maxSge).1.opcode = false := by
  unfold fillWqe at h ⊢
  split
  · rename_i hmax
    rw [if_pos hmax] at h
    cases h
  rename_i hmax
  rw [if_neg hmax] at h
  cases hop : wr.opcode <;> rw [hop] at h <;> rfl

theorem sendOne_kind {maxSge : Nat} {r : Ring} {wr : SendWr} (h : (sendOne maxSge r tag wr).2 = none) :
    isRecv ((sendOne maxSge r tag wr).1.slot r.next).wqe.opcode = false := by
  unfold sendOne at h ⊢
  split
  · rename_i hfull
    rw [if_pos hfull] at h
    cases h
  rename_i hfull
  rw [if_neg hfull] at h
  have hk := @fillWqe_kind (r.slot r.next).wqe wr maxSge
  generalize fillWqe (r.slot r.next).wqe wr maxSge = f at h hk ⊢
  obtain ⟨w, _ | e⟩ := f
  · dsimp only [Ring.advance, Ring.write]
    rw [update_self]
    exact hk rfl
  · cases h

theorem entry_kind {op : BuildOp} {w : Wqe} (h : op.entry = some w) : isRecv w.opcode = false := by
  cases op <;> cases h <;> rfl

theorem beginOne_builds (r : Ring) (tag : Tag) (w : Wqe) : Builds r tag (beginOne r tag w) := by
  unfold beginOne
  split
  · exact .failed .enomem
  · rename_i hroom
    exact .built (Bool.eq_false_iff.mpr hroom) w

theorem beginOne_kind {r : Ring} {w : Wqe} (hw : isRecv w.opcode = false)
    (h : (beginOne r tag w).2 = none) : isRecv ((beginOne r tag w).1.slot r.next).wqe.opcode = false := by
  unfold beginOne at h ⊢
  split
  · rename_i hfull
    rw [if_pos hfull] at h
    cases h
  dsimp only [Ring.advance, Ring.write]
  rw [update_self]
  exact hw

theorem readNext_kind {c m : Nat} (h : LaneOk true s.qp (s.lane true) c m)
    (hlt : (s.lane true).taken < (s.lane true).announced) (readable : Bool) :
    ∀ w, s.readNext true readable = some w → isRecv w.opcode = false := by
  intro w hw
  unfold readNext at hw
  split at hw
  · have hlen := lt_of_lt_of_le hlt h.announced_le
    have hslot := h.holds _ _ le_rfl (getElem?_eq_getElem hlen)
    rw [h.devNext] at hw
    cases hw
    rw [hslot]
    exact h.kind rfl _ (getElem_mem hlen)
  · cases hw

theorem devTurn_spec {send : Bool} {c m : Nat} (h : LaneOk send s.qp (s.lane send) c m) (dev : Device)
    (readable inserted : Bool) (rc : LibResult) :
    TurnSpec s.qp send (s.devTurn send dev readable inserted rc) ∧
      ((s.devTurn send dev readable inserted rc).more = true → (s.lane send).taken < (s.lane send).announced) := by
  by_cases hempty : (devRing s.qp send).cons = (devRing s.qp send).prod
  · rw [devTurn_empty s send dev readable inserted rc hempty]
    exact ⟨turnSpec_rest send, fun hmore => nomatch hmore⟩
  have hlt := h.taken_lt hempty
  refine ⟨?_, fun _ => hlt⟩
  cases send with
  | true => exact sqTurn_spec dev inserted rc (readNext_kind h hlt readable)
  | false => exact rqTurn_spec dev (s.readNext false readable) rc

theorem TurnSpec.other {qp : Qp} {send : Bool} {t : Turn} (ht : TurnSpec qp send t) (hne : b ≠ send) :
    devRing t.qp b = devRing qp b ∧ ∀ k, t.qp.work ⟨b, k⟩ = qp.work ⟨b, k⟩ := by
  have hctx : ∀ k, (⟨b, k⟩ : Ctx) ≠ devNext qp send := by
    intro k he
    rw [devNext_eq] at he
    exact hne (congrArg Ctx.send he)
  cases ht with
  | stays more ring others own => exact ⟨ring b, fun k => others _ (hctx k)⟩
  | takes more ring other others own post =>
    have hb : b = !send := by
      cases b <;> cases send <;> first | rfl | exact absurd rfl hne
    subst hb
    exact ⟨other, fun k => others _ (hctx k)⟩

/-- A completion for a context: the record is free from then on, and what is written is what it says; or
nothing happens. -/
inductive BackSpec (qp : Qp) (ctx : Ctx) : Qp × Option PostReq → Prop where
  | idle : BackSpec qp ctx (qp, none)
  | back (busy : (qp.work ctx).busy = true) (w : Work) (hw : w.busy = false) (post : Option PostReq)
      (hpost : ∀ p, post = some p →
        p.work.ringCons = (qp.work ctx).ringCons ∧ p.work.opcode = (qp.work ctx).opcode) :
      BackSpec qp ctx (qp.setWork ctx w, post)

theorem drainEntry_back (rx : Bool) (qp : Qp) {e : LibEntry} {ctx : Ctx} (h : e.ctx = some ctx) :
    BackSpec qp ctx (drainEntry dev rx qp e) := by
  unfold drainEntry
  rw [h]
  dsimp only
  split
  · exact .idle
  rename_i hbusy
  rw [Bool.not_eq_true, Bool.not_eq_false'] at hbusy
  refine .back hbusy _ rfl _ fun p hp => ?_
  split at hp
  · cases hp
    exact ⟨rfl, rfl⟩
  · cases hp

theorem drainErr_back (qp : Qp) {e : LibErr} {ctx : Ctx} (h : e.ctx = some ctx) : BackSpec qp ctx (drainErr qp e) := by
  unfold drainErr
  rw [h]
  dsimp only
  split
  · exact .idle
  rename_i hbusy
  rw [Bool.not_eq_true, Bool.not_eq_false'] at hbusy
  refine .back hbusy _ rfl _ fun p hp => ?_
  cases hp
  exact ⟨rfl, rfl⟩

theorem LaneStep.of_back {ctx : Ctx} {r : Qp × Option PostReq} (lost : Bool) {c m : Nat}
    (hstep : s.step ev = s.finish (some ctx) r lost) (hr : BackSpec s.qp ctx r) (hb : LaneOk b s.qp (s.lane b) c m) :
    LaneStep s ev b c m := by
  apply LaneStep.of_device hstep hb
  · intro hne
    cases hr with
    | idle => exact ⟨rfl, fun _ => rfl⟩
    | back busy w hw post hpost =>
      refine ⟨devRing_setWork _ _ _, fun k => work_setWork_ne w ?_⟩
      intro he
      exact hne (congrArg Ctx.send he)
  · intro hs
    subst hs
    refine ⟨?_, note_polled _ _ _ _⟩
    cases hr with
    | idle => exact hb
    | back busy w hw post hpost => exact hb.giveBack busy hw hpost lost

theorem unsolicited_note {c m : Nat} (h : LaneOk false s.qp (s.lane false) c m) (dev : Device) (rx : Bool)
    {e : LibEntry} (hctx : e.ctx = none) (lost : Bool) :
    (drainEntry dev rx s.qp e).1 = s.qp ∧
      LaneOk false s.qp ((s.lane false).note lost none (drainEntry dev rx s.qp e).2) c m := by
  unfold drainEntry
  rw [hctx]
  dsimp only
  split
  · refine ⟨rfl, h.note lost none fun p hp => ?_⟩
    cases hp
    have := h.pos
    refine ⟨h.devCons, le_rfl, ?_, le_rfl, rfl⟩
    show (s.lane false).taken < (s.lane false).taken + (s.lane false).ring.entries
    omega
  · exact ⟨rfl, h⟩

theorem step_lane (h : s.Ok) {c m : Nat} (hb : LaneOk b s.qp (s.lane b) c m) (ev : LinkEv) : LaneStep s ev b c m := by
  cases ev with
  | send tag wr =>
    apply LaneStep.of_setLane rfl hb
    rintro rfl
    exact ⟨hb.put (sendOne_builds _ _ _ _) fun _ hn => sendOne_kind hn, rfl⟩
  | recv tag wr =>
    apply LaneStep.of_setLane rfl hb
    rintro rfl
    exact ⟨hb.put (recvOne_builds _ _ _ _) (fun hs => nomatch hs), rfl⟩
  | build tag wrId signaled op =>
    cases hop : op.entry with
    | none =>
      have hstep : s.step (.build tag wrId signaled op) = s := by simp only [step, hop]
      refine .stays ?_ ?_ <;> rw [hstep]
      exact hb
    | some w =>
      have hstep : s.step (.build tag wrId signaled op) =
          s.setLane true ((s.lane true).put (beginOne (s.lane true).ring tag { w with wrId, signaled })) := by
        simp only [step, hop]
      apply LaneStep.of_setLane hstep hb
      rintro rfl
      have hkind : isRecv w.opcode = false := entry_kind hop
      exact ⟨hb.put (beginOne_builds _ _ _) (fun _ hn => beginOne_kind hkind hn), rfl⟩
  | doorbell send =>
    cases send <;> apply LaneStep.of_device rfl hb
    all_goals first
      | (rintro rfl; exact ⟨hb.doorbell rfl fun _ => rfl, rfl⟩)
      | (intro hne; cases b <;> first | exact absurd rfl hne | exact ⟨rfl, fun _ => rfl⟩)
  | turn send dev readable inserted rc lost =>
    obtain ⟨c', m', hsend⟩ := h send
    have ht := (devTurn_spec hsend dev readable inserted rc).1
    apply LaneStep.of_device rfl hb
    · exact fun hne => TurnSpec.other ht hne
    · rintro rfl
      exact ⟨hb.turn ht (devTurn_spec hb dev readable inserted rc).2 lost, turn_polled _ _ _ _⟩
  | entry dev rx e lost =>
    cases hctx : e.ctx with
    | some ctx =>
      refine LaneStep.of_back lost ?_ (drainEntry_back dev rx s.qp hctx) hb
      simp only [step, hctx]
    | none =>
      obtain ⟨c', m', hrecv⟩ := h false
      have hqp := (unsolicited_note hrecv dev rx hctx lost).1
      have hstep : s.step (.entry dev rx e lost) =
          s.setLane false ((s.lane false).note lost none (drainEntry dev rx s.qp e).2) := by
        simp only [step, finish, hctx, hqp]
      apply LaneStep.of_setLane hstep hb
      rintro rfl
      exact ⟨(unsolicited_note hb dev rx hctx lost).2, note_polled _ _ _ _⟩
  | error e lost =>
    cases hctx : e.ctx with
    | some ctx =>
      refine LaneStep.of_back lost ?_ (drainErr_back s.qp hctx) hb
      simp only [step, hctx]
    | none =>
      have hstep : s.step (.error e lost) = s.setLane false (s.lane false) := by
        simp only [step, finish, hctx, drainErr, Lane.note]
      apply LaneStep.of_setLane hstep hb
      rintro rfl
      exact ⟨hb, rfl⟩
  | poll send =>
    cases hcq : (s.lane send).cq with
    | nil =>
      have hstep : s.step (.poll send) = s := by simp only [step, poll, hcq]
      refine .stays ?_ ?_ <;> rw [hstep]
      exact hb
    | cons e rest =>
      obtain ⟨c', m', hsend⟩ := h send
      have hkind := (hsend.notes e (by rw [hcq]; exact mem_cons_self ..)).kind
      -- the opcode names the ring that the completion is of
      have hstep : s.step (.poll send) = s.setLane send
          { s.lane send with cq := rest, polled := (s.lane send).polled ++ e.req.toList
                             ring := { (s.lane send).ring with cons := e.ringCons } } := by
        simp only [step, poll, hcq, release, hkind, Bool.not_not, setLane, update_self, update_idem]
      by_cases hs : b = send
      · subst hs
        refine .polls e rest rfl hcq ?_ ?_ <;> rw [hstep, setLane_self]
        exact hb.release hcq _
      · refine .stays ?_ ?_ <;> rw [hstep, setLane_of_ne hs]
        exact hb

theorem Ok.step (h : s.Ok) (ev : LinkEv) : (s.step ev).Ok := by
  intro b
  obtain ⟨c, m, hb⟩ := h b
  cases step_lane h hb ev with
  | stays ok polled => exact ⟨c, m, ok⟩
  | polls e rest call head ok polled => exact ⟨_, _, ok⟩

theorem emptyLane_ok {send : Bool} {qp : Qp} {k : Nat} (hk : k ≤ 31) (hring : devRing qp send =
      ⟨{ (devRing qp send).desc with entries := 2 ^ k }, 0, 0, true⟩) (hwork : ∀ ctx, (qp.work ctx).busy = false) :
    LaneOk send qp (emptyLane k) 0 0 := by
  constructor
  case size => exact ⟨k, hk, rfl⟩
  case entries => rw [hring]; rfl
  case prod => rfl
  case devProd => rw [hring]; rfl
  case devCons => rw [hring]; rfl
  case taken_le => exact le_rfl
  case announced_le => exact le_rfl
  case holds => exact holds_nil
  case kind => exact fun _ x hx => absurd hx not_mem_nil
  case records =>
    intro j hj
    rw [hwork] at hj
    cases hj
  case notes => exact fun e he => absurd he not_mem_nil
  case order => exact .nil
  case cons => rfl
  case c_le => exact le_rfl
  case m_le => exact le_rfl
  case m_notes => exact fun e he => absurd he not_mem_nil
  case room => exact Nat.zero_le _
  case lap =>
    have := Nat.two_pow_pos k
    show 0 < 0 + 2 * 2 ^ k
    omega

/-! ## In order -/

/-- The consumer index has never been higher than it is, and is past every request whose completion has
been polled. -/
def Ordered (s : Link) : Prop :=
  ∀ b, ∃ c, LaneOk b s.qp (s.lane b) c c ∧ ∀ i ∈ (s.lane b).polled, i + 1 ≤ c

theorem Ordered.ok (h : s.Ordered) : s.Ok := fun b =>
  let ⟨c, hc, _⟩ := h b
  ⟨c, c, hc⟩

theorem ordered_init {ks kr : Nat} (hs : ks ≤ 31) (hr : kr ≤ 31) (qp : Qp) (maxSge : Nat) :
    (init qp maxSge ks kr).Ordered := by
  have hidle : ∀ ctx : Ctx, ((init qp maxSge ks kr).qp.work ctx).busy = false := by
    intro ctx
    unfold Qp.work
    split <;> rfl
  intro b
  cases b with
  | true => exact ⟨0, emptyLane_ok hs rfl hidle, fun i hi => absurd hi not_mem_nil⟩
  | false => exact ⟨0, emptyLane_ok hr rfl hidle, fun i hi => absurd hi not_mem_nil⟩

/-- What the comparison of `InOrder` says about the counts. -/
theorem count_ge {c : Nat} (h : LaneOk b s.qp (s.lane b) c c) {e : Note} {rest : List Note}
    (hcq : (s.lane b).cq = e :: rest) (hord : InOrder s (.poll b)) : c ≤ e.count := by
  have hmem : e ∈ (s.lane b).cq := by
    rw [hcq]
    exact mem_cons_self ..
  have hn := h.notes e hmem
  have hround := hn.round
  have hm := h.m_notes e hmem
  have htwo := h.two_le
  simp only [InOrder, hcq, head?_cons, Option.all_some, decide_eq_true_eq] at hord
  rw [hn.index, h.cons] at hord
  by_contra hlt
  rw [not_le] at hlt
  -- an index that is behind by `c - e.count` looks ahead by nearly a turn
  have hback : (BitVec.ofNat 32 c - BitVec.ofNat 32 e.count).toNat = c - e.count :=
    Spsc.toNat_sub_ofNat hlt.le (by omega)
  have hneg : BitVec.ofNat 32 e.count - BitVec.ofNat 32 c = -(BitVec.ofNat 32 c - BitVec.ofNat 32 e.count) := by
    rw [BitVec.neg_sub, BitVec.sub_eq_add_neg, BitVec.add_comm]
  rw [hneg, BitVec.toNat_neg, hback, Nat.mod_eq_of_lt (by omega)] at hord
  omega

theorem Ordered.lane_step (h : s.Ordered) (hev : InOrder s ev) (b : Bool) {c : Nat}
    (hc : LaneOk b s.qp (s.lane b) c c) (hpolled : ∀ i ∈ (s.lane b).polled, i + 1 ≤ c) :
    ∃ c', c ≤ c' ∧ LaneOk b (s.step ev).qp ((s.step ev).lane b) c' c' ∧
      ∀ i ∈ ((s.step ev).lane b).polled, i + 1 ≤ c' := by
  cases step_lane h.ok hc ev with
  | stays ok polled =>
    refine ⟨c, le_rfl, ok, ?_⟩
    rw [polled]
    exact hpolled
  | polls e rest call head ok polled =>
    subst call
    have hle := count_ge hc head hev
    rw [max_eq_right hle] at ok
    refine ⟨e.count, hle, ok, ?_⟩
    intro i hi
    rw [polled] at hi
    rcases mem_append.mp hi with hi | hi
    · exact (hpolled i hi).trans hle
    · rw [Option.mem_toList] at hi
      rw [Note.count, hi]

theorem Ordered.step (h : s.Ordered) (hev : InOrder s ev) : (s.step ev).Ordered := by
  intro b
  obtain ⟨c, hc, hpolled⟩ := h b
  obtain ⟨c', -, hc', hpolled'⟩ := h.lane_step hev b hc hpolled
  exact ⟨c', hc', hpolled'⟩

theorem consumed_eq {c m : Nat} (h : LaneOk b s.qp (s.lane b) c m) : s.consumed b = c := by
  have := h.cons_le
  unfold consumed
  dsimp only
  rw [h.used]
  omega

end Link

/-! ## A full ring -/

def Ring.HasRoom (r : Ring) (n : Nat) : Prop := (r.prod - r.cons).toNat + n ≤ r.entries ∧ r.entries < 2 ^ 32

variable {r : Ring}

theorem Ring.HasRoom.not_full {n : Nat} (h : r.HasRoom (n + 1)) : r.full = false := by
  have h1 := h.1
  unfold Ring.full
  rw [decide_eq_false_iff_not]
  omega

theorem Ring.HasRoom.advance {n : Nat} (h : r.HasRoom (n + 1)) (x : Slot) : ((r.write x).advance).HasRoom n := by
  obtain ⟨h1, h2⟩ := h
  refine ⟨?_, h2⟩
  show (r.prod + 1 - r.cons).toNat + n ≤ r.entries
  have hadd : r.prod + 1 - r.cons = (r.prod - r.cons) + 1 := by
    rw [BitVec.sub_eq_add_neg, BitVec.sub_eq_add_neg, BitVec.add_assoc, BitVec.add_comm 1, ← BitVec.add_assoc]
  rw [hadd, BitVec.toNat_add, Nat.mod_eq_of_lt]
  · show (r.prod - r.cons).toNat + 1 + n ≤ r.entries
    omega
  · show (r.prod - r.cons).toNat + 1 < 2 ^ 32
    omega

theorem postLoop_accepts {W : Type} {one : Ring → Tag → W → Ring × Option Errno} (good : W → Prop)
    (hone : ∀ r tag wr, good wr → r.full = false → ∃ x, one r tag wr = ((r.write x).advance, none))
    (call : Nat) (wrs : List W) (pos : Nat) (r : Ring) (hroom : r.HasRoom wrs.length) (hgood : ∀ wr ∈ wrs, good wr) :
    (postLoop one call pos r wrs).err = none := by
  induction wrs generalizing pos r with
  | nil => rfl
  | cons wr wrs ih =>
    obtain ⟨x, hx⟩ := hone r ⟨call, pos⟩ wr (hgood wr (mem_cons_self ..)) hroom.not_full
    simp only [postLoop, hx]
    exact ih (pos + 1) _ (hroom.advance x) fun wr' hwr => hgood wr' (mem_cons_of_mem _ hwr)

def SendWr.Good (maxSge : Nat) (wr : SendWr) : Prop := wr.numSge ≤ maxSge ∧ wr.opcode ≠ .other

theorem sendOne_accepts {maxSge : Nat} {wr : SendWr} (hwr : wr.Good maxSge) (hroom : r.full = false) :
    ∃ x, sendOne maxSge r tag wr = ((r.write x).advance, none) := by
  have hfill : (fillWqe (r.slot r.next).wqe wr maxSge).2 = none := by
    unfold fillWqe
    rw [if_neg (Int.not_lt.mpr hwr.1)]
    cases hop : wr.opcode with
    | other => exact absurd hop hwr.2
    | _ => rfl
  unfold sendOne
  rw [if_neg (by rw [hroom]; exact Bool.false_ne_true)]
  generalize fillWqe (r.slot r.next).wqe wr maxSge = f at hfill ⊢
  obtain ⟨w, e⟩ := f
  cases hfill
  exact ⟨_, rfl⟩

theorem recvOne_accepts {maxSge : Nat} {wr : RecvWr} (hwr : wr.numSge ≤ maxSge) (hroom : r.full = false) :
    ∃ x, recvOne maxSge r tag wr = ((r.write x).advance, none) := by
  unfold recvOne
  rw [if_neg (Int.not_lt.mpr hwr), if_neg (by rw [hroom]; exact Bool.false_ne_true)]
  exact ⟨_, rfl⟩

def Link.AcceptsFullRing (s : Link) : Bool → Prop
  | true => ∀ call, ∀ wrs : List SendWr, wrs.length = (s.lane true).ring.entries → (∀ wr ∈ wrs, wr.Good s.maxSge) →
    (postLoop (sendOne s.maxSge) call 0 (s.lane true).ring wrs).err = none
  | false => ∀ call, ∀ wrs : List RecvWr, wrs.length = (s.lane false).ring.entries →
    (∀ wr ∈ wrs, wr.numSge ≤ s.maxSge) → (postLoop (recvOne s.maxSge) call 0 (s.lane false).ring wrs).err = none

def Link.Drained (s : Link) (b : Bool) : Prop := ∀ i < (s.lane b).built.length, i ∈ (s.lane b).polled

def Link.UnreadKept (s : Link) (b : Bool) : Prop :=
  ∀ i slot, (s.lane b).taken ≤ i → (s.lane b).built[i]? = some slot →
    (s.lane b).ring.slot (i % (s.lane b).ring.entries) = slot

namespace Link

variable {s : Link}

theorem Ordered.accepts (h : s.Ordered) (b : Bool) (hdrained : s.Drained b) : s.AcceptsFullRing b := by
  obtain ⟨c, hc, hpolled⟩ := h b
  have hle := hc.cons_le
  have hall : (s.lane b).built.length = c := by
    cases hlen : (s.lane b).built.length with
    | zero => omega
    | succ k =>
      have hlast := hpolled k (hdrained k (by omega))
      omega
  have htwo := hc.two_le
  have hroom : (s.lane b).ring.HasRoom (s.lane b).ring.entries := by
    refine ⟨?_, by omega⟩
    rw [hc.used]
    omega
  cases b with
  | true =>
    intro call wrs hlen hgood
    rw [← hlen] at hroom
    exact postLoop_accepts (SendWr.Good s.maxSge) (fun _ _ _ hwr hr => sendOne_accepts hwr hr) call wrs 0 _ hroom hgood
  | false =>
    intro call wrs hlen hgood
    rw [← hlen] at hroom
    exact postLoop_accepts (fun wr : RecvWr => wr.numSge ≤ s.maxSge) (fun _ _ _ hwr hr => recvOne_accepts hwr hr) call wrs 0 _
      hroom hgood

theorem unread_slots_kept {ks kr : Nat} (hs : ks ≤ 31) (hr : kr ≤ 31) (qp : Qp) (maxSge : Nat) (evs : List LinkEv)
    (b : Bool) : (evs.foldl step (init qp maxSge ks kr)).UnreadKept b := by
  have hok : (evs.foldl step (init qp maxSge ks kr)).Ok := by
    have hinit := (ordered_init hs hr qp maxSge).ok
    generalize init qp maxSge ks kr = s at hinit ⊢
    induction evs generalizing s with
    | nil => exact hinit
    | cons ev evs ih => exact ih _ (hinit.step ev)
  obtain ⟨c, m, hb⟩ := hok b
  exact hb.holds

end Link

open Link

/-- On every queue pair and with rings of any size, for every interleaving of posting, consumption, completion
and polling: no slot is overwritten before the device has read it; and where completions are polled in the order of the
ring, the consumer index never moves back, and a ring whose requests have all completed and been polled takes a full ring
of new ones. -/
theorem ring_flow_control (ks kr : Nat) (hs : ks ≤ 31) (hr : kr ≤ 31) (qp : Qp) (maxSge : Nat) (evs : List LinkEv)
    (ev : LinkEv) (hrun : Meets step InOrder (init qp maxSge ks kr) (evs ++ [ev])) (b : Bool) :
    let s := evs.foldl step (init qp maxSge ks kr)
    s.UnreadKept b ∧ s.consumed b ≤ (s.step ev).consumed b ∧ (s.Drained b → s.AcceptsFullRing b) := by
  intro s
  obtain ⟨hevs, hev, -⟩ := meets_append.mp hrun
  have hord : s.Ordered := hevs.keep (P := Ordered) (fun _ _ h hev => h.step hev) (ordered_init hs hr qp maxSge)
  obtain ⟨c, hc, hpolled⟩ := hord b
  obtain ⟨c', hle, hc', -⟩ := hord.lane_step hev b hc hpolled
  refine ⟨unread_slots_kept hs hr qp maxSge evs b, ?_, hord.accepts b⟩
  rw [consumed_eq hc, consumed_eq hc']
  exact hle

def readyQp : Qp :=
  { qpn := 0x80000001, state := .rts, pathMtu := 0, pd := 3, sendCq := 1, recvCq := 1, jkeyHandle := 0, dbPage := 0
    closing := false, sq := ⟨⟨1, 4096, 2⟩, 0, 0, true⟩, rq := ⟨⟨1, 4096, 2⟩, 0, 0, true⟩
    sqWork := fun _ => .zero, rqWork := fun _ => .zero, sendSerial := 0, recvSerial := 0 }

/-- A signaled send without segments to the address handle of `Dev.fourSlots`. -/
def handleSend (wrId : BitVec 64) : SendWr := { plainSend wrId 0 with ah := some 1, jkey := 0x4a000001 }

def sendDone (slot : Nat) : LinkEv := .entry Dev.fourSlots false ⟨some ⟨true, slot⟩, false, 0, 0, 0⟩ false

/-- Two sends fill a ring of two slots and the library takes both. -/
def twoSends : List LinkEv :=
  [.send ⟨0, 0⟩ (handleSend 1), .send ⟨0, 1⟩ (handleSend 2), .doorbell true,
    .turn true Dev.fourSlots true true .accepted false, .turn true Dev.fourSlots true true .accepted false]

/-- Two sends complete and are polled in the order of the ring. -/
theorem ring_flow_control_two_sends :
    let s := (twoSends ++ [sendDone 0, sendDone 1, .poll true]).foldl step (init readyQp 8 1 1)
    ((s.consumed true, (s.step (.poll true)).consumed true) = (1, 2)) ∧
      s.consumed true ≤ (s.step (.poll true)).consumed true :=
  ⟨by decide +kernel,
    (ring_flow_control 1 1 (by decide) (by decide) readyQp 8 (twoSends ++ [sendDone 0, sendDone 1, .poll true])
      (.poll true) (by decide +kernel) true).2.1⟩

/-- The second of two sends completes first: the consumer index goes to 2 and back to 1, and although both have
completed and been polled, the ring takes only one of two new requests. -/
theorem late_completion_moves_back :
    let s := (twoSends ++ [sendDone 1, sendDone 0, .poll true]).foldl step (init readyQp 8 1 1)
    let s' := s.step (.poll true)
    (s.consumed true, s'.consumed true) = (2, 1) ∧ s'.Drained true ∧ ¬ s'.AcceptsFullRing true := by
  refine ⟨by decide +kernel, ?_, ?_⟩
  · have hpolled : ((((twoSends ++ [sendDone 1, sendDone 0, .poll true]).foldl step
        (init readyQp 8 1 1)).step (.poll true)).lane true).polled = [1, 0] := by decide +kernel
    have hlen : ((((twoSends ++ [sendDone 1, sendDone 0, .poll true]).foldl step
        (init readyQp 8 1 1)).step (.poll true)).lane true).built.length = 2 := by decide +kernel
    intro i hi
    rw [hlen] at hi
    rw [hpolled, mem_cons, mem_singleton]
    omega
  · intro h
    have hpost := h 0 [handleSend 3, handleSend 4] (by decide +kernel)
      (fun wr hwr => by
        rcases mem_cons.mp hwr with rfl | hwr
        · exact ⟨by decide, nofun⟩
        · rw [mem_singleton.mp hwr]
          exact ⟨by decide, nofun⟩)
    exact absurd hpost (by decide +kernel)

end Uet.Ref
