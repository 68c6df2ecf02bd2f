import Uet.Vpp.Ring
import Uet.Vpp.Endpoint

/-!
# Control calls

An application registers endpoints by calls of the client library: a request in one ring, a
completion in another. The worker answers requests in `uet_control_process`; the call looks at
the completion ring until it finds an entry or has looked often enough. A call that gives up
leaves its request, or the answer to it, behind.

The completion a call finds first is taken for its own: one for another request makes it fail. So
a call gets its own result as long as nothing of an earlier call is left (`Fresh`).
-/

namespace Uet.Vpp

open Guarded Function

/-- `uet_vpp_svm_control_completion_t`; the worker leaves the reserved fields zero. -/
structure ControlCompletion where
  requestId : BitVec 64
  status : Status
  deriving DecidableEq

/-- `UET_SPSC_MAX_BATCH`. -/
def spscMaxBatch : Nat := 64

/-- `UET_VPP_CLIENT_ACK_SPINS`. -/
def clientAckSpins : Nat := 1000000

/-- Where the call that holds the control mutex is: it has loaded the consumer counter of
the requests, or it waits for a completion. -/
inductive CallPhase where
  | idle
  | begun (seen : BitVec 32) (operation : BitVec 16) (endpoint : EndpointKey)
  | waiting (requestId : BitVec 64) (spin : Nat)
  deriving DecidableEq

/-- Where the worker is in a batch: the entries are written, then the completion ring's producer
is stored, then the request ring's consumer. -/
inductive WorkerPhase where
  | idle
  | staged (completionProducer requestConsumer : BitVec 32)
  | published (requestConsumer : BitVec 32)
  deriving DecidableEq

/-- The control rings of a segment with both sides; `sent` and `done` keep the requests
and their answers in order, `completed` counts the completions published. -/
structure Control where
  um : Plugin
  reqSlot : Nat → ControlRequest
  reqProducer : BitVec 32
  reqConsumer : BitVec 32
  cmpSlot : Nat → ControlCompletion
  cmpProducer : BitVec 32
  cmpConsumer : BitVec 32
  call : CallPhase
  worker : WorkerPhase
  nextRequestId : BitVec 64
  sent : List ControlRequest
  done : List (ControlRequest × Status)
  completed : Nat

structure Segment where
  depth : Nat
  ns : Nat

/-! ## The worker -/

structure Batch where
  um : Plugin
  cmpSlot : Nat → ControlCompletion
  cmpProducer : BitVec 32
  processed : Nat
  done : List (ControlRequest × Status)

section

variable (g : Segment)

/-- The loop of `uet_control_process`. -/
def controlLoop (s : Control) (fails : Nat → Bool) : Nat → Batch → Batch
  | 0, b => b
  | left + 1, b =>
    if (b.cmpProducer - s.cmpConsumer).toNat < g.depth then
      let q := s.reqSlot (spscIndex g.depth (s.reqConsumer + BitVec.ofNat 32 b.processed))
      let up := endpointUpdate b.um g.ns q (fails b.processed)
      controlLoop s fails left
        { um := up.1
          cmpSlot := update b.cmpSlot (spscIndex g.depth b.cmpProducer) ⟨q.requestId, up.2⟩
          cmpProducer := b.cmpProducer + 1
          processed := b.processed + 1
          done := b.done ++ [(q, up.2)] }
    else b

/-- `uet_control_process` up to its stores. -/
def controlProcess (s : Control) (fails : Nat → Bool) : Control :=
  let available := (s.reqProducer - s.reqConsumer).toNat
  if g.depth < available ∨ g.depth < (s.cmpProducer - s.cmpConsumer).toNat then s
  else
    let b := controlLoop g s fails (min available spscMaxBatch)
      ⟨s.um, s.cmpSlot, s.cmpProducer, 0, s.done⟩
    if b.processed = 0 then s
    else
      { s with um := b.um, cmpSlot := b.cmpSlot, done := b.done
               worker := .staged b.cmpProducer (s.reqConsumer + BitVec.ofNat 32 b.processed) }

/-! ## A call -/

def callInvalid (e : EndpointKey) : Bool :=
  (e.ipVersion != 4 && e.ipVersion != 6) || decide (1 < e.absolute.toNat) ||
    decide (0x0fff < e.pidOnFep.toNat) || decide (0x0fff < e.resourceIndex.toNat) ||
    decide (0x00ffffff < e.jobId.toNat)

def controlRequest (id : BitVec 64) (operation : BitVec 16) (e : EndpointKey) : ControlRequest :=
  { requestId := id, operation, reserved0 := 0, reserved1 := 0
    endpoint := { e with jobId := if e.absolute ≠ 0 then 0 else e.jobId, reserved0 := 0, reserved1 := 0 }
    reserved2 := (0, 0) }

def takeRequestId (next : BitVec 64) : BitVec 64 × BitVec 64 :=
  if next = 0 then (1, 2) else (next, next + 1)

/-- `uet_vpp_client_endpoint_control` from the full ring test to the store of the producer;
a result where the call ends there. -/
def callSubmit (s : Control) : Control × Option Errno :=
  match s.call with
  | .begun seen operation e =>
    if g.depth ≤ (s.reqProducer - seen).toNat then ({ s with call := .idle }, some .eagain)
    else
      let (id, next) := takeRequestId s.nextRequestId
      let q := controlRequest id operation e
      ({ s with
          reqSlot := update s.reqSlot (spscIndex g.depth s.reqProducer) q
          reqProducer := s.reqProducer + 1, call := .waiting id 0, nextRequestId := next
          sent := s.sent ++ [q] }, none)
  | _ => (s, none)

inductive CallResult where
  | status (s : Status)
  | error (e : Errno)
  deriving DecidableEq

/-- One turn of the waiting loop; `ready` is the flag of the segment. -/
def callPoll (s : Control) (ready : Bool) : Control × Option CallResult :=
  match s.call with
  | .waiting id spin =>
    let available := (s.cmpProducer - s.cmpConsumer).toNat
    if g.depth < available then ({ s with call := .idle }, some (.error .eproto))
    else if available ≠ 0 then
      let c := s.cmpSlot (spscIndex g.depth s.cmpConsumer)
      ({ s with call := .idle, cmpConsumer := s.cmpConsumer + 1 },
        some (if c.requestId ≠ id then .error .eproto else .status c.status))
    else if !ready then ({ s with call := .idle }, some (.error .econnreset))
    else if spin + 1 < clientAckSpins then ({ s with call := .waiting id (spin + 1) }, none)
    else ({ s with call := .idle }, some (.error .etimedout))
  | _ => (s, none)

/-- What happens at the control rings; `others` is whatever else changes the table. -/
inductive ControlEv where
  | call (operation : BitVec 16) (endpoint : EndpointKey)
  | submit
  | poll (ready : Bool)
  | process (fails : Nat → Bool)
  | storeCompletions
  | storeRequests
  | others (um : Plugin)

def Control.step (s : Control) : ControlEv → Control
  | .call operation e =>
    match s.call with
    | .idle => if callInvalid e then s else { s with call := .begun s.reqConsumer operation e }
    | _ => s
  | .submit => (callSubmit g s).1
  | .poll ready => (callPoll g s ready).1
  | .process fails =>
    match s.worker with
    | .idle => controlProcess g s fails
    | _ => s
  | .storeCompletions =>
    match s.worker with
    | .staged p c => { s with cmpProducer := p, worker := .published c, completed := s.done.length }
    | _ => s
  | .storeRequests =>
    match s.worker with
    | .published c => { s with reqConsumer := c, worker := .idle }
    | _ => s
  | .others um => { s with um }

def Control.init (um : Plugin) (q : ControlRequest) (c : ControlCompletion) : Control :=
  { um, reqSlot := fun _ => q, reqProducer := 0, reqConsumer := 0, cmpSlot := fun _ => c
    cmpProducer := 0, cmpConsumer := 0, call := .idle, worker := .idle, nextRequestId := 1
    sent := [], done := [], completed := 0 }

end

def Fresh (s : Control) : ControlEv → Prop
  | .call _ _ => s.reqProducer = s.cmpConsumer
  | _ => True

/-- Where the last request is on its way: there is none, it waits for the worker, it has
been answered but the completion is not published, or the completion waits for the call. -/
inductive Stage (g : Segment) (s : Control) : Prop where
  | settled (hreq : s.reqProducer = s.cmpConsumer) (hcmp : s.cmpProducer = s.cmpConsumer)
      (hworker : s.worker = .idle ∧ s.reqConsumer = s.cmpConsumer ∨ s.worker = .published s.cmpConsumer)
      (hdone : s.done.map Prod.fst = s.sent) (hcount : s.completed = s.done.length)
  | asked (q : ControlRequest) (hreq : s.reqProducer = s.cmpConsumer + 1)
      (hcmp : s.cmpProducer = s.cmpConsumer)
      (hworker : s.worker = .idle ∧ s.reqConsumer = s.cmpConsumer ∨ s.worker = .published s.cmpConsumer)
      (hslot : s.reqSlot (spscIndex g.depth s.cmpConsumer) = q)
      (hdone : s.done.map Prod.fst ++ [q] = s.sent) (hcount : s.completed = s.done.length)
  | staged (q : ControlRequest) (st : Status) (hreq : s.reqProducer = s.cmpConsumer + 1)
      (hcmp : s.cmpProducer = s.cmpConsumer)
      (hworker : s.worker = .staged (s.cmpConsumer + 1) (s.cmpConsumer + 1))
      (hslot : s.cmpSlot (spscIndex g.depth s.cmpConsumer) = ⟨q.requestId, st⟩)
      (hdone : s.done.map Prod.fst = s.sent) (hlast : s.done.getLast? = some (q, st))
      (hcount : s.completed + 1 = s.done.length)
  | answered (q : ControlRequest) (st : Status) (hreq : s.reqProducer = s.cmpConsumer + 1)
      (hcmp : s.cmpProducer = s.cmpConsumer + 1)
      (hworker : s.worker = .idle ∧ s.reqConsumer = s.cmpConsumer + 1 ∨
        s.worker = .published (s.cmpConsumer + 1))
      (hslot : s.cmpSlot (spscIndex g.depth s.cmpConsumer) = ⟨q.requestId, st⟩)
      (hdone : s.done.map Prod.fst = s.sent) (hlast : s.done.getLast? = some (q, st))
      (hcount : s.completed = s.done.length)

/-- A call that has begun finds nothing left behind, and a call that waits waits for the last
request. -/
structure Sound (g : Segment) (s : Control) : Prop where
  stage : Stage g s
  begun : ∀ seen op e, s.call = .begun seen op e → s.reqProducer = s.cmpConsumer
  waiting : ∀ id spin, s.call = .waiting id spin →
    s.reqProducer = s.cmpConsumer + 1 ∧ ∃ q, s.sent.getLast? = some q ∧ q.requestId = id

section

variable {g : Segment} {s : Control} (c : BitVec 32)

theorem toNat_add_one_sub : (c + 1 - c).toNat = 1 := by
  rw [BitVec.add_comm, BitVec.add_sub_cancel]
  rfl

theorem toNat_sub_self' : (c - c).toNat = 0 := by
  rw [BitVec.sub_self]
  rfl

theorem ne_add_one : c ≠ c + 1 := by
  intro h
  have h0 := toNat_sub_self' (c + 1)
  nth_rewrite 2 [← h] at h0
  rw [toNat_add_one_sub] at h0
  cases h0

/-! ## What the worker does -/

theorem controlProcess_none (h : s.reqProducer = s.reqConsumer) (fails : Nat → Bool) :
    controlProcess g s fails = s := by
  have hav : (s.reqProducer - s.reqConsumer).toNat = 0 := by rw [h, toNat_sub_self']
  unfold controlProcess
  dsimp only
  rw [hav, Nat.zero_min, controlLoop]
  split
  · rfl
  · exact if_pos rfl

theorem controlProcess_one (hdepth : 0 < g.depth) (hreq : s.reqProducer = s.reqConsumer + 1)
    (hcmp : s.cmpProducer = s.cmpConsumer) (fails : Nat → Bool) :
    let q := s.reqSlot (spscIndex g.depth s.reqConsumer)
    let up := endpointUpdate s.um g.ns q (fails 0)
    controlProcess g s fails = { s with
      um := up.1
      cmpSlot := update s.cmpSlot (spscIndex g.depth s.cmpConsumer) ⟨q.requestId, up.2⟩
      done := s.done ++ [(q, up.2)]
      worker := .staged (s.cmpConsumer + 1) (s.reqConsumer + 1) } := by
  have hav : (s.reqProducer - s.reqConsumer).toNat = 1 := by rw [hreq, toNat_add_one_sub]
  have hroom : (s.cmpConsumer - s.cmpConsumer).toNat < g.depth := by
    rw [toNat_sub_self']
    exact hdepth
  have hmin : min 1 spscMaxBatch = 0 + 1 := rfl
  have hzero : s.reqConsumer + BitVec.ofNat 32 0 = s.reqConsumer := BitVec.add_zero _
  unfold controlProcess
  simp only [hav, hcmp, hmin, toNat_sub_self']
  rw [if_neg (by omega), controlLoop, controlLoop]
  simp only [hroom, hzero, if_true, zero_add]
  rw [if_neg Nat.one_ne_zero]
  rfl

/-! ## Each step keeps the stage -/

theorem Stage.frame (h : Stage g s) (call : CallPhase) (um : Plugin) : Stage g { s with call, um } := by
  cases h with
  | settled h1 h2 h3 h4 h5 => exact .settled h1 h2 h3 h4 h5
  | asked q h1 h2 h3 h4 h5 h6 => exact .asked q h1 h2 h3 h4 h5 h6
  | staged q st h1 h2 h3 h4 h5 h6 h7 => exact .staged q st h1 h2 h3 h4 h5 h6 h7
  | answered q st h1 h2 h3 h4 h5 h6 h7 => exact .answered q st h1 h2 h3 h4 h5 h6 h7

theorem Stage.process (hdepth : 0 < g.depth) (h : Stage g s) (hidle : s.worker = .idle)
    (fails : Nat → Bool) : Stage g (controlProcess g s fails) := by
  cases h with
  | settled h1 h2 h3 h4 h5 =>
    have hcons : s.reqConsumer = s.cmpConsumer := by
      rcases h3 with h3 | h3
      · exact h3.2
      · rw [hidle] at h3
        cases h3
    rw [controlProcess_none (by rw [h1, hcons])]
    exact .settled h1 h2 h3 h4 h5
  | asked q h1 h2 h3 h4 h5 h6 =>
    have hcons : s.reqConsumer = s.cmpConsumer := by
      rcases h3 with h3 | h3
      · exact h3.2
      · rw [hidle] at h3
        cases h3
    rw [controlProcess_one hdepth (by rw [h1, hcons]) h2, hcons, h4]
    refine .staged q (endpointUpdate s.um g.ns q (fails 0)).2 h1 h2 rfl ?_ ?_ ?_ ?_
    · exact update_self _ _ _
    · rw [← h5, List.map_append]
      rfl
    · exact List.getLast?_concat
    · simp [h6]
  | staged q st h1 h2 h3 h4 h5 h6 h7 =>
    rw [hidle] at h3
    cases h3
  | answered q st h1 h2 h3 h4 h5 h6 h7 =>
    have hcons : s.reqConsumer = s.cmpConsumer + 1 := by
      rcases h3 with h3 | h3
      · exact h3.2
      · rw [hidle] at h3
        cases h3
    rw [controlProcess_none (by rw [h1, hcons])]
    exact .answered q st h1 h2 h3 h4 h5 h6 h7

theorem Stage.storeCompletions (h : Stage g s) {p c : BitVec 32} (hw : s.worker = .staged p c) :
    Stage g { s with cmpProducer := p, worker := .published c, completed := s.done.length } := by
  cases h with
  | settled _ _ h3 _ _ | asked _ _ _ h3 _ _ _ | answered _ _ _ _ h3 _ _ _ _ =>
    rw [hw] at h3
    rcases h3 with ⟨h3, -⟩ | h3 <;> cases h3
  | staged q st h1 h2 h3 h4 h5 h6 h7 =>
    rw [hw] at h3
    cases h3
    exact .answered q st h1 rfl (.inr rfl) h4 h5 h6 rfl

theorem Stage.storeRequests (h : Stage g s) {c : BitVec 32} (hw : s.worker = .published c) :
    Stage g { s with reqConsumer := c, worker := .idle } := by
  cases h with
  | settled h1 h2 h3 h4 h5 =>
    rw [hw] at h3
    rcases h3 with ⟨h3, -⟩ | h3
    · cases h3
    · cases h3
      exact .settled h1 h2 (.inl ⟨rfl, rfl⟩) h4 h5
  | asked q h1 h2 h3 h4 h5 h6 =>
    rw [hw] at h3
    rcases h3 with ⟨h3, -⟩ | h3
    · cases h3
    · cases h3
      exact .asked q h1 h2 (.inl ⟨rfl, rfl⟩) h4 h5 h6
  | staged q st h1 h2 h3 h4 h5 h6 h7 =>
    rw [hw] at h3
    cases h3
  | answered q st h1 h2 h3 h4 h5 h6 h7 =>
    rw [hw] at h3
    rcases h3 with ⟨h3, -⟩ | h3
    · cases h3
    · cases h3
      exact .answered q st h1 h2 (.inl ⟨rfl, rfl⟩) h4 h5 h6 h7

theorem Stage.submit (h : Stage g s) (hreq : s.reqProducer = s.cmpConsumer) (q : ControlRequest)
    (call : CallPhase) (next : BitVec 64) :
    Stage g { s with
      reqSlot := update s.reqSlot (spscIndex g.depth s.reqProducer) q
      reqProducer := s.reqProducer + 1, call, nextRequestId := next, sent := s.sent ++ [q] } := by
  have hno : s.reqProducer ≠ s.cmpConsumer + 1 := by
    rw [hreq]
    exact ne_add_one _
  cases h with
  | settled h1 h2 h3 h4 h5 =>
    refine .asked q (by rw [h1]) h2 h3 ?_ (by rw [h4]) h5
    rw [h1]
    exact update_self _ _ _
  | asked _ h1 | staged _ _ h1 | answered _ _ h1 => exact absurd h1 hno

theorem Stage.take (h : Stage g s) (hcmp : s.cmpProducer ≠ s.cmpConsumer) :
    Stage g { s with call := .idle, cmpConsumer := s.cmpConsumer + 1 } ∧
      ∃ q st, s.done.getLast? = some (q, st) ∧ s.sent.getLast? = some q ∧
        s.cmpSlot (spscIndex g.depth s.cmpConsumer) = ⟨q.requestId, st⟩ ∧
        s.cmpProducer = s.cmpConsumer + 1 := by
  cases h with
  | settled _ h2 | asked _ _ h2 | staged _ _ _ h2 => exact absurd h2 hcmp
  | answered q st h1 h2 h3 h4 h5 h6 h7 =>
    refine ⟨.settled h1 h2 h3 h5 h7, q, st, h6, ?_, h4, h2⟩
    rw [← h5, List.getLast?_map, h6]
    rfl

theorem Sound.submit (h : Sound g s) : Sound g (callSubmit g s).1 := by
  unfold callSubmit
  split
  · rename_i seen op e hcall
    split
    · exact ⟨h.stage.frame .idle s.um, nofun, nofun⟩
    have hreq := h.begun seen op e hcall
    refine ⟨h.stage.submit hreq _ _ _, nofun, fun id spin hw => ?_⟩
    simp only [CallPhase.waiting.injEq] at hw
    exact ⟨by simp only [hreq], _, List.getLast?_concat, hw.1⟩
  · exact h

theorem Sound.poll (h : Sound g s) (ready : Bool) : Sound g (callPoll g s ready).1 := by
  have hidle : Sound g { s with call := .idle } := ⟨h.stage.frame .idle s.um, nofun, nofun⟩
  unfold callPoll
  split
  · rename_i id spin hcall
    dsimp only
    split
    · exact hidle
    split
    · rename_i hav
      have hcmp : s.cmpProducer ≠ s.cmpConsumer := fun hc => hav (by rw [hc, toNat_sub_self'])
      exact ⟨(h.stage.take hcmp).1, nofun, nofun⟩
    split
    · exact hidle
    · split
      · refine ⟨h.stage.frame _ s.um, nofun, fun id' spin' hw => ?_⟩
        simp only [CallPhase.waiting.injEq] at hw
        exact hw.1 ▸ h.waiting id spin hcall
      · exact hidle
  · exact h

theorem controlProcess_frame (fails : Nat → Bool) :
    (controlProcess g s fails).call = s.call ∧
    (controlProcess g s fails).reqProducer = s.reqProducer ∧
    (controlProcess g s fails).cmpConsumer = s.cmpConsumer ∧ (controlProcess g s fails).sent = s.sent := by
  unfold controlProcess
  dsimp only
  split
  · exact ⟨rfl, rfl, rfl, rfl⟩
  · split <;> exact ⟨rfl, rfl, rfl, rfl⟩

theorem Sound.step (hdepth : 0 < g.depth) (h : Sound g s) {ev : ControlEv} (hev : Fresh s ev) :
    Sound g (s.step g ev) := by
  cases ev with
  | call op e =>
    simp only [Control.step]
    split
    · split
      · exact h
      · exact ⟨h.stage.frame _ s.um, fun _ _ _ _ => hev, nofun⟩
    · exact h
  | submit => exact h.submit
  | poll => exact h.poll ..
  | process fails =>
    simp only [Control.step]
    split
    · rename_i hidle
      obtain ⟨h1, h2, h3, h4⟩ := controlProcess_frame (g := g) (s := s) fails
      refine ⟨h.stage.process hdepth hidle fails, ?_, ?_⟩
      · rw [h1, h2, h3]
        exact h.begun
      · rw [h1, h2, h3, h4]
        exact h.waiting
    · exact h
  | storeCompletions =>
    simp only [Control.step]
    split
    · rename_i hw
      exact ⟨h.stage.storeCompletions hw, h.begun, h.waiting⟩
    · exact h
  | storeRequests =>
    simp only [Control.step]
    split
    · rename_i hw
      exact ⟨h.stage.storeRequests hw, h.begun, h.waiting⟩
    · exact h
  | others um => exact ⟨h.stage.frame s.call um, h.begun, h.waiting⟩

theorem sound_init (um : Plugin) (q : ControlRequest) (c : ControlCompletion) :
    Sound g (Control.init um q c) :=
  ⟨.settled rfl rfl (.inl ⟨rfl, rfl⟩) rfl rfl, nofun, nofun⟩

def OwnPublished (s : Control) : Prop := s.completed = s.sent.length

instance (s : Control) : Decidable (OwnPublished s) :=
  inferInstanceAs (Decidable (s.completed = s.sent.length))

theorem Sound.own_result (hdepth : 0 < g.depth) (h : Sound g s) {id : BitVec 64} {spin : Nat}
    (hcall : s.call = .waiting id spin) (hown : OwnPublished s) (ready : Bool) :
    ∃ q st, s.done.getLast? = some (q, st) ∧ s.sent.getLast? = some q ∧ q.requestId = id ∧
      (callPoll g s ready).2 = some (.status st) := by
  obtain ⟨hreq, q', hlast', hid⟩ := h.waiting id spin hcall
  have hcmp : s.cmpProducer ≠ s.cmpConsumer := by
    unfold OwnPublished at hown
    cases h.stage with
    | settled h1 => exact absurd (h1.symm.trans hreq) (ne_add_one _)
    | asked q h1 h2 h3 h4 h5 h6 =>
      rw [← h5, List.length_append, List.length_map, h6] at hown
      simp at hown
    | staged q st h1 h2 h3 h4 h5 h6 h7 =>
      rw [← h5, List.length_map] at hown
      omega
    | answered q st h1 h2 =>
      rw [h2]
      exact (ne_add_one _).symm
  obtain ⟨-, q, st, hdone, hsent, hslot, hp⟩ := h.stage.take hcmp
  cases hlast'.symm.trans hsent
  refine ⟨q', st, hdone, hsent, hid, ?_⟩
  have hav : (s.cmpProducer - s.cmpConsumer).toNat = 1 := by rw [hp, toNat_add_one_sub]
  simp only [callPoll, hcall, hav, hslot]
  rw [if_neg (by omega), if_pos Nat.one_ne_zero]
  simp [hid]

end

/-- In every run in which calls begin with nothing left behind, a call whose completion has been
published returns what the worker answered to its own request. -/
theorem control_own_result (g : Segment) (hlo : 8 ≤ g.depth) (um : Plugin)
    (q₀ : ControlRequest) (c₀ : ControlCompletion) (evs : List ControlEv)
    (h : Meets (Control.step g) Fresh (Control.init um q₀ c₀) evs) :
    let s := evs.foldl (Control.step g) (Control.init um q₀ c₀)
    ∀ id spin ready, s.call = .waiting id spin → OwnPublished s →
      ∃ q st, s.done.getLast? = some (q, st) ∧ s.sent.getLast? = some q ∧ q.requestId = id ∧
        (callPoll g s ready).2 = some (.status st) := by
  intro s id spin ready hcall hown
  have hdepth : 0 < g.depth := by omega
  have hsound : Sound g s := h.keep (fun _ _ hs hev => hs.step hdepth hev) (sound_init um q₀ c₀)
  exact hsound.own_result hdepth hcall hown ready

/-! ## A call after one that gave up -/

theorem polls_empty (g : Segment) {s : Control} (hcmp : s.cmpProducer = s.cmpConsumer) {id : BitVec 64}
    (k spin : Nat) (h : spin + k < clientAckSpins) (hcall : s.call = .waiting id spin) :
    (List.replicate k (ControlEv.poll true)).foldl (Control.step g) s
      = { s with call := .waiting id (spin + k) } := by
  induction k generalizing s spin with
  | zero =>
    rw [add_zero, ← hcall]
    rfl
  | succ k ih =>
    have hstep : s.step g (.poll true) = { s with call := .waiting id (spin + 1) } := by
      have hav : (s.cmpProducer - s.cmpConsumer).toNat = 0 := by rw [hcmp, toNat_sub_self']
      simp only [Control.step, callPoll, hcall, hav]
      rw [if_neg (Nat.not_lt_zero _), if_neg (by simp), if_neg (by simp), if_pos (by omega)]
    rw [List.replicate_succ, List.foldl_cons, hstep]
    refine (ih (s := { s with call := .waiting id (spin + 1) }) hcmp (spin + 1) (by omega) rfl).trans ?_
    rw [add_assoc, add_comm 1 k]

def smallSegment : Segment := ⟨8, 1⟩

def onePlugin : Plugin := ⟨fun ns => if ns = 1 then some 0 else none, []⟩

def someEndpoint : EndpointKey :=
  { ipVersion := 4, absolute := 1, pidOnFep := 7, resourceIndex := 1, reserved0 := 0, jobId := 0
    ipAddress := fun i => if i = 0 then 10 else if i = 3 then 1 else 0, reserved1 := 0 }

def noRequest : ControlRequest := controlRequest 0 0 someEndpoint

def freshControl : Control := .init onePlugin noRequest ⟨0, .ok⟩

def answer : List ControlEv := [.process fun _ => false, .storeCompletions, .storeRequests]

def givenUp : List ControlEv :=
  [.call controlEndpointAdd someEndpoint, .submit] ++ List.replicate 999999 (.poll true) ++ [.poll true]

/-- The next call: the endpoint is to be taken out again. -/
def nextCall : List ControlEv := [.call controlEndpointDel someEndpoint, .submit]

/-- The next call finds the answer to the one that gave up and fails, although its own request
has been carried out and its completion has been published. -/
theorem late_answer_fails_next :
    let s := (givenUp ++ answer ++ nextCall ++ answer).foldl (Control.step smallSegment) freshControl
    s.call = .waiting 2 0 ∧ OwnPublished s ∧
      (s.done.getLast?.map fun d => (d.1.requestId, d.2)) = some (2, .ok) ∧
      (callPoll smallSegment s true).2 = some (.error .eproto) := by
  have hgive : givenUp.foldl (Control.step smallSegment) freshControl =
      { ([ControlEv.call controlEndpointAdd someEndpoint, .submit].foldl
          (Control.step smallSegment) freshControl) with call := .idle } := by
    rw [givenUp, List.foldl_append, List.foldl_append, polls_empty smallSegment (by decide) 999999 0
      (by decide) (by decide : _ = CallPhase.waiting 1 0)]
    rfl
  simp only [List.foldl_append, hgive]
  exact ⟨by decide +kernel, by decide +kernel, by decide +kernel, by decide +kernel⟩

/-- Without the call that gave up, the registration gets its result. -/
theorem control_own_result_add :
    let s := ([ControlEv.call controlEndpointAdd someEndpoint, .submit] ++ answer).foldl
      (Control.step smallSegment) freshControl
    ∃ q st, s.done.getLast? = some (q, st) ∧ s.sent.getLast? = some q ∧ q.requestId = 1 ∧
      (callPoll smallSegment s true).2 = some (.status st) :=
  control_own_result smallSegment (by decide) onePlugin noRequest ⟨0, .ok⟩
    ([ControlEv.call controlEndpointAdd someEndpoint, .submit] ++ answer)
    ⟨rfl, trivial, trivial, trivial, trivial, trivial⟩ 1 0 true (by decide +kernel) (by decide +kernel)

end Uet.Vpp
