import Uet.Vpp.RxExchange

/-!
# Attaching to a segment and leaving it

The library tells the workers by a flag, `DMA_READY`, that they may use the rings of a segment, and a
counter tells the library how many of them have noted it. A worker looks at the flag in
`uet_svm_process`, where it also notes changes, and in `uet_local_deliver`, where it does not; it goes
by what it saw until the node is done.

`uet_vpp_client_close` clears the flag, waits for the counter to become zero, looks at all rings and
releases the segment. A worker that has seen the flag set and has not noted it is not in the
counter. So closing is safe as long as no worker is in that state when the flag is cleared
(`Settled`); the library clears the flag without that when it has given up waiting.
-/

namespace Uet.Vpp

open Guarded List

/-! ## Workers -/

/-- Where a worker is: between nodes; in `uet_svm_process` with the flag that it has loaded,
consuming the last releases, or with the rings; in `uet_local_deliver` before it has looked at the
flag of the channel, or with what it has seen there. -/
inductive NodePhase where
  | idle
  | input (seen : Bool)
  | leaving
  | serving
  | prepare
  | deliver (seen : Bool)
  deriving DecidableEq

/-- A worker with its channel; `answered` counts requests whose completions are published
before they are given back, `dmaInflight` belongs to the library. -/
structure Channel where
  dmaReadyAck : Bool
  phase : NodePhase
  tx : Nat
  cq : Nat
  answered : Nat
  dmaInflight : Nat
  ex : RxExchange

inductive WorkEv where
  | input
  | acknowledge
  | leave
  | releaseLoad
  | releaseNext
  | releaseStore
  | answer (k : Nat)
  | retire
  | control (k : Nat)
  | controlRetire
  | finish
  | node
  | sample
  | select
  | publish (pending : Nat) (packet : Packet)
  | store
  | done

/-- `uet_rx_release_process` is called in both nodes. -/
def NodePhase.releases : NodePhase → Bool
  | .leaving | .serving | .prepare => true
  | _ => false

section

variable (m : DmaMap)

def Channel.work (ready : Bool) (c : Channel) : WorkEv → Channel
  | .input => if c.phase = .idle then { c with phase := .input ready } else c
  | .acknowledge =>
    match c.phase with
    | .input true => { c with dmaReadyAck := true, phase := .serving }
    | .input false => { c with phase := if c.dmaReadyAck then .leaving else .idle }
    | _ => c
  | .leave =>
    if c.phase = .leaving ∧ c.ex.batch.isNone then { c with dmaReadyAck := false, phase := .idle } else c
  | .releaseLoad => if c.phase.releases then { c with ex := c.ex.releaseLoad } else c
  | .releaseNext => if c.phase.releases then { c with ex := c.ex.releaseNext } else c
  | .releaseStore => if c.phase.releases then { c with ex := c.ex.releaseStore } else c
  | .answer k =>
    if c.phase = .serving ∧ c.answered + k ≤ c.tx then
      { c with cq := c.cq + k, answered := c.answered + k }
    else c
  | .retire => if c.phase = .serving then { c with tx := c.tx - c.answered, answered := 0 } else c
  | .control _ | .controlRetire => c
  | .finish =>
    if c.phase = .serving ∧ c.ex.batch.isNone ∧ c.answered = 0 then { c with phase := .idle } else c
  | .node => if c.phase = .idle then { c with phase := .prepare } else c
  | .sample => if c.phase = .prepare ∧ c.ex.batch.isNone then { c with phase := .deliver ready } else c
  | .select =>
    match c.phase with
    | .deliver _ => if c.ex.rxStaged.isEmpty then { c with phase := .deliver ready } else c
    | _ => c
  | .publish pending pkt =>
    if c.phase = .deliver true then { c with ex := c.ex.publish m pending pkt } else c
  | .store => if c.phase = .deliver true then { c with ex := c.ex.store } else c
  | .done =>
    match c.phase with
    | .deliver _ => if c.ex.rxStaged.isEmpty then { c with phase := .idle } else c
    | _ => c

/-! ## The library -/

/-- What `uet_vpp_client_is_drained` looks at, one after the other. -/
inductive Check where
  | inflight (i : Nat)
  | tx (i : Nat)
  | cq (i : Nat)
  | rx (i : Nat)
  | release (i : Nat)
  | requests
  | completions
  deriving DecidableEq

def checks (n : Nat) (requireReleaseDrain : Bool) : List Check :=
  (List.range n).flatMap (fun i => [.inflight i, .tx i, .cq i, .rx i] ++
    if requireReleaseDrain then [.release i] else []) ++ [.requests, .completions]

/-- Where the application is in the library: it has no segment, it is between lifecycle
calls, or it is in one of them. -/
inductive ClientPhase where
  | closed
  | opened
  | mapWait (spin : Nat)
  | rollbackWait (spin : Nat)
  | checking (requireReleaseDrain : Bool) (todo : List Check)
  | closeWait (spin : Nat)
  | reopenWait (spin : Nat)
  deriving DecidableEq

/-- A segment with its workers and its application. `clean` says that the last application has left by
a close that returned zero, and that the flag has not been set since. -/
structure Session where
  channels : List Channel
  dmaReadyCount : Nat
  dmaReady : Bool
  requests : Nat
  completions : Nat
  controlAnswered : Nat
  client : ClientPhase
  dmaMap : Bool
  clean : Bool

/-- One turn of `uet_vpp_client_wait_dma_ack`. -/
inductive WaitResult where
  | acked
  | gaveUp
  | again
  deriving DecidableEq

def waitTurn (count expected workerCount spin : Nat) (ready : Bool) : WaitResult :=
  if count = expected then .acked
  else if workerCount < count then .gaveUp
  else if !ready then .gaveUp
  else if spin + 1 < clientAckSpins then .again
  else .gaveUp

def Session.drained (s : Session) : Check → Bool
  | .inflight i => s.channels[i]?.all fun c => c.dmaInflight == 0 && c.ex.rxInflight == 0
  | .tx i => s.channels[i]?.all fun c => c.tx == 0
  | .cq i => s.channels[i]?.all fun c => c.cq == 0
  | .rx i => s.channels[i]?.all fun c => c.ex.rxRing.isEmpty
  | .release i => s.channels[i]?.all fun c => c.ex.releases.isEmpty
  | .requests => s.requests == 0
  | .completions => s.completions == 0

/-- What the library does next. `open`, `map` and `close` begin a lifecycle call, `wait`
and `check` go on with it; the others are calls between them. -/
inductive ClientEv where
  | open
  | map
  | close
  | wait (ready : Bool)
  | check
  | submit (i k : Nat)
  | pollTx (i k : Nat)
  | pollRx (i : Nat) (base : Int) (k : Nat)
  | releaseRx (i behind : Nat) (rxs : List Rx)
  | call
  | callTake

def Channel.attach (c : Channel) : Channel :=
  { c with dmaInflight := 0, ex := { c.ex with tokenIds := fun _ => 0, rxInflight := 0 } }

def Session.onChannel (s : Session) (i : Nat) (f : Channel → Channel) : Session :=
  match s.channels[i]? with
  | none => s
  | some c => { s with channels := s.channels.set i (f c) }

def Session.wait (s : Session) (ready : Bool) : Session :=
  let n := s.channels.length
  match s.client with
  | .mapWait spin =>
    match waitTurn s.dmaReadyCount n n spin ready with
    | .acked => { s with client := .opened }
    | .gaveUp => { s with dmaReady := false, client := .rollbackWait 0 }
    | .again => { s with client := .mapWait (spin + 1) }
  | .rollbackWait spin =>
    match waitTurn s.dmaReadyCount 0 n spin ready with
    | .acked => { s with dmaMap := false, client := .opened }
    | .gaveUp => { s with client := .opened }
    | .again => { s with client := .rollbackWait (spin + 1) }
  | .closeWait spin =>
    match waitTurn s.dmaReadyCount 0 n spin ready with
    | .acked => { s with client := .checking true (checks n true) }
    | .gaveUp => { s with dmaReady := true, client := .reopenWait 0 }
    | .again => { s with client := .closeWait (spin + 1) }
  | .reopenWait spin =>
    match waitTurn s.dmaReadyCount n n spin ready with
    | .acked | .gaveUp => { s with client := .opened }
    | .again => { s with client := .reopenWait (spin + 1) }
  | _ => s

def Session.check (s : Session) : Session :=
  match s.client with
  | .checking full (k :: todo) =>
    if s.drained k then { s with client := .checking full todo }
    else if full then { s with dmaReady := true, client := .reopenWait 0 }
    else { s with client := .opened }
  | .checking full [] =>
    if !full && s.dmaMap then { s with dmaReady := false, client := .closeWait 0 }
    else { s with dmaMap := false, client := .closed, clean := true }
  | _ => s

def Session.usable (s : Session) : Bool := s.client == .opened && s.dmaMap

def Session.clientStep (s : Session) : ClientEv → Session
  | .open =>
    if s.client = .closed then
      { s with channels := s.channels.map Channel.attach, client := .opened }
    else s
  | .map =>
    if s.client = .opened ∧ s.dmaMap = false then
      { s with channels := s.channels.map Channel.attach, dmaMap := true, dmaReady := true
               clean := false, client := .mapWait 0 }
    else s
  | .close =>
    if s.client = .opened then { s with client := .checking false (checks s.channels.length false) } else s
  | .wait ready => s.wait ready
  | .check => s.check
  | .submit i k =>
    if s.usable then s.onChannel i fun c => { c with tx := c.tx + k, dmaInflight := c.dmaInflight + k }
    else s
  | .pollTx i k =>
    if s.usable then s.onChannel i fun c =>
      if k ≤ c.cq then { c with cq := c.cq - k, dmaInflight := c.dmaInflight - k } else c
    else s
  | .pollRx i base k =>
    if s.usable then s.onChannel i fun c => { c with ex := c.ex.poll base m.size k } else s
  | .releaseRx i behind rxs =>
    if s.usable then s.onChannel i fun c => { c with ex := (c.ex.release behind rxs).1 } else s
  | .call => if s.usable then { s with requests := s.requests + 1 } else s
  | .callTake => if s.usable then { s with completions := s.completions - 1 } else s

def countAfter (count : Nat) (old new : Bool) : Nat :=
  if old = new then count else if new then count + 1 else count - 1

def Session.workAt (s : Session) (i : Nat) (c : Channel) (ev : WorkEv) : Session :=
  let c' := c.work m s.dmaReady ev
  { s with channels := s.channels.set i c'
           dmaReadyCount := countAfter s.dmaReadyCount c.dmaReadyAck c'.dmaReadyAck }

def Session.work (s : Session) (i : Nat) (ev : WorkEv) : Session :=
  match s.channels[i]? with
  | none => s
  | some c =>
    match ev with
    | .control k =>
      if i = 0 ∧ c.phase = .serving ∧ s.controlAnswered + k ≤ s.requests then
        { s with completions := s.completions + k, controlAnswered := s.controlAnswered + k }
      else s
    | .controlRetire =>
      if i = 0 ∧ c.phase = .serving then
        { s with requests := s.requests - s.controlAnswered, controlAnswered := 0 }
      else s
    | .finish => if i = 0 ∧ s.controlAnswered ≠ 0 then s else s.workAt m i c .finish
    | ev => s.workAt m i c ev

inductive SessionEv where
  | work (i : Nat) (ev : WorkEv)
  | client (ev : ClientEv)

def Session.step (s : Session) : SessionEv → Session
  | .work i ev => s.work m i ev
  | .client ev => s.clientStep m ev

end

/-- A segment as `uet_svm_create` makes it, for `n` workers. -/
def Session.init (n queueDepth : Nat) (generation : BitVec 64) : Session :=
  { channels := (List.range n).map fun i =>
      { dmaReadyAck := false, phase := .idle, tx := 0, cq := 0, answered := 0, dmaInflight := 0
        ex := .init queueDepth generation (BitVec.ofNat 64 i) }
    dmaReadyCount := 0, dmaReady := false, requests := 0, completions := 0, controlAnswered := 0
    client := .closed, dmaMap := false, clean := true }

def Channel.Holds (c : Channel) : Prop := c.phase = .input true ∨ c.phase = .deliver true

instance (c : Channel) : Decidable c.Holds :=
  inferInstanceAs (Decidable (c.phase = .input true ∨ c.phase = .deliver true))

def Settled (m : DmaMap) (s : Session) (ev : SessionEv) : Prop :=
  s.dmaReady = true → (s.step m ev).dmaReady = false →
    ∀ c ∈ s.channels, c.Holds → c.dmaReadyAck = true

instance (m : DmaMap) (s : Session) (ev : SessionEv) : Decidable (Settled m s ev) :=
  inferInstanceAs (Decidable (_ → _ → _))

/-! ## One worker -/

/-- What a worker goes by: a flag that it saw set is still set, or the worker has noted it; in
the rings it has noted it; what it has written and not published, it will publish in the node. -/
structure PhaseOk (ready : Bool) (c : Channel) : Prop where
  holds : c.Holds → c.dmaReadyAck = true ∨ ready = true
  noted : c.phase = .serving ∨ c.phase = .leaving → c.dmaReadyAck = true
  staged : c.ex.rxStaged ≠ [] → c.phase = .deliver true

section

variable {m : DmaMap} {ready : Bool} {c c' : Channel}

/-- What consuming releases does to the exchange of a channel. -/
structure Consumed (ex ex' : RxExchange) : Prop where
  ok : ex.Ok → ex'.Ok
  staged : ex'.rxStaged = ex.rxStaged
  ring : ex'.rxRing = ex.rxRing
  inflight : ex'.rxInflight = ex.rxInflight
  releases : ex.releases = [] → ex'.releases = []

variable (ex : RxExchange)

theorem releaseLoad_consumed : Consumed ex ex.releaseLoad := by
  refine ⟨fun h => h.releaseLoad, ?_, ?_, ?_, fun h => ?_⟩ <;> unfold RxExchange.releaseLoad <;> split
  all_goals first | rfl | exact h

theorem releaseNext_consumed : Consumed ex ex.releaseNext := by
  refine ⟨fun h => h.releaseNext, ?_, ?_, ?_, fun h => ?_⟩ <;> unfold RxExchange.releaseNext
  all_goals
    split
    · first | rfl | exact h
    split
    · split <;> first | rfl | exact h
    · first | rfl | exact h

theorem releaseStore_consumed : Consumed ex ex.releaseStore := by
  refine ⟨fun h => h.releaseStore, ?_, ?_, ?_, fun h => ?_⟩ <;> unfold RxExchange.releaseStore
  all_goals
    split
    · first | rfl | exact h
    split
    · first | rfl | exact h
    · first | rfl | (dsimp only; rw [h, drop_nil])

theorem publish_keeps (m : DmaMap) (ex : RxExchange) (pending : Nat) (pkt : Packet) :
    (ex.publish m pending pkt).rxInflight = ex.rxInflight ∧
    (ex.publish m pending pkt).releases = ex.releases := by
  unfold RxExchange.publish
  split <;> exact ⟨rfl, rfl⟩

/-- What a worker can do in one step: it goes to another place with nothing written and not
published, it notes the flag or takes the note back, it consumes releases, it serves requests, or it
writes packets by the flag that it saw. -/
inductive Worked (ready : Bool) (c : Channel) : Channel → Prop
  | same : Worked ready c c
  | enter (phase : NodePhase) (staged : c.phase = .deliver true → c.ex.rxStaged = [])
      (holds : phase = .input true ∨ phase = .deliver true → ready = true)
      (noted : phase = .serving ∨ phase = .leaving → c.dmaReadyAck = true) :
      Worked ready c { c with phase }
  | note (phase : c.phase = .input true) :
      Worked ready c { c with dmaReadyAck := true, phase := .serving }
  | leave (phase : c.phase = .leaving) :
      Worked ready c { c with dmaReadyAck := false, phase := .idle }
  | consume (ex : RxExchange) (h : Consumed c.ex ex) : Worked ready c { c with ex }
  | serve (tx cq answered : Nat) (phase : c.phase = .serving) : Worked ready c { c with tx, cq, answered }
  | write (ex : RxExchange) (phase : c.phase = .deliver true) (ok : c.ex.Ok → ex.Ok)
      (inflight : ex.rxInflight = c.ex.rxInflight) (releases : ex.releases = c.ex.releases) :
      Worked ready c { c with ex }

theorem Worked.iff {p : Prop} [Decidable p] (h : p → Worked ready c c') :
    Worked ready c (if p then c' else c) := by
  split
  · exact h ‹p›
  · exact .same

theorem Worked.goIdle (hstaged : c.phase = .deliver true → c.ex.rxStaged = []) :
    Worked ready c { c with phase := .idle } :=
  .enter .idle hstaged (by rintro (h | h) <;> cases h) (by rintro (h | h) <;> cases h)

theorem Worked.deliver (hstaged : c.phase = .deliver true → c.ex.rxStaged = []) :
    Worked ready c { c with phase := .deliver ready } := by
  refine .enter _ hstaged (fun h => ?_) (by rintro (h | h) <;> cases h)
  rcases h with h | h <;> cases h
  rfl

theorem work_worked (m : DmaMap) (ready : Bool) (c : Channel) (ev : WorkEv) : Worked ready c (c.work m ready ev) := by
  cases ev with
  | input =>
    refine .iff fun h => .enter _ (by rw [h]; nofun) (fun hseen => ?_) (by rintro (h | h) <;> cases h)
    rcases hseen with hseen | hseen <;> cases hseen
    rfl
  | acknowledge =>
    simp only [Channel.work]
    split
    · exact .note ‹_›
    · rename_i h
      refine .enter _ (by rw [h]; nofun) (fun hseen => ?_) fun hin => ?_
      · split at hseen <;> rcases hseen with hseen | hseen <;> cases hseen
      · split at hin
        · assumption
        · rcases hin with hin | hin <;> cases hin
    · exact .same
  | leave => exact .iff fun h => .leave h.1
  | releaseLoad => exact .iff fun _ => .consume _ (releaseLoad_consumed c.ex)
  | releaseNext => exact .iff fun _ => .consume _ (releaseNext_consumed c.ex)
  | releaseStore => exact .iff fun _ => .consume _ (releaseStore_consumed c.ex)
  | answer k => exact .iff fun h => .serve c.tx _ _ h.1
  | retire => exact .iff fun h => .serve _ c.cq _ h
  | control k | controlRetire => exact .same
  | finish => exact .iff fun h => .goIdle (by rw [h.1]; nofun)
  | node =>
    exact .iff fun h => .enter _ (by rw [h]; nofun) (by rintro (h | h) <;> cases h) (by rintro (h | h) <;> cases h)
  | sample => exact .iff fun h => .deliver (by rw [h.1]; nofun)
  | select =>
    simp only [Channel.work]
    split
    · exact .iff fun h => .deliver fun _ => List.isEmpty_iff.mp h
    · exact .same
  | publish pending pkt =>
    obtain ⟨hinflight, hreleases⟩ := publish_keeps m c.ex pending pkt
    exact .iff fun h => .write _ h (fun hok => hok.publish m pending pkt) hinflight hreleases
  | store => exact .iff fun h => .write _ h (fun hok => hok.store) rfl rfl
  | done =>
    simp only [Channel.work]
    split
    · exact .iff fun h => .goIdle fun _ => List.isEmpty_iff.mp h
    · exact .same

theorem work_ex (h : c.ex.Ok) (ev : WorkEv) : (c.work m ready ev).ex.Ok := by
  have hwork := work_worked m ready c ev
  generalize c.work m ready ev = c' at hwork
  cases hwork with
  | consume ex hex => exact hex.ok h
  | write ex _ hok => exact hok h
  | _ => exact h

theorem work_library (m : DmaMap) (ready : Bool) (c : Channel) (ev : WorkEv) :
    (c.work m ready ev).dmaInflight = c.dmaInflight ∧
    (c.work m ready ev).ex.rxInflight = c.ex.rxInflight ∧
    (c.ex.releases = [] → (c.work m ready ev).ex.releases = []) := by
  have hwork := work_worked m ready c ev
  generalize c.work m ready ev = c' at hwork
  cases hwork with
  | consume ex hex => exact ⟨rfl, hex.inflight, hex.releases⟩
  | write ex _ _ hinflight hreleases => exact ⟨rfl, hinflight, fun h => hreleases.trans h⟩
  | _ => exact ⟨rfl, rfl, id⟩

theorem PhaseOk.staged_nil (h : PhaseOk ready c) (hphase : c.phase = .deliver true → c.ex.rxStaged = []) :
    c.ex.rxStaged = [] := by
  by_contra hne
  exact hne (hphase (h.staged hne))

theorem PhaseOk.work (h : PhaseOk ready c) (ev : WorkEv) : PhaseOk ready (c.work m ready ev) := by
  have hwork := work_worked m ready c ev
  generalize c.work m ready ev = c' at hwork
  cases hwork with
  | same => exact h
  | enter phase hstaged hholds hnoted =>
    exact ⟨fun hh => .inr (hholds hh), hnoted, fun hne => absurd (h.staged_nil hstaged) hne⟩
  | note hphase =>
    exact ⟨fun _ => .inl rfl, fun _ => rfl, fun hne => absurd (h.staged_nil (by rw [hphase]; nofun)) hne⟩
  | leave hphase =>
    refine ⟨?_, ?_, fun hne => absurd (h.staged_nil (by rw [hphase]; nofun)) hne⟩
    · rintro (hh | hh) <;> cases hh
    · rintro (hh | hh) <;> cases hh
  | consume ex hex => exact ⟨h.holds, h.noted, fun hne => h.staged (hex.staged ▸ hne)⟩
  | serve => exact ⟨h.holds, h.noted, h.staged⟩
  | write ex hphase => exact ⟨h.holds, h.noted, fun _ => hphase⟩

def Channel.rings (c : Channel) : Nat × Nat × List RxDesc × List RxDesc :=
  (c.tx, c.cq, c.ex.rxRing, c.ex.rxStaged)

theorem work_quiet (h : PhaseOk false c) (hack : c.dmaReadyAck = false) (ev : WorkEv) :
    (c.work m false ev).dmaReadyAck = false ∧ (c.work m false ev).rings = c.rings := by
  have hacked : ∀ {p : Prop}, c.dmaReadyAck = true → p := fun ht => by
    rw [hack] at ht
    cases ht
  have hholds : ¬ c.Holds := fun hh => (h.holds hh).elim hacked nofun
  have hwork := work_worked m false c ev
  generalize c.work m false ev = c' at hwork
  cases hwork with
  | note hphase => exact absurd (.inl hphase) hholds
  | leave hphase => exact hacked (h.noted (.inr hphase))
  | serve _ _ _ hphase => exact hacked (h.noted (.inl hphase))
  | write ex hphase => exact absurd (.inr hphase) hholds
  | consume ex hex => exact ⟨hack, by simp only [Channel.rings, hex.staged, hex.ring]⟩
  | _ => exact ⟨hack, rfl⟩

end

/-! ## The session -/

def Session.Quiet (s : Session) : Prop :=
  s.dmaReady = false ∧ ∀ c ∈ s.channels, c.dmaReadyAck = false

def Channel.Unused (c : Channel) : Prop :=
  c.dmaInflight = 0 ∧ c.ex.rxInflight = 0 ∧ c.ex.releases = []

def Session.Empty (s : Session) : Prop :=
  s.requests = 0 ∧ s.completions = 0 ∧ ∀ c ∈ s.channels, c.tx = 0 ∧ c.cq = 0 ∧ c.ex.rxRing = []

/-- What the library can rely on where it is. Checks that are made while the workers may still
use the rings say nothing. -/
def Session.At (s : Session) : ClientPhase → Prop
  | .closed => s.dmaMap = false
  | .opened => True
  | .mapWait _ => s.dmaMap = true ∧ ∀ c ∈ s.channels, c.Unused
  | .rollbackWait _ => s.dmaMap = true ∧ s.dmaReady = false ∧ ∀ c ∈ s.channels, c.Unused
  | .checking full todo => (full = true → s.dmaMap = true ∧ s.Quiet) ∧
    (s.dmaMap = false ∨ full = true →
      ∃ made, checks s.channels.length full = made ++ todo ∧ ∀ k ∈ made, s.drained k = true)
  | .closeWait _ => s.dmaMap = true ∧ s.dmaReady = false
  | .reopenWait _ => s.dmaMap = true

structure Session.Inv (s : Session) : Prop where
  ex : ∀ c ∈ s.channels, c.ex.Ok
  phase : ∀ c ∈ s.channels, PhaseOk s.dmaReady c
  count : s.dmaReadyCount = s.channels.countP Channel.dmaReadyAck
  unmapped : s.dmaMap = false → s.Quiet ∧ ∀ c ∈ s.channels, c.Unused
  clean : s.clean = true → s.dmaMap = false ∧ s.Empty
  client : s.At s.client

section

variable {m : DmaMap} {s : Session}

theorem work_cases (s : Session) (i : Nat) (ev : WorkEv) :
    s.work m i ev = s ∨
    (∃ c ∈ s.channels, c.phase = .serving ∧ ∃ requests completions controlAnswered,
      s.work m i ev = { s with requests, completions, controlAnswered }) ∨
    (∃ c, s.channels[i]? = some c ∧ s.work m i ev = s.workAt m i c ev) := by
  unfold Session.work
  split
  · exact .inl rfl
  rename_i c hget
  split
  · split
    · rename_i hserve
      exact .inr (.inl ⟨c, mem_of_getElem? hget, hserve.2.1, _, _, _, rfl⟩)
    · exact .inl rfl
  · split
    · rename_i hserve
      exact .inr (.inl ⟨c, mem_of_getElem? hget, hserve.2, _, _, _, rfl⟩)
    · exact .inl rfl
  · split
    · exact .inl rfl
    · exact .inr (.inr ⟨c, hget, rfl⟩)
  · exact .inr (.inr ⟨c, hget, rfl⟩)

variable {i : Nat}

theorem forall_workAt {P : Channel → Prop} {c : Channel} (hget : s.channels[i]? = some c) (ev : WorkEv)
    (h : ∀ c ∈ s.channels, P c) (hstep : P c → P (c.work m s.dmaReady ev)) :
    ∀ c' ∈ (s.workAt m i c ev).channels, P c' := by
  intro c' hmem
  rcases mem_or_eq_of_mem_set hmem with hmem | rfl
  · exact h c' hmem
  · exact hstep (h c (mem_of_getElem? hget))

theorem count_workAt {c : Channel} (hget : s.channels[i]? = some c)
    (h : s.dmaReadyCount = s.channels.countP Channel.dmaReadyAck) (ev : WorkEv) : (s.workAt m i c ev).dmaReadyCount =
      (s.workAt m i c ev).channels.countP Channel.dmaReadyAck := by
  obtain ⟨l₁, l₂, heq, hset⟩ := exists_set hget
  have hold : s.dmaReadyCount = l₁.countP Channel.dmaReadyAck +
      ((if c.dmaReadyAck then 1 else 0) + l₂.countP Channel.dmaReadyAck) := by
    rw [h, heq, countP_append, countP_cons, add_comm (countP _ l₂)]
  have hnew : (s.workAt m i c ev).channels.countP Channel.dmaReadyAck = l₁.countP Channel.dmaReadyAck +
        ((if (c.work m s.dmaReady ev).dmaReadyAck then 1 else 0) + l₂.countP Channel.dmaReadyAck) := by
    rw [Session.workAt]
    rw [hset, countP_append, countP_cons, add_comm (countP _ l₂)]
  have hcount : (s.workAt m i c ev).dmaReadyCount =
      countAfter s.dmaReadyCount c.dmaReadyAck (c.work m s.dmaReady ev).dmaReadyAck := rfl
  rw [hcount, hnew, hold]
  generalize (c.work m s.dmaReady ev).dmaReadyAck = new
  generalize c.dmaReadyAck = old
  cases old <;> cases new <;> simp [countAfter] <;> omega

theorem all_workAt {p : Channel → Bool} {j : Nat} {c : Channel} (hget : s.channels[i]? = some c) (ev : WorkEv)
    (hstep : p c = true → p (c.work m s.dmaReady ev) = true) (h : s.channels[j]?.all p = true) :
    (s.workAt m i c ev).channels[j]?.all p = true := by
  have hlt := (List.getElem?_eq_some_iff.mp hget).1
  rw [Session.workAt]
  by_cases hij : i = j
  · subst hij
    rw [hget] at h
    rw [getElem?_set_self hlt]
    exact hstep h
  · rw [getElem?_set_ne hij]
    exact h

section

variable (h : s.Inv)
include h

theorem quiet_workAt {c : Channel} (hquiet : s.Quiet) (hget : s.channels[i]? = some c) (ev : WorkEv) :
    (c.work m s.dmaReady ev).dmaReadyAck = false ∧ (c.work m s.dmaReady ev).rings = c.rings := by
  have hmem := mem_of_getElem? hget
  have hphase := h.phase c hmem
  rw [hquiet.1] at hphase ⊢
  exact work_quiet hphase (hquiet.2 c hmem) ev

theorem drained_workAt {c : Channel} (hquiet : s.Quiet) (hget : s.channels[i]? = some c) (ev : WorkEv)
    {k : Check} (hk : s.drained k = true) : (s.workAt m i c ev).drained k = true := by
  obtain ⟨-, hrings⟩ := quiet_workAt (m := m) h hquiet hget ev
  obtain ⟨hdma, hinf, hrel⟩ := work_library m s.dmaReady c ev
  simp only [Channel.rings, Prod.mk.injEq] at hrings
  cases k with
  | inflight j =>
    refine all_workAt hget ev (fun hc => ?_) hk
    rw [hdma, hinf]
    exact hc
  | tx j =>
    refine all_workAt hget ev (fun hc => ?_) hk
    rw [hrings.1]
    exact hc
  | cq j =>
    refine all_workAt hget ev (fun hc => ?_) hk
    rw [hrings.2.1]
    exact hc
  | rx j =>
    refine all_workAt hget ev (fun hc => ?_) hk
    rw [hrings.2.2.1]
    exact hc
  | release j =>
    refine all_workAt hget ev (fun hc => ?_) hk
    rw [hrel (List.isEmpty_iff.mp hc)]
    rfl
  | requests => exact hk
  | completions => exact hk

theorem not_serving (hquiet : s.Quiet) {c : Channel} (hc : c ∈ s.channels) : c.phase ≠ .serving := by
  intro hp
  have hack := (h.phase c hc).noted (.inl hp)
  rw [hquiet.2 c hc] at hack
  cases hack

theorem At.workAt {c : Channel} (hget : s.channels[i]? = some c) (ev : WorkEv)
    (hunused : (∀ c ∈ s.channels, c.Unused) → ∀ c' ∈ (s.workAt m i c ev).channels, c'.Unused)
    (hquiet : s.Quiet → (s.workAt m i c ev).Quiet) {p : ClientPhase} (hat : s.At p) : (s.workAt m i c ev).At p := by
  cases p with
  | closed | opened | closeWait spin | reopenWait spin => exact hat
  | mapWait spin => exact ⟨hat.1, hunused hat.2⟩
  | rollbackWait spin => exact ⟨hat.1, hat.2.1, hunused hat.2.2⟩
  | checking full todo =>
    refine ⟨fun hf => ⟨(hat.1 hf).1, hquiet (hat.1 hf).2⟩, fun hsure => ?_⟩
    have hq : s.Quiet := by
      rcases hsure with hmap | hfull
      · exact (h.unmapped hmap).1
      · exact (hat.1 hfull).2
    obtain ⟨made, hmade, hdrained⟩ := hat.2 hsure
    have hlen : (s.workAt m i c ev).channels.length = s.channels.length := length_set
    rw [hlen]
    exact ⟨made, hmade, fun k hk => drained_workAt h hq hget ev (hdrained k hk)⟩

theorem Session.Inv.workAt {c : Channel} (hget : s.channels[i]? = some c) (ev : WorkEv) :
    (s.workAt m i c ev).Inv := by
  have hunused : (∀ c ∈ s.channels, c.Unused) → ∀ c' ∈ (s.workAt m i c ev).channels, c'.Unused :=
    fun hall => forall_workAt hget ev hall fun hc => by
      obtain ⟨h1, h2, h3⟩ := work_library m s.dmaReady c ev
      exact ⟨h1.trans hc.1, h2.trans hc.2.1, h3 hc.2.2⟩
  have hquiet : s.Quiet → (s.workAt m i c ev).Quiet := fun hq =>
    ⟨hq.1, forall_workAt hget ev hq.2 fun _ => (quiet_workAt h hq hget ev).1⟩
  constructor
  case ex => exact forall_workAt hget ev h.ex fun hc => work_ex hc ev
  case phase => exact forall_workAt hget ev h.phase fun hc => hc.work ev
  case count => exact count_workAt hget h.count ev
  case unmapped => exact fun hm => ⟨hquiet (h.unmapped hm).1, hunused (h.unmapped hm).2⟩
  case clean =>
    intro hclean
    obtain ⟨hmap, hreq, hcompl, hrings⟩ := h.clean hclean
    refine ⟨hmap, hreq, hcompl, forall_workAt hget ev hrings fun hc => ?_⟩
    obtain ⟨-, heq⟩ := quiet_workAt (m := m) h (h.unmapped hmap).1 hget ev
    simp only [Channel.rings, Prod.mk.injEq] at heq
    exact ⟨heq.1.trans hc.1, heq.2.1.trans hc.2.1, heq.2.2.1.trans hc.2.2⟩
  case client => exact At.workAt h hget ev hunused hquiet h.client

theorem Session.Inv.control {c : Channel} (hc : c ∈ s.channels) (hserve : c.phase = .serving)
    (requests completions controlAnswered : Nat) :
    Session.Inv { s with requests, completions, controlAnswered } := by
  have hnot : ¬ s.Quiet := fun hq => not_serving h hq hc hserve
  refine { h with clean := fun hclean => ?_, client := ?_ }
  · exact absurd (h.unmapped (h.clean hclean).1).1 hnot
  · have hat := h.client
    cases hp : s.client with
    | checking full todo =>
      rw [hp] at hat
      refine ⟨hat.1, fun hsure => ?_⟩
      rcases hsure with hmap | hfull
      · exact absurd (h.unmapped hmap).1 hnot
      · exact absurd (hat.1 hfull).2 hnot
    | _ =>
      rw [hp] at hat
      exact hat

theorem Session.Inv.work (i : Nat) (ev : WorkEv) : (s.work m i ev).Inv := by
  rcases work_cases (m := m) s i ev with heq | ⟨c, hc, hserve, r, k, a, heq⟩ | ⟨c, hget, heq⟩
  · rw [heq]
    exact h
  · rw [heq]
    exact h.control hc hserve r k a
  · rw [heq]
    exact h.workAt hget ev

end

theorem PhaseOk.set {ready : Bool} {c : Channel} (h : PhaseOk ready c) : PhaseOk true c :=
  { h with holds := fun _ => .inr rfl }

theorem phase_clear (h : s.Inv)
    (hsettled : s.dmaReady = true → ∀ c ∈ s.channels, c.Holds → c.dmaReadyAck = true) :
    ∀ c ∈ s.channels, PhaseOk false c := by
  intro c hc
  have hphase := h.phase c hc
  cases hready : s.dmaReady with
  | false =>
    rw [hready] at hphase
    exact hphase
  | true => exact { hphase with holds := fun hh => .inl (hsettled hready c hc hh) }

theorem acks_of_count (h : s.Inv) (hcount : s.dmaReadyCount = 0) :
    ∀ c ∈ s.channels, c.dmaReadyAck = false := by
  intro c hc
  have hzero := h.count.symm.trans hcount
  rw [countP_eq_zero] at hzero
  exact Bool.eq_false_iff.mpr (hzero c hc)

theorem not_clean (h : s.Inv) (hmap : s.dmaMap = true) : s.clean = false := by
  cases hc : s.clean with
  | false => rfl
  | true =>
    have hm := (h.clean hc).1
    rw [hmap] at hm
    cases hm

theorem usable_iff : s.usable = true ↔ s.client = .opened ∧ s.dmaMap = true := by
  unfold Session.usable
  rw [Bool.and_eq_true, beq_iff_eq]

theorem Session.Inv.onChannel (h : s.Inv) (hu : s.usable = true) (i : Nat) {f : Channel → Channel}
    (hex : ∀ c : Channel, c.ex.Ok → (f c).ex.Ok)
    (hkeep : ∀ c : Channel, (f c).dmaReadyAck = c.dmaReadyAck ∧ (f c).phase = c.phase ∧
      (f c).ex.rxStaged = c.ex.rxStaged) : (s.onChannel i f).Inv := by
  obtain ⟨hclient, hmap⟩ := usable_iff.mp hu
  unfold Session.onChannel
  split
  · exact h
  rename_i c hget
  have hmem := mem_of_getElem? hget
  obtain ⟨hack, hphase, hstaged⟩ := hkeep c
  refine ⟨?_, ?_, ?_, fun hm => ?_, fun hc => ?_, ?_⟩
  · intro c' hc'
    rcases mem_or_eq_of_mem_set hc' with hc' | rfl
    · exact h.ex c' hc'
    · exact hex c (h.ex c hmem)
  · intro c' hc'
    rcases mem_or_eq_of_mem_set hc' with hc' | rfl
    · exact h.phase c' hc'
    have hok := h.phase c hmem
    constructor
    · rw [hack, Channel.Holds, hphase]
      exact hok.holds
    · rw [hack, hphase]
      exact hok.noted
    · rw [hstaged, hphase]
      exact hok.staged
  · obtain ⟨l₁, l₂, heq, hset⟩ := exists_set hget
    rw [h.count, hset, heq, countP_append, countP_append, countP_cons, countP_cons, hack]
  · rw [hmap] at hm
    cases hm
  · rw [not_clean h hmap] at hc
    cases hc
  · rw [hclient]
    trivial

theorem Session.Inv.call (h : s.Inv) (hu : s.usable = true) (requests completions : Nat) :
    Session.Inv { s with requests, completions } := by
  obtain ⟨hclient, hmap⟩ := usable_iff.mp hu
  refine { ex := h.ex, phase := h.phase, count := h.count, unmapped := h.unmapped
           clean := fun hc => ?_, client := ?_ }
  · have hc' : s.clean = true := hc
    rw [not_clean h hmap] at hc'
    cases hc'
  · rw [hclient]
    trivial

theorem release_rxStaged (ex : RxExchange) (behind : Nat) (rxs : List Rx) :
    (ex.release behind rxs).1.rxStaged = ex.rxStaged := by
  unfold RxExchange.release
  dsimp only
  split
  · rfl
  split
  · rfl
  split
  · rfl
  · split
    · rfl
    · split <;> rfl

theorem Channel.attach_ok {c : Channel} (h : c.ex.Ok) (hu : c.Unused) : c.attach.ex.Ok := by
  have hheld : tokensHeld c.ex.rx.dmaSlotCount c.ex.tokenIds = [] :=
    eq_nil_of_length_eq_zero (h.inflight.symm.trans hu.2.1)
  have hnew : tokensHeld c.ex.rx.dmaSlotCount (fun _ => 0) = [] := filterMap_eq_nil_iff.mpr fun t _ => rfl
  refine { h with balance := ?_, inflight := (congrArg List.length hnew).symm }
  have hbalance := h.balance
  rw [hheld, ← hnew] at hbalance
  exact hbalance

theorem attach_unused {channels : List Channel} (h : ∀ c ∈ channels, c.Unused) :
    ∀ c ∈ channels.map Channel.attach, c.Unused := by
  intro c hc
  obtain ⟨c', hc', rfl⟩ := mem_map.mp hc
  exact ⟨rfl, rfl, (h c' hc').2.2⟩

theorem attach_countP (channels : List Channel) :
    (channels.map Channel.attach).countP Channel.dmaReadyAck = channels.countP Channel.dmaReadyAck := by
  rw [countP_map]
  rfl

theorem Session.Inv.open (h : s.Inv) (hclient : s.client = .closed) :
    Session.Inv { s with channels := s.channels.map Channel.attach, client := .opened } := by
  have hmap : s.dmaMap = false := by
    have hat := h.client
    rw [hclient] at hat
    exact hat
  obtain ⟨hquiet, hunused⟩ := h.unmapped hmap
  constructor
  case ex =>
    intro c hc
    obtain ⟨c', hc', rfl⟩ := mem_map.mp hc
    exact Channel.attach_ok (h.ex c' hc') (hunused c' hc')
  case phase =>
    intro c hc
    obtain ⟨c', hc', rfl⟩ := mem_map.mp hc
    exact ⟨(h.phase c' hc').holds, (h.phase c' hc').noted, (h.phase c' hc').staged⟩
  case count => exact h.count.trans (attach_countP s.channels).symm
  case unmapped =>
    refine fun _ => ⟨⟨hquiet.1, fun c hc => ?_⟩, attach_unused hunused⟩
    obtain ⟨c', hc', rfl⟩ := mem_map.mp hc
    exact hquiet.2 c' hc'
  case clean =>
    intro hclean
    obtain ⟨-, hreq, hcompl, hrings⟩ := h.clean hclean
    refine ⟨hmap, hreq, hcompl, fun c hc => ?_⟩
    obtain ⟨c', hc', rfl⟩ := mem_map.mp hc
    exact hrings c' hc'
  case client => trivial

theorem Session.Inv.map (h : s.Inv) (hmap : s.dmaMap = false) :
    Session.Inv { s with channels := s.channels.map Channel.attach, dmaMap := true, dmaReady := true
                         clean := false, client := .mapWait 0 } := by
  obtain ⟨hquiet, hunused⟩ := h.unmapped hmap
  constructor
  case ex =>
    intro c hc
    obtain ⟨c', hc', rfl⟩ := mem_map.mp hc
    exact Channel.attach_ok (h.ex c' hc') (hunused c' hc')
  case phase =>
    intro c hc
    obtain ⟨c', hc', rfl⟩ := mem_map.mp hc
    exact ⟨fun _ => .inr rfl, (h.phase c' hc').noted, (h.phase c' hc').staged⟩
  case count => exact h.count.trans (attach_countP s.channels).symm
  case unmapped => nofun
  case clean => nofun
  case client => exact ⟨rfl, attach_unused hunused⟩

theorem Session.Inv.goto (h : s.Inv) {p : ClientPhase} (hat : s.At p) : Session.Inv { s with client := p } :=
  { ex := h.ex, phase := h.phase, count := h.count, unmapped := h.unmapped, clean := h.clean
    client := by cases p <;> exact hat }

theorem Session.Inv.reopen (h : s.Inv) (hmap : s.dmaMap = true) :
    Session.Inv { s with dmaReady := true, client := .reopenWait 0 } := by
  refine { ex := h.ex, phase := fun c hc => (h.phase c hc).set, count := h.count
           unmapped := fun hm => ?_, clean := h.clean, client := hmap }
  have hm' : s.dmaMap = false := hm
  rw [hmap] at hm'
  cases hm'

theorem Session.Inv.clear (h : s.Inv)
    (hsettled : s.dmaReady = true → ∀ c ∈ s.channels, c.Holds → c.dmaReadyAck = true) :
    Session.Inv { s with dmaReady := false, client := .opened } :=
  { ex := h.ex, phase := phase_clear (s := s) h hsettled, count := h.count
    unmapped := fun hm => ⟨⟨rfl, (h.unmapped hm).1.2⟩, (h.unmapped hm).2⟩
    clean := h.clean, client := trivial }

theorem waitTurn_acked {count expected n spin : Nat} {ready : Bool}
    (h : waitTurn count expected n spin ready = .acked) : count = expected := by
  unfold waitTurn at h
  by_contra hne
  rw [if_neg hne] at h
  split at h
  · cases h
  split at h
  · cases h
  · split at h <;> cases h

theorem Session.Inv.wait (h : s.Inv) (ready : Bool)
    (hsettled : s.dmaReady = true → (s.wait ready).dmaReady = false →
      ∀ c ∈ s.channels, c.Holds → c.dmaReadyAck = true) : (s.wait ready).Inv := by
  have hat := h.client
  unfold Session.wait at hsettled ⊢
  cases hclient : s.client with
  | mapWait spin =>
    rw [hclient] at hat hsettled
    obtain ⟨hmap, hunused⟩ := hat
    dsimp only at hsettled ⊢
    split
    · exact h.goto trivial
    · rename_i hturn
      rw [hturn] at hsettled
      exact (h.clear fun hr => hsettled hr rfl).goto ⟨hmap, rfl, hunused⟩
    · exact h.goto ⟨hmap, hunused⟩
  | rollbackWait spin =>
    rw [hclient] at hat
    obtain ⟨hmap, hclear, hunused⟩ := hat
    dsimp only
    split
    · rename_i hacked
      exact { ex := h.ex, phase := h.phase, count := h.count
              unmapped := fun _ => ⟨⟨hclear, acks_of_count (s := s) h (waitTurn_acked hacked)⟩, hunused⟩
              clean := fun hc => ⟨rfl, (h.clean hc).2⟩, client := trivial }
    · exact h.goto trivial
    · exact h.goto ⟨hmap, hclear, hunused⟩
  | closeWait spin =>
    rw [hclient] at hat
    obtain ⟨hmap, hclear⟩ := hat
    dsimp only
    split
    · rename_i hacked
      exact h.goto ⟨fun _ => ⟨hmap, hclear, acks_of_count h (waitTurn_acked hacked)⟩,
        fun _ => ⟨[], rfl, fun _ hk => absurd hk not_mem_nil⟩⟩
    · exact h.reopen hmap
    · exact h.goto ⟨hmap, hclear⟩
  | reopenWait spin =>
    rw [hclient] at hat
    dsimp only
    split
    · exact h.goto trivial
    · exact h.goto trivial
    · exact h.goto hat
  | _ => exact h

theorem empty_of_checks {full : Bool} (h : ∀ k ∈ checks s.channels.length full, s.drained k = true) :
    s.Empty ∧ (full = true → ∀ c ∈ s.channels, c.Unused) := by
  have hchannel : ∀ i (c : Channel), s.channels[i]? = some c → ∀ k : Check,
      k ∈ ([.inflight i, .tx i, .cq i, .rx i] ++ if full then [.release i] else [] : List Check) →
      s.drained k = true := by
    intro i c hget k hk
    have hlt := (List.getElem?_eq_some_iff.mp hget).1
    exact h k (mem_append_left _ (mem_flatMap.mpr ⟨i, mem_range.mpr hlt, hk⟩))
  refine ⟨⟨?_, ?_, fun c hc => ?_⟩, fun hfull c hc => ?_⟩
  · exact beq_iff_eq.mp (h .requests (mem_append_right _ mem_cons_self))
  · exact beq_iff_eq.mp (h .completions (mem_append_right _ (mem_cons_of_mem _ mem_cons_self)))
  · obtain ⟨i, hget⟩ := mem_iff_getElem?.mp hc
    have htx := hchannel i c hget (.tx i) (by simp)
    have hcq := hchannel i c hget (.cq i) (by simp)
    have hrx := hchannel i c hget (.rx i) (by simp)
    simp only [Session.drained, hget, Option.all_some] at htx hcq hrx
    exact ⟨beq_iff_eq.mp htx, beq_iff_eq.mp hcq, List.isEmpty_iff.mp hrx⟩
  · obtain ⟨i, hget⟩ := mem_iff_getElem?.mp hc
    have hin := hchannel i c hget (.inflight i) (by simp)
    have hrel := hchannel i c hget (.release i) (by simp [hfull])
    simp only [Session.drained, hget, Option.all_some] at hin hrel
    obtain ⟨hdma, hrx⟩ := Bool.and_eq_true_iff.mp hin
    exact ⟨beq_iff_eq.mp hdma, beq_iff_eq.mp hrx, List.isEmpty_iff.mp hrel⟩

theorem Session.Inv.check (h : s.Inv)
    (hsettled : s.dmaReady = true → s.check.dmaReady = false →
      ∀ c ∈ s.channels, c.Holds → c.dmaReadyAck = true) : s.check.Inv := by
  have hat := h.client
  unfold Session.check at hsettled ⊢
  cases hclient : s.client with
  | checking full todo =>
    rw [hclient] at hat hsettled
    obtain ⟨hfull, hmade⟩ := hat
    cases todo with
    | cons k todo =>
      dsimp only
      split
      · rename_i hk
        refine h.goto ⟨hfull, fun hsure => ?_⟩
        obtain ⟨made, heq, hdrained⟩ := hmade hsure
        refine ⟨made ++ [k], by rw [heq, append_assoc]; rfl, fun k' hk' => ?_⟩
        rcases mem_append.mp hk' with hk' | hk'
        · exact hdrained k' hk'
        · rw [mem_singleton.mp hk']
          exact hk
      · split
        · rename_i hf
          exact h.reopen (hfull hf).1
        · exact h.goto trivial
    | nil =>
      dsimp only at hsettled ⊢
      split
      · rename_i hcond
        rw [if_pos hcond] at hsettled
        exact (h.clear fun hr => hsettled hr rfl).goto ⟨(Bool.and_eq_true_iff.mp hcond).2, rfl⟩
      rename_i hcond
      have hsure : s.dmaMap = false ∨ full = true := by
        cases hm : s.dmaMap with
        | false => exact .inl rfl
        | true =>
          cases full with
          | true => exact .inr rfl
          | false =>
            rw [hm] at hcond
            exact absurd rfl hcond
      obtain ⟨made, heq, hdrained⟩ := hmade hsure
      rw [append_nil] at heq
      rw [← heq] at hdrained
      obtain ⟨hempty, hunused⟩ := empty_of_checks hdrained
      have hquiet : s.Quiet ∧ ∀ c ∈ s.channels, c.Unused := by
        rcases hsure with hmap | hf
        · exact h.unmapped hmap
        · exact ⟨(hfull hf).2, hunused hf⟩
      exact { ex := h.ex, phase := h.phase, count := h.count, unmapped := fun _ => hquiet
              clean := fun _ => ⟨rfl, hempty⟩, client := rfl }
  | _ => exact h

theorem Session.Inv.clientStep (h : s.Inv) (ev : ClientEv) (hsettled : Settled m s (.client ev)) :
    (s.clientStep m ev).Inv := by
  cases ev with
  | «open» =>
    simp only [Session.clientStep]
    split
    · rename_i hclient
      exact h.open hclient
    · exact h
  | map =>
    simp only [Session.clientStep]
    split
    · rename_i hcond
      exact h.map hcond.2
    · exact h
  | close =>
    simp only [Session.clientStep]
    split
    · exact h.goto ⟨nofun, fun _ => ⟨[], rfl, fun _ hk => absurd hk not_mem_nil⟩⟩
    · exact h
  | wait ready => exact h.wait ready hsettled
  | check => exact h.check hsettled
  | submit i k =>
    simp only [Session.clientStep]
    split
    · rename_i hu
      exact h.onChannel hu i (fun c hc => hc) fun c => ⟨rfl, rfl, rfl⟩
    · exact h
  | pollTx i k =>
    simp only [Session.clientStep]
    split
    · rename_i hu
      refine h.onChannel hu i (fun c hc => ?_) fun c => ?_
      · split <;> exact hc
      · split <;> exact ⟨rfl, rfl, rfl⟩
    · exact h
  | pollRx i base k =>
    simp only [Session.clientStep]
    split
    · rename_i hu
      refine h.onChannel hu i (fun c hc => hc.poll base m.size k) fun c => ⟨rfl, rfl, ?_⟩
      unfold RxExchange.poll
      split <;> rfl
    · exact h
  | releaseRx i behind rxs =>
    simp only [Session.clientStep]
    split
    · rename_i hu
      refine h.onChannel hu i (fun c hc => hc.release behind rxs) fun c => ⟨rfl, rfl, ?_⟩
      exact release_rxStaged c.ex behind rxs
    · exact h
  | call =>
    simp only [Session.clientStep]
    split
    · rename_i hu
      exact h.call hu (s.requests + 1) s.completions
    · exact h
  | callTake =>
    simp only [Session.clientStep]
    split
    · rename_i hu
      exact h.call hu s.requests (s.completions - 1)
    · exact h

theorem Session.Inv.step (h : s.Inv) (ev : SessionEv) (hsettled : Settled m s ev) : (s.step m ev).Inv := by
  cases ev with
  | work => exact h.work ..
  | client ev => exact h.clientStep ev hsettled

end

theorem inv_sessionInit (n queueDepth : Nat) (generation : BitVec 64) :
    (Session.init n queueDepth generation).Inv := by
  have hall : ∀ {P : Channel → Prop}, (∀ i, P
      { dmaReadyAck := false, phase := .idle, tx := 0, cq := 0, answered := 0, dmaInflight := 0
        ex := .init queueDepth generation (BitVec.ofNat 64 i) }) →
      ∀ c ∈ (Session.init n queueDepth generation).channels, P c := by
    intro P h c hc
    obtain ⟨i, -, rfl⟩ := mem_map.mp hc
    exact h i
  constructor
  case ex => exact hall fun i => ok_rxInit queueDepth generation _
  case phase =>
    refine hall fun i => ⟨fun hh => ?_, fun hh => ?_, fun hne => absurd rfl hne⟩
    · rcases hh with hh | hh <;> cases hh
    · rcases hh with hh | hh <;> cases hh
  case count => exact (countP_eq_zero.mpr (hall fun i => Bool.false_ne_true)).symm
  case unmapped => exact fun _ => ⟨⟨rfl, hall fun i => rfl⟩, hall fun i => ⟨rfl, rfl, rfl⟩⟩
  case clean => exact fun _ => ⟨rfl, rfl, rfl, hall fun i => ⟨rfl, rfl, rfl⟩⟩
  case client => rfl

def Session.rings (s : Session) :
    Nat × Nat × List (Nat × Nat × List RxDesc × List RxDesc) × List (List RxRelease) :=
  (s.requests, s.completions, s.channels.map Channel.rings, s.channels.map fun c => c.ex.releases)

section

variable {m : DmaMap} {s : Session}

theorem map_workAt {α : Type*} (f : Channel → α) {i : Nat} {c : Channel} (hget : s.channels[i]? = some c)
    (ev : WorkEv) (hf : f (c.work m s.dmaReady ev) = f c) :
    (s.workAt m i c ev).channels.map f = s.channels.map f := by
  obtain ⟨l₁, l₂, heq, hset⟩ := exists_set hget
  rw [Session.workAt]
  rw [hset, heq, map_append, map_append, map_cons, map_cons, hf]

theorem work_rings (h : s.Inv) (hclean : s.clean = true) (i : Nat) (ev : WorkEv) :
    (s.work m i ev).rings = s.rings := by
  obtain ⟨hmap, -⟩ := h.clean hclean
  obtain ⟨hquiet, hunused⟩ := h.unmapped hmap
  rcases work_cases (m := m) s i ev with heq | ⟨c, hc, hserve, -⟩ | ⟨c, hget, heq⟩
  · rw [heq]
  · exact absurd hserve (not_serving h hquiet hc)
  have hrings := map_workAt Channel.rings hget ev (quiet_workAt (m := m) h hquiet hget ev).2
  have hrel := map_workAt (m := m) (fun c => c.ex.releases) hget ev (by
    obtain ⟨-, -, h3⟩ := work_library m s.dmaReady c ev
    have hnil := (hunused c (mem_of_getElem? hget)).2.2
    exact (h3 hnil).trans hnil.symm)
  rw [heq, Session.rings, hrings, hrel]
  rfl

/-- A close that returned zero is safe, for any number of workers: in every run in which
the library clears `DMA_READY` only while every worker that goes by the set flag has noted it, the
rings of the segment that has been left are empty, no RX buffer is outstanding, and until the flag
is set again no step of a worker changes a ring. -/
theorem clean_close (m : DmaMap) (n queueDepth : Nat) (generation : BitVec 64) (evs : List SessionEv)
    (hrun : Meets (Session.step m) (Settled m) (Session.init n queueDepth generation) evs) :
    let s := evs.foldl (Session.step m) (Session.init n queueDepth generation)
    s.clean = true →
      (s.requests = 0 ∧ s.completions = 0 ∧ ∀ c ∈ s.channels, c.tx = 0 ∧ c.cq = 0 ∧ c.ex.rxRing = [] ∧
        c.ex.rxStaged = [] ∧ c.ex.releases = [] ∧ c.ex.rx.rxOutstanding = 0) ∧
      ∀ i ev, (s.work m i ev).rings = s.rings := by
  intro s hclean
  have h : s.Inv := Meets.keep (fun _ ev hi hc => hi.step ev hc)
    (inv_sessionInit n queueDepth generation) hrun
  obtain ⟨hmap, hreq, hcompl, hrings⟩ := h.clean hclean
  obtain ⟨hquiet, hunused⟩ := h.unmapped hmap
  refine ⟨⟨hreq, hcompl, fun c hc => ?_⟩, fun i ev => work_rings h hclean i ev⟩
  obtain ⟨htx, hcq, hrx⟩ := hrings c hc
  obtain ⟨-, hinflight, hrel⟩ := hunused c hc
  have hstaged : c.ex.rxStaged = [] := by
    by_contra hne
    -- such a worker would go by a set flag that it has noted
    rcases (h.phase c hc).holds (.inr ((h.phase c hc).staged hne)) with hack | hready
    · rw [hquiet.2 c hc] at hack
      cases hack
    · rw [hquiet.1] at hready
      cases hready
  exact ⟨htx, hcq, hrx, hstaged, hrel, (h.ex c hc).outstanding_eq_zero hrx hstaged hinflight hrel⟩

theorem wait_unnoted (m : DmaMap) {s : Session} (hlt : s.dmaReadyCount < s.channels.length) (k spin : Nat)
    (h : spin + k < clientAckSpins) (hclient : s.client = .mapWait spin) :
    (List.replicate k (SessionEv.client (.wait true))).foldl (Session.step m) s =
      { s with client := .mapWait (spin + k) } := by
  induction k generalizing s spin with
  | zero =>
    rw [add_zero, ← hclient]
    rfl
  | succ k ih =>
    have hturn : waitTurn s.dmaReadyCount s.channels.length s.channels.length spin true = .again := by
      rw [waitTurn, if_neg hlt.ne, if_neg hlt.le.not_gt, if_neg (by simp), if_pos (by omega)]
    have hstep : s.step m (.client (.wait true)) = { s with client := .mapWait (spin + 1) } := by
      simp only [Session.step, Session.clientStep, Session.wait, hclient, hturn]
    rw [replicate_succ, foldl_cons, hstep]
    refine (ih (s := { s with client := .mapWait (spin + 1) }) hlt (spin + 1) (by omega) rfl).trans ?_
    rw [add_assoc, add_comm 1 k]

end

def onePage : DmaMap := ⟨0, 4096⟩

def onePacket : Packet :=
  { bufferIndex := 7, valid := by decide
    first := { data := 256, currentData := 0, currentLength := 20
               totalLengthNotIncludingFirstBuffer := 0, l3HdrOffset := 0, rxSwIfIndex := 1 }
    rest := []
    mem := fun a => if a = 256 then 0x45 else if a = 259 then 20 else 0
    isIp4 := true, isUdp := false }

/-- The library sets the flag and `uet_local_deliver` looks at it. -/
def staleWorker : List SessionEv :=
  [.client .open, .client .map, .work 0 .node, .work 0 .sample]

/-- The last turn of the wait, the rollback, and the close with its six checks. -/
def rollbackAndClose : List SessionEv :=
  [.client (.wait true), .client (.wait true), .client .close] ++ List.replicate 7 (.client .check)

/-- The worker has not reached `uet_svm_process` while the library waited, and it delivers a
packet by the flag that it saw before, into a segment that nobody has. -/
theorem publish_after_close :
    let s := (staleWorker ++ replicate 999999 (SessionEv.client (.wait true)) ++ rollbackAndClose).foldl
      (Session.step onePage) (Session.init 1 2 1)
    s.clean = true ∧ s.client = .closed ∧
      let s' := (s.work onePage 0 (.publish 0 onePacket)).work onePage 0 .store
      s'.clean = true ∧ s'.channels.map (fun c => (c.ex.rxRing.length, c.ex.rx.rxOutstanding)) = [(1, 1)] := by
  have hwait : (staleWorker ++ replicate 999999 (SessionEv.client (.wait true))).foldl
      (Session.step onePage) (Session.init 1 2 1) =
      { staleWorker.foldl (Session.step onePage) (Session.init 1 2 1) with client := .mapWait 999999 } := by
    rw [foldl_append, wait_unnoted onePage (by decide) 999999 0 (by decide) (by decide)]
  rw [foldl_append, hwait]
  decide +kernel

/-- One worker, one packet: what is delivered is taken, given back and freed before the close. -/
def orderlyRun : List SessionEv :=
  ([.client .open, .client .map, .work 0 .input, .work 0 .acknowledge, .client (.wait true), .work 0 .finish,
    .work 0 .node, .work 0 .sample, .work 0 (.publish 0 onePacket), .work 0 .store, .work 0 .done,
    .client (.pollRx 0 0 1), .client (.releaseRx 0 0 [⟨0x100000001, 1, 20, 1, rxFlagIp4, [⟨256, 20⟩]⟩]),
    .client .close] : List SessionEv) ++ List.replicate 7 (SessionEv.client .check) ++
  ([.work 0 .input, .work 0 .acknowledge, .work 0 .releaseLoad, .work 0 .releaseNext, .work 0 .releaseStore,
    .work 0 .leave, .client (.wait true)] : List SessionEv) ++ List.replicate 8 (SessionEv.client .check)

theorem clean_close_orderly :
    let s := orderlyRun.foldl (Session.step onePage) (Session.init 1 2 1)
    s.clean = true ∧ (∀ c ∈ s.channels, c.ex.rx.nextRxId = 0x100000002 ∧ c.ex.rx.rxOutstanding = 0) ∧
      ∀ i ev, (s.work onePage i ev).rings = s.rings := by
  intro s
  have hclean : s.clean = true := by decide +kernel
  obtain ⟨⟨-, -, hchannels⟩, hwork⟩ := clean_close onePage 1 2 1 orderlyRun (by decide +kernel) hclean
  have hnext : ∀ c ∈ s.channels, c.ex.rx.nextRxId = 0x100000002 := by decide +kernel
  exact ⟨hclean, fun c hc => ⟨hnext c hc, (hchannels c hc).2.2.2.2.2⟩, hwork⟩

end Uet.Vpp
