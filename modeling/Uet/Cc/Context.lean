import Uet.Guarded

/-!
# The congestion control context

The sender's side of congestion control: the paths with their packed two-bit states, the window,
and the four calls of the reliability module. What the floating-point adjustments make of the
window, and the clock, come from outside (`Env`).
-/

namespace Uet.Cc

open Function Guarded

inductive SprayingType
  | noSpray | obliviousSpray | selectiveSpray
  deriving DecidableEq

inductive LossType
  | nack | sack | timeout | probe
  deriving DecidableEq

inductive PathUpdate
  | ack | ecn | nack | rto

inductive CccState
  | idle | pending | active | ready
  deriving DecidableEq

/-! ## Paths -/

abbrev EvState := Nat → BitVec 8

abbrev good : BitVec 8 := 0
abbrev bad : BitVec 8 := 1
abbrev skipped : BitVec 8 := 2

def getEvState (evState : EvState) (ev : Nat) : BitVec 8 :=
  (evState (ev / 4) &&& 3#8 <<< (2 * (ev % 4))) >>> (2 * (ev % 4))

def setEvState (evState : EvState) (ev : Nat) (state : BitVec 8) : EvState :=
  update evState (ev / 4) (evState (ev / 4) &&& ~~~(3#8 <<< (2 * (ev % 4))) ||| state <<< (2 * (ev % 4)))

structure Paths where
  sprayingType : SprayingType
  numPaths : Nat
  evState : EvState := fun _ => 0
  badPaths : BitVec 16 := 0
  skipPaths : BitVec 16 := 0
  nextEv : Nat := 0

def Paths.updatePath (p : Paths) (ev : Nat) : PathUpdate → Paths
  | .rto => { p with
      skipPaths := if getEvState p.evState ev = skipped then p.skipPaths - 1 else p.skipPaths
      badPaths := p.badPaths + 1
      evState := setEvState p.evState ev bad }
  | .ecn | .nack => { p with
      badPaths := if getEvState p.evState ev = bad then p.badPaths - 1 else p.badPaths
      skipPaths := p.skipPaths + 1
      evState := setEvState p.evState ev skipped }
  | .ack => { p with
      skipPaths := if getEvState p.evState ev = skipped then p.skipPaths - 1 else p.skipPaths
      badPaths := if getEvState p.evState ev = bad then p.badPaths - 1 else p.badPaths
      evState := setEvState p.evState ev good }

def Paths.advance (p : Paths) : Paths :=
  { p with nextEv := if (p.nextEv + 1) % 2 ^ 32 = p.numPaths then 0 else (p.nextEv + 1) % 2 ^ 32 }

/-- The loop of `select_entropy`, followed for a number of rounds: the chosen path and the
paths that it passed over and made good. -/
def Paths.selectEntropy (p : Paths) : Nat → Option (Nat × List Nat × Paths)
  | 0 => none
  | rounds + 1 =>
    if p.sprayingType = .noSpray then some (p.nextEv, [], p)
    else if p.sprayingType = .obliviousSpray then some (p.nextEv, [], p.advance)
    else if getEvState p.evState (p.nextEv % 2 ^ 16) = good then some (p.nextEv, [], p.advance)
    else if getEvState p.evState (p.nextEv % 2 ^ 16) = skipped then
      (Paths.selectEntropy { p.advance with evState := setEvState p.evState (p.nextEv % 2 ^ 16) good }
        rounds).map fun (ev, passed, p') => (ev, p.nextEv :: passed, p')
    else p.advance.selectEntropy rounds

/-! ## The context and its calls -/

structure Ccc where
  mtu : BitVec 16
  cwnd : BitVec 32
  paths : Paths
  backlog : BitVec 32 := 0
  inFlight : BitVec 32 := 0
  achievedBytes : BitVec 32 := 0
  qaIgnBytes : BitVec 32 := 0
  rtxCnt : BitVec 32 := 0
  state : CccState := .idle
  /-- Whether `qa_end` is other than zero. -/
  qaEnd : Bool := false
  qaTrigger : Bool := false
  /-- The last value given to `uet_cc_state_update`, false before the first. -/
  reported : Bool := false

/-- What a call finds: the clock against `qa_end` and whether the new `qa_end` is other than zero, the
average delay against `qa_thresh`, the adjusted window, and the rounds `select_entropy` is followed for. -/
structure Env where
  expired : Bool
  qaEnd : Bool
  delayed : Bool
  cwnd : BitVec 32
  rounds : Nat

def uetMin (a b : BitVec 32) : BitVec 32 := if a < b then a else b

def uetMax (a b : BitVec 32) : BitVec 32 := if b < a then a else b

namespace Ccc

def nextState (c : Ccc) : CccState :=
  let s := if c.backlog = 0 ∧ c.rtxCnt = 0 then (if c.inFlight ≠ 0 then .pending else .idle)
    else if c.state = .idle ∨ c.state = .pending then .active else c.state
  if s = .active ∧ c.inFlight < c.cwnd then .ready
  else if s = .ready ∧ c.cwnd ≤ c.inFlight then .active else s

def updateCccState (c : Ccc) : Ccc :=
  { c with state := c.nextState, reported := c.nextState = .ready }

def adapted (c : Ccc) : BitVec 32 := uetMax (uetMin c.cwnd c.achievedBytes) (c.mtu.setWidth 32)

def quickAdapt (c : Ccc) (env : Env) (loss : Bool) : Bool × Ccc :=
  if env.expired then
    if c.qaEnd && (c.qaTrigger || loss || env.delayed) then
      (true, { c with cwnd := c.adapted, qaIgnBytes := c.inFlight, qaTrigger := false })
    else (false, { c with qaEnd := env.qaEnd, achievedBytes := 0 })
  else (false, c)

def retx (c : Ccc) (pktsize : BitVec 32) : Ccc :=
  updateCccState { c with inFlight := c.inFlight - pktsize, rtxCnt := c.rtxCnt + 1 }

def reqToSend (c : Ccc) (deltaBacklog : BitVec 32) : Ccc :=
  updateCccState { c with backlog := c.backlog + deltaBacklog }

def sendComplete (c : Ccc) (env : Env) (pktsize : BitVec 32) (retx : Bool) : Ccc :=
  match c.paths.selectEntropy env.rounds with
  | none => c
  | some (_, _, paths) => updateCccState { c with
      paths
      rtxCnt := if retx then c.rtxCnt - 1 else c.rtxCnt
      backlog := if retx then c.backlog else c.backlog - pktsize
      inFlight := c.inFlight + pktsize }

def ackBytes (c : Ccc) (ev : Option Nat) (skip : Bool) (deltaInflight : BitVec 32) : Ccc :=
  { c with
    inFlight := c.inFlight + deltaInflight
    qaIgnBytes := c.qaIgnBytes - uetMin (-deltaInflight) c.qaIgnBytes
    achievedBytes := c.achievedBytes + -deltaInflight
    paths := ev.elim c.paths fun ev => c.paths.updatePath ev (if skip then .ecn else .ack) }

def processAck (c : Ccc) (env : Env) (ev : Option Nat) (skip : Bool) (deltaInflight : BitVec 32) : Ccc :=
  let c := c.ackBytes ev skip deltaInflight
  if c.qaIgnBytes ≠ 0 ∧ skip then c
  else match c.quickAdapt env false with
    | (true, c) => c.updateCccState
    | (false, c) => updateCccState { c with cwnd := env.cwnd }

def lossAdapt (c : Ccc) (env : Env) : Ccc :=
  if c.qaIgnBytes = 0 then (quickAdapt { c with qaTrigger := true } env true).2
  else { c with qaTrigger := true }

def processLoss (c : Ccc) (env : Env) (lostBytes : BitVec 32) (ev : Option Nat) (type : LossType) : Ccc :=
  let c := c.retx lostBytes
  let c := match type with
    | .timeout => c.lossAdapt env
    | .nack =>
      let c := c.lossAdapt env
      { c with paths := ev.elim c.paths fun ev => c.paths.updatePath ev .nack }
    | _ => c
  { c with qaIgnBytes := c.qaIgnBytes - uetMin lostBytes c.qaIgnBytes }

end Ccc

inductive Call
  | reqToSend (deltaBacklog : BitVec 32)
  | sendComplete (pktsize : BitVec 32) (retx : Bool)
  | processAck (ev : Option Nat) (skip : Bool) (deltaInflight : BitVec 32)
  | processLoss (lostBytes : BitVec 32) (ev : Option Nat) (type : LossType)

def Ccc.call (c : Ccc) : Env × Call → Ccc
  | (_, .reqToSend delta) => c.reqToSend delta
  | (env, .sendComplete size retx) => c.sendComplete env size retx
  | (env, .processAck ev skip delta) => c.processAck env ev skip delta
  | (env, .processLoss lost ev type) => c.processLoss env lost ev type

/-! ## What the reliability module has heard -/

def Ccc.sendable (c : Ccc) : Prop := (c.backlog ≠ 0 ∨ c.rtxCnt ≠ 0) ∧ c.inFlight < c.cwnd

def Ccc.Heard (c : Ccc) : Prop := c.reported = true ↔ c.sendable

theorem Ccc.updateCccState_heard (c : Ccc) : c.updateCccState.Heard := by
  have hlt : c.cwnd ≤ c.inFlight ↔ ¬ c.inFlight < c.cwnd := BitVec.not_lt.symm
  change decide (c.nextState = .ready) = true ↔ c.sendable
  rw [decide_eq_true_iff, sendable, ← not_and_or]
  by_cases hn : c.backlog = 0 ∧ c.rtxCnt = 0
  · simp only [nextState, hn]
    split_ifs <;> simp_all
  · simp only [nextState, hn, not_false_iff, true_and, hlt]
    by_cases hw : c.inFlight < c.cwnd <;> cases c.state <;> simp [hw]

/-- Nothing is to be sent, or a change of the bytes in flight and of the window leaves the window
as full, or as open, as it was. -/
def Ccc.Unmoved (c : Ccc) (inFlight cwnd : BitVec 32) : Prop :=
  (c.backlog = 0 ∧ c.rtxCnt = 0) ∨ (inFlight < cwnd ↔ c.inFlight < c.cwnd)

/-- The two changes after which `update_ccc_state` is not called: the bytes of a marked
acknowledgement that comes before `qa_ign_bytes` is used up, and the window that a loss sets. -/
def Ccc.QuietUnmoved (c : Ccc) : Env × Call → Prop
  | (_, .processAck ev skip delta) =>
    (c.ackBytes ev skip delta).qaIgnBytes ≠ 0 → skip = true → c.Unmoved (c.inFlight + delta) c.cwnd
  | (env, .processLoss lost _ type) =>
    type = .timeout ∨ type = .nack → c.qaIgnBytes = 0 → env.expired = true → c.qaEnd = true →
      (c.retx lost).Unmoved (c.inFlight - lost) c.adapted
  | _ => True

theorem Ccc.Heard.of_unmoved {c c' : Ccc} (h : c.Heard) (hb : c'.backlog = c.backlog)
    (hr : c'.rtxCnt = c.rtxCnt) (hs : c'.reported = c.reported) (hu : c.Unmoved c'.inFlight c'.cwnd) :
    c'.Heard := by
  rw [Heard, sendable, hb, hr, hs]
  refine Iff.trans h ?_
  rcases hu with ⟨hb0, hr0⟩ | hlt
  · simp [sendable, hb0, hr0]
  · rw [sendable, hlt]

theorem Ccc.lossAdapt_heard {c : Ccc} (env : Env) (h : c.Heard) (hu : c.qaIgnBytes = 0 →
    env.expired = true → c.qaEnd = true → c.Unmoved c.inFlight c.adapted) : (c.lossAdapt env).Heard := by
  unfold lossAdapt quickAdapt
  split_ifs with hq he hend
  · exact h.of_unmoved rfl rfl rfl (hu hq he (Bool.and_eq_true_iff.mp hend).1)
  all_goals exact h

theorem Ccc.Heard.call {c : Ccc} (h : c.Heard) (ev : Env × Call) (hu : c.QuietUnmoved ev) :
    (c.call ev).Heard := by
  obtain ⟨env, call⟩ := ev
  cases call with
  | reqToSend delta => exact updateCccState_heard _
  | sendComplete size retx =>
    change (c.sendComplete env size retx).Heard
    unfold sendComplete
    split
    · exact h
    · exact updateCccState_heard _
  | processAck ev skip delta =>
    simp only [Ccc.call, processAck]
    split_ifs with hq
    · exact h.of_unmoved rfl rfl rfl (hu hq.1 hq.2)
    · split <;> exact updateCccState_heard _
  | processLoss lost ev type =>
    have hretx : (c.retx lost).Heard := updateCccState_heard _
    cases type with
    | nack => exact lossAdapt_heard env hretx (hu (.inr rfl))
    | sack => exact hretx
    | timeout => exact lossAdapt_heard env hretx (hu (.inl rfl))
    | probe => exact hretx

/-- A new context: the window is `cwnd_max`. -/
def allocCtx (sprayingType : SprayingType) (mtu : BitVec 16) (cwndMax : BitVec 32) (maxPaths : BitVec 16) :
    Ccc :=
  { mtu, cwnd := cwndMax, paths := { sprayingType, numPaths := maxPaths.toNat } }

/-- After every call of a run whose quiet changes leave the window as open as it was, the last report
says whether there is something to send and room for it. -/
theorem readiness_reported (sprayingType : SprayingType) (mtu : BitVec 16) (cwndMax : BitVec 32)
    (maxPaths : BitVec 16) (calls : List (Env × Call))
    (hrun : Meets Ccc.call Ccc.QuietUnmoved (allocCtx sprayingType mtu cwndMax maxPaths) calls) :
    let c := calls.foldl Ccc.call (allocCtx sprayingType mtu cwndMax maxPaths)
    c.reported = true ↔ (c.backlog ≠ 0 ∨ c.rtxCnt ≠ 0) ∧ c.inFlight < c.cwnd := by
  have hstart : (allocCtx sprayingType mtu cwndMax maxPaths).Heard := by
    simp [Ccc.Heard, Ccc.sendable, allocCtx]
  exact hrun.keep (P := Ccc.Heard) (fun _ ev h hu => h.call ev hu) hstart

def env4000 : Env := ⟨true, true, false, 4000, 1⟩

/-- Three of four packets are sent and one is acknowledged, which starts a period of quick adaptation. -/
def threeSent : List (Env × Call) :=
  [(env4000, .reqToSend 4000), (env4000, .sendComplete 1000 false), (env4000, .sendComplete 1000 false),
    (env4000, .sendComplete 1000 false), (env4000, .processAck none false (-1000))]

theorem readiness_reported_three_sent :
    let c := threeSent.foldl Ccc.call (allocCtx .noSpray 1000 4000 4)
    c.reported = true ↔ (c.backlog ≠ 0 ∨ c.rtxCnt ≠ 0) ∧ c.inFlight < c.cwnd :=
  readiness_reported .noSpray 1000 4000 4 threeSent (by simp [threeSent, Meets, Ccc.QuietUnmoved])

/-- The loss of a packet closes the window after the report that it is open. -/
theorem loss_not_reported :
    let c := (threeSent ++ [(env4000, Call.processLoss 1000 none .timeout)]).foldl Ccc.call
      (allocCtx .noSpray 1000 4000 4)
    c.reported = true ∧ ¬ c.inFlight < c.cwnd := by
  decide +kernel

end Uet.Cc
