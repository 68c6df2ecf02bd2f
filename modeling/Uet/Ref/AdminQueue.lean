import Uet.FreeIndex

/-!
# The admin queue

The driver and the device share a ring of commands, a ring of completions and one buffer for what a command
reads and answers. `uet_ref_admin_cmd` drops the completions that are waiting, goes on only if the
device has finished every command before, posts one command with a fresh cookie and waits for the completion with that
cookie; it may give up. The device runs its loop when it comes to a doorbell, which may be at any time
later: it reads a command, executes it, writes the completion, marks it as valid, and counts the command as finished.
Reading the command and both writes of the completion may fail.

The steps of the two are interleaved in any order. Commands are numbered as they are posted.
-/

namespace Uet.Ref

open FreeIndex List Function

/-- `UET_DEV_ADMIN_ST_*`. -/
inductive CmdStatus where
  | ok | einval | enospc | eopnotsupp | etoosmall | eexist | enoent | ebusy
  | other (n : Nat)
  deriving DecidableEq

inductive CmdRet where
  | zero | enospc | eopnotsupp | ebusy | emsgsize | eexist | enoent | einval
  deriving DecidableEq

/-- `uet_ref_admin_status_to_errno`. -/
def statusToErrno : CmdStatus → CmdRet
  | .ok => .zero
  | .enospc => .enospc
  | .eopnotsupp => .eopnotsupp
  | .ebusy => .ebusy
  | .etoosmall => .emsgsize
  | .eexist => .eexist
  | .enoent => .enoent
  | .einval | .other _ => .einval

/-- `UET_REF_ADMIN_ENTRIES`, the size of both rings. -/
def adminEntries : Nat := 8

abbrev Buf := List UInt8

/-- The arguments of `uet_ref_admin_cmd` that it does not refuse; `resp` is the caller's buffer, if there is one. -/
structure AdminReq where
  opcode : BitVec 16
  params : List (BitVec 64)
  resp : Option Buf

def AdminReq.buf (r : AdminReq) : Option Buf := r.resp.filter fun b => !b.isEmpty

/-- `struct uet_dev_admin_cmd`, with its number. -/
structure AdminCmd where
  opcode : BitVec 16
  cookie : BitVec 64
  params : List (BitVec 64)
  bufLen : Nat
  num : Nat

structure Answer where
  status : CmdStatus
  result : BitVec 64 × BitVec 64
  deriving DecidableEq

/-- `struct uet_dev_admin_cqe`, with the number of its command. -/
structure AdminCqe where
  valid : Bool
  cookie : BitVec 64
  opcode : BitVec 16
  answer : Answer
  num : Nat

/-- Where the driver is in a call: it drops completions, is about to look at `ADMIN_SQ_CONS`, is about
to post, or waits. `reaped` says that completions have been taken and the device has not been told. -/
inductive DrvPhase where
  | idle
  | dropping (r : AdminReq) (reaped : Bool)
  | checking (r : AdminReq)
  | ready (r : AdminReq)
  | waiting (r : AdminReq) (reaped : Bool)

/-- Where the device is in `uet_dev_admin_drain_locked`: not in it, at the top of the loop, with a command that it has read,
has executed, or has written the completion of, after marking it valid, and between its two counters. -/
inductive DevPhase where
  | idle
  | draining
  | fetched (c : AdminCmd)
  | ran (c : AdminCmd) (a : Answer)
  | wrote (c : AdminCmd) (a : Answer)
  | flagged
  | bumped

/-- A doorbell on its way: `ADMIN_SQ_PROD` or `ADMIN_CQ_CONS`, and the count that its value stands for. -/
structure Bell where
  sq : Bool
  value : BitVec 32
  count : Nat

structure Executed where
  cmd : AdminCmd
  answer : Answer
  resp : Buf

structure Returned where
  req : AdminReq
  num : Nat
  ret : CmdRet
  result : BitVec 64 × BitVec 64
  resp : Option Buf

/-- Driver, shared memory and device. The counts are of commands posted, announced and finished, and of completions that the
driver has reaped and has told the device of; `answered` are the completions that were marked valid. `written` has, for
each time the device wrote the buffer, the command and the number of commands posted by then. -/
structure Admin where
  sqProd : BitVec 32
  cqCons : BitVec 32
  cookie : BitVec 64
  phase : DrvPhase
  sq : Nat → AdminCmd
  cq : Nat → AdminCqe
  resp : Buf
  bells : List Bell
  devSqProd : BitVec 32
  devSqCons : BitVec 32
  devCqProd : BitVec 32
  devCqCons : BitVec 32
  dev : DevPhase
  posted : Nat
  announced : Nat
  finished : Nat
  reaped : Nat
  told : Nat
  answered : List AdminCqe
  executed : List Executed
  written : List (Nat × Nat)
  returned : List Returned

/-- What happens next: a call begins; the driver looks at a completion, looks at `ADMIN_SQ_CONS`, posts, or gives up; the
device comes to a doorbell, goes round its loop, executes, writes, marks or counts. -/
inductive AdminEv where
  | call (r : AdminReq)
  | look
  | check
  | post
  | giveUp
  | bell
  | fetch (readable : Bool)
  | exec (a : Answer) (resp : Option Buf)
  | writeCqe (ok : Bool)
  | writeFlags (ok : Bool)
  | bumpSq
  | bumpCq

namespace Admin

/-! ## The driver -/

def cqSlot (s : Admin) : Nat := s.cqCons.toNat % adminEntries

def reapOne (s : Admin) : Admin :=
  { s with cq := update s.cq s.cqSlot { s.cq s.cqSlot with valid := false }
           cqCons := s.cqCons + 1, reaped := s.reaped + 1 }

def ringCq (s : Admin) : Admin := { s with bells := s.bells ++ [⟨false, s.cqCons, s.reaped⟩] }

/-- `uet_ref_admin_reap` finds nothing more. -/
def endReap (s : Admin) (reaped : Bool) : Admin := if reaped then s.ringCq else s

def answer (s : Admin) (r : AdminReq) (e : AdminCqe) : Returned :=
  { req := r, num := s.posted, ret := statusToErrno e.answer.status, result := e.answer.result
    resp := if statusToErrno e.answer.status = .zero ∧ r.buf.isSome then some s.resp else none }

/-- A turn of `uet_ref_admin_reap`. -/
def look (s : Admin) : Admin :=
  let e := s.cq s.cqSlot
  match s.phase with
  | .dropping r reaped =>
    if e.valid then { s.reapOne with phase := .dropping r true } else { s.endReap reaped with phase := .checking r }
  | .waiting r reaped =>
    if !e.valid then { s.endReap reaped with phase := .waiting r false }
    else if s.cookie ≠ 0 ∧ e.cookie = s.cookie then
      { s.reapOne.ringCq with phase := .idle, returned := s.returned ++ [s.answer r e] }
    else { s.reapOne with phase := .waiting r true }
  | _ => s

/-- The device still has an earlier command unless `ADMIN_SQ_CONS` is at the producer index. -/
def check (s : Admin) : Admin :=
  match s.phase with
  | .checking r => if s.devSqCons = s.sqProd then { s with phase := .ready r } else { s with phase := .idle }
  | _ => s

def cmdOf (r : AdminReq) (cookie : BitVec 64) (num : Nat) : AdminCmd :=
  ⟨r.opcode, cookie, r.params, (r.buf.map List.length).getD 0, num⟩

def post (s : Admin) : Admin :=
  match s.phase with
  | .ready r =>
    { s with cookie := s.cookie + 1
             sq := update s.sq (s.sqProd.toNat % adminEntries) (cmdOf r (s.cookie + 1) (s.posted + 1))
             resp := r.buf.getD s.resp
             sqProd := s.sqProd + 1
             bells := s.bells ++ [⟨true, s.sqProd + 1, s.posted + 1⟩]
             posted := s.posted + 1
             phase := .waiting r false }
  | _ => s

/-! ## The device -/

/-- `uet_dev_bar2_write` for one of the two doorbells. -/
def bell (s : Admin) : Admin :=
  match s.dev, s.bells with
  | .idle, b :: rest =>
    if b.sq then { s with devSqProd := b.value, announced := b.count, bells := rest, dev := .draining }
    else { s with devCqCons := b.value, told := b.count, bells := rest, dev := .draining }
  | _, _ => s

def finish (s : Admin) (dev : DevPhase) : Admin :=
  { s with devSqCons := s.devSqCons + 1, finished := s.finished + 1, dev }

/-- `uet_dev_admin_cq_has_room`. -/
def cqHasRoom (s : Admin) : Bool := decide ((s.devCqProd - s.devCqCons).toNat < adminEntries)

def fetch (s : Admin) (readable : Bool) : Admin :=
  match s.dev with
  | .draining =>
    if s.devSqCons = s.devSqProd then { s with dev := .idle }
    else if !s.cqHasRoom then { s with dev := .idle }
    else if !readable then s.finish .draining
    else { s with dev := .fetched (s.sq (s.devSqCons.toNat % adminEntries)) }
  | _ => s

/-- `uet_dev_admin_execute`, with any answer; the buffer is written only for a command that has one. -/
def exec (s : Admin) (a : Answer) (resp : Option Buf) : Admin :=
  match s.dev with
  | .fetched c =>
    let resp := if c.bufLen = 0 then none else resp
    { s with resp := resp.getD s.resp
             executed := s.executed ++ [⟨c, a, resp.getD s.resp⟩]
             written := s.written ++ (resp.map fun _ => (c.num, s.posted)).toList
             dev := .ran c a }
  | _ => s

def cqeOf (valid : Bool) (c : AdminCmd) (a : Answer) : AdminCqe := ⟨valid, c.cookie, c.opcode, a, c.num⟩

def devCqSlot (s : Admin) : Nat := s.devCqProd.toNat % adminEntries

def writeCqe (s : Admin) (ok : Bool) : Admin :=
  match s.dev with
  | .ran c a =>
    if ok then { s with cq := update s.cq s.devCqSlot (cqeOf false c a), dev := .wrote c a }
    else s.finish .draining
  | _ => s

def writeFlags (s : Admin) (ok : Bool) : Admin :=
  match s.dev with
  | .wrote _ _ =>
    if ok then
      { s with cq := update s.cq s.devCqSlot { s.cq s.devCqSlot with valid := true }
               answered := s.answered ++ [{ s.cq s.devCqSlot with valid := true }]
               dev := .flagged }
    else s.finish .draining
  | _ => s

def bumpSq (s : Admin) : Admin :=
  match s.dev with
  | .flagged => s.finish .bumped
  | _ => s

def bumpCq (s : Admin) : Admin :=
  match s.dev with
  | .bumped => { s with devCqProd := s.devCqProd + 1, dev := .draining }
  | _ => s

def step (s : Admin) : AdminEv → Admin
  | .call r =>
    match s.phase with
    | .idle => { s with phase := .dropping r false }
    | _ => s
  | .look => s.look
  | .check => s.check
  | .post => s.post
  | .giveUp =>
    match s.phase with
    | .waiting _ false => { s with phase := .idle }
    | _ => s
  | .bell => s.bell
  | .fetch readable => s.fetch readable
  | .exec a resp => s.exec a resp
  | .writeCqe ok => s.writeCqe ok
  | .writeFlags ok => s.writeFlags ok
  | .bumpSq => s.bumpSq
  | .bumpCq => s.bumpCq

/-- The queues as `uet_ref_admin_init` leaves them: memory is zero. -/
def init : Admin :=
  { sqProd := 0, cqCons := 0, cookie := 0, phase := .idle
    sq := fun _ => ⟨0, 0, [], 0, 0⟩, cq := fun _ => ⟨false, 0, 0, ⟨.ok, 0, 0⟩, 0⟩, resp := []
    bells := [], devSqProd := 0, devSqCons := 0, devCqProd := 0, devCqCons := 0, dev := .idle
    posted := 0, announced := 0, finished := 0, reaped := 0, told := 0
    answered := [], executed := [], written := [], returned := [] }

end Admin

/-! ## The ring of completions -/

/-- The completions from count `lo` on are in their slots, and no other slot is marked. -/
structure CqMem (cq : Nat → AdminCqe) (answered : List AdminCqe) (lo : Nat) : Prop where
  holds : Holds cq adminEntries answered lo
  marked : ∀ e ∈ answered, e.valid = true
  clear : ∀ j, (cq j).valid = true → ∃ i, lo ≤ i ∧ i < answered.length ∧ i % adminEntries = j
  lo_le : lo ≤ answered.length
  room : answered.length ≤ lo + adminEntries

namespace CqMem

variable {cq : Nat → AdminCqe} {answered : List AdminCqe} {lo : Nat}

section

variable (h : CqMem cq answered lo)
include h

theorem look : (cq (lo % adminEntries)).valid = true → answered[lo]? = some (cq (lo % adminEntries)) := by
  intro hv
  obtain ⟨i, hi, hlt, hmod⟩ := h.clear _ hv
  have hroom := h.room
  have heq : i = lo := by
    rcases lt_or_eq_of_le hi with hgt | rfl
    · exact absurd hmod.symm (mod_ne hgt (by omega))
    · rfl
  subst heq
  rw [getElem?_eq_getElem hlt, h.holds i _ le_rfl (getElem?_eq_getElem hlt)]

theorem not_marked (hv : (cq (lo % adminEntries)).valid = false) : answered.length = lo := by
  rcases lt_or_eq_of_le h.lo_le with hlt | heq
  · have hslot := h.holds lo _ le_rfl (getElem?_eq_getElem hlt)
    have hm := h.marked _ (getElem_mem hlt)
    rw [← hslot, hv] at hm
    cases hm
  · exact heq.symm

variable {e : AdminCqe}

theorem take (hlt : lo < answered.length) (he : e.valid = false) :
    CqMem (update cq (lo % adminEntries) e) answered (lo + 1) := by
  have hroom := h.room
  refine ⟨?_, h.marked, ?_, hlt, by omega⟩
  · intro i x hi hx
    have hilt := (List.getElem?_eq_some_iff.mp hx).1
    rw [update_of_ne (mod_ne (show lo < i from hi) (by omega)).symm]
    exact h.holds i x (by omega) hx
  · intro j hj
    by_cases hjl : j = lo % adminEntries
    · rw [hjl, update_self, he] at hj
      cases hj
    rw [update_of_ne hjl] at hj
    obtain ⟨i, hi, hlt', hmod⟩ := h.clear j hj
    refine ⟨i, ?_, hlt', hmod⟩
    rcases lt_or_eq_of_le hi with hgt | rfl
    · exact hgt
    · exact absurd hmod.symm hjl

theorem prepare (hroom : answered.length < lo + adminEntries)
    (he : e.valid = false) : CqMem (update cq (answered.length % adminEntries) e) answered lo := by
  refine ⟨h.holds.spoil hroom e, h.marked, ?_, h.lo_le, h.room⟩
  intro j hj
  by_cases hjl : j = answered.length % adminEntries
  · rw [hjl, update_self, he] at hj
    cases hj
  · rw [update_of_ne hjl] at hj
    exact h.clear j hj

theorem mark (hroom : answered.length < lo + adminEntries)
    (he : e.valid = true) : CqMem (update cq (answered.length % adminEntries) e) (answered ++ [e]) lo := by
  have hlo := h.lo_le
  have hlen : (answered ++ [e]).length = answered.length + 1 := length_append
  refine ⟨h.holds.push hroom e, ?_, ?_, by omega, by omega⟩
  · intro x hx
    rcases mem_append.mp hx with hx | hx
    · exact h.marked x hx
    · rw [mem_singleton.mp hx]
      exact he
  · intro j hj
    by_cases hjl : j = answered.length % adminEntries
    · exact ⟨answered.length, hlo, by omega, hjl.symm⟩
    rw [update_of_ne hjl] at hj
    obtain ⟨i, hi, hlt, hmod⟩ := h.clear j hj
    exact ⟨i, hi, by omega, hmod⟩

end

end CqMem

/-! ## The protocol -/

def DevPhase.hasRun : DevPhase → Nat
  | .ran _ _ | .wrote _ _ | .flagged => 1
  | _ => 0

def DevPhase.lag : DevPhase → Nat
  | .flagged | .bumped => 1
  | _ => 0

namespace Admin

def lastCmd (s : Admin) : AdminCmd := s.sq ((s.posted - 1) % adminEntries)

/-- A doorbell on its way stands for a count that has been reached, and not for less than the last one. -/
structure BellOk (announced posted told reaped : Nat) (b : Bell) : Prop where
  value : b.value = BitVec.ofNat 32 b.count
  ofSq : b.sq = true → announced ≤ b.count ∧ b.count ≤ posted
  ofCq : b.sq = false → told ≤ b.count ∧ b.count ≤ reaped

structure Counts (s : Admin) : Prop where
  sqProd : s.sqProd = BitVec.ofNat 32 s.posted
  cookie : s.cookie = BitVec.ofNat 64 s.posted
  devSqProd : s.devSqProd = BitVec.ofNat 32 s.announced
  devSqCons : s.devSqCons = BitVec.ofNat 32 s.finished
  finished_le : s.finished ≤ s.announced
  announced_le : s.announced ≤ s.posted
  posted_le : s.posted ≤ s.finished + 1
  cqCons : s.cqCons = BitVec.ofNat 32 s.reaped
  devCqCons : s.devCqCons = BitVec.ofNat 32 s.told
  told_le : s.told ≤ s.reaped
  devCqProd : ∃ n, s.devCqProd = BitVec.ofNat 32 n ∧ s.answered.length = n + s.dev.lag
  room : s.answered.length ≤ s.told + adminEntries
  bells : ∀ b ∈ s.bells, BellOk s.announced s.posted s.told s.reaped b
  bellOrder : s.bells.Pairwise fun a b => a.sq = b.sq → a.count ≤ b.count

/-- The device has a command at hand: it is the last one that was posted, and there is room for its completion. -/
def AtHand (s : Admin) (c : AdminCmd) : Prop :=
  s.finished < s.announced ∧ c = s.lastCmd ∧ s.answered.length < s.told + adminEntries

def HasRun (s : Admin) (c : AdminCmd) (a : Answer) : Prop := ∃ x ∈ s.executed, x.cmd = c ∧ x.answer = a

def PhaseOk (s : Admin) : DevPhase → Prop
  | .idle | .draining | .bumped => True
  | .fetched c => AtHand s c
  | .ran c a => AtHand s c ∧ HasRun s c a
  | .wrote c a => AtHand s c ∧ HasRun s c a ∧ s.cq (s.answered.length % adminEntries) = cqeOf false c a
  | .flagged => s.finished < s.announced

def Recent (s : Admin) : Prop := ∀ i e, s.reaped ≤ i → s.answered[i]? = some e → s.posted ≤ e.num + 1

def DrvOk (s : Admin) : DrvPhase → Prop
  | .idle | .dropping _ _ => True
  | .checking _ => ∀ i e, s.reaped ≤ i → s.answered[i]? = some e → s.posted ≤ e.num
  | .ready _ => (∀ i e, s.reaped ≤ i → s.answered[i]? = some e → s.posted ≤ e.num) ∧ s.finished = s.posted
  | .waiting r _ => s.lastCmd = cmdOf r s.cookie s.posted

def FromExec (s : Admin) (e : AdminCqe) : Prop :=
  ∃ x ∈ s.executed, x.cmd.num = e.num ∧ x.cmd.cookie = e.cookie ∧ x.answer = e.answer

structure OwnAnswer (executed : List Executed) (r : Returned) (x : Executed) : Prop where
  mem : x ∈ executed
  cmd : x.cmd = cmdOf r.req (BitVec.ofNat 64 r.num) r.num
  ret : r.ret = statusToErrno x.answer.status
  result : r.result = x.answer.result
  resp : ∀ b, r.resp = some b → b = x.resp

/-- The commands that were executed: each once, and the last one as it is in its slot, with the buffer as it left it. -/
structure Runs (s : Admin) : Prop where
  num_le : ∀ x ∈ s.executed, x.cmd.num ≤ s.finished + s.dev.hasRun
  nodup : (s.executed.map fun x => x.cmd.num).Nodup
  cookie : ∀ x ∈ s.executed, x.cmd.cookie = BitVec.ofNat 64 x.cmd.num
  last : ∀ x ∈ s.executed, x.cmd.num = s.posted → x.cmd = s.lastCmd ∧ s.resp = x.resp
  answers : ∀ e ∈ s.answered, FromExec s e
  written : ∀ w ∈ s.written, w.1 = w.2
  returned : ∀ r ∈ s.returned, ∃ x, OwnAnswer s.executed r x

structure AdminOk (s : Admin) : Prop where
  counts : Counts s
  mem : CqMem s.cq s.answered s.reaped
  last : 0 < s.posted → s.lastCmd.num = s.posted ∧ s.lastCmd.cookie = s.cookie
  device : PhaseOk s s.dev
  recent : Recent s
  driver : DrvOk s s.phase
  runs : Runs s

section

variable {s : Admin}

theorem dvd_turn : adminEntries ∣ 2 ^ 32 := ⟨2 ^ 29, rfl⟩

theorem AdminOk.cqSlot (h : AdminOk s) : s.cqSlot = s.reaped % adminEntries := by
  rw [Admin.cqSlot, h.counts.cqCons]
  exact toNat_ofNat_mod dvd_turn _

theorem Counts.last (h : Counts s) (hp : s.finished < s.announced) :
    s.finished + 1 = s.posted ∧ s.announced = s.posted := by
  have h1 := h.announced_le
  have h2 := h.posted_le
  omega

theorem AdminOk.hasRun_le (h : AdminOk s) : s.finished + s.dev.hasRun ≤ s.posted := by
  have h1 := h.counts.finished_le
  have h2 := h.counts.announced_le
  have hdev := h.device
  cases hd : s.dev with
  | ran c a =>
    rw [hd] at hdev
    have hp := hdev.1.1
    show s.finished + 1 ≤ s.posted
    omega
  | wrote c a =>
    rw [hd] at hdev
    have hp := hdev.1.1
    show s.finished + 1 ≤ s.posted
    omega
  | flagged =>
    rw [hd] at hdev
    have hp : s.finished < s.announced := hdev
    show s.finished + 1 ≤ s.posted
    omega
  | _ => exact h1.trans h2

end

/-! ## Steps of the driver -/

section

variable {s : Admin}

section

variable (h : AdminOk s)
include h

theorem AdminOk.call (r : AdminReq) : AdminOk (s.step (.call r)) := by
  simp only [Admin.step]
  split
  · exact ⟨{ h.counts with }, h.mem, h.last, h.device, h.recent, trivial, { h.runs with }⟩
  · exact h

theorem AdminOk.reapOne (hv : (s.cq s.cqSlot).valid = true) {phase : DrvPhase}
    (hphase : DrvOk { s.reapOne with phase } phase) : AdminOk { s.reapOne with phase } := by
  have hslot := h.cqSlot
  have hget : s.answered[s.reaped]? = some (s.cq s.cqSlot) := by
    rw [hslot] at hv ⊢
    exact h.mem.look hv
  have hlt := (List.getElem?_eq_some_iff.mp hget).1
  refine ⟨{ h.counts with cqCons := ?_, told_le := ?_, bells := ?_ }, ?_, h.last, ?_, ?_, hphase, { h.runs with }⟩
  · show s.cqCons + 1 = _
    rw [h.counts.cqCons]
    exact ofNat_succ _
  · exact Nat.le_succ_of_le h.counts.told_le
  · intro b hb
    have hok := h.counts.bells b hb
    exact ⟨hok.value, hok.ofSq, fun hc => ⟨(hok.ofCq hc).1, Nat.le_succ_of_le (hok.ofCq hc).2⟩⟩
  · show CqMem (update s.cq s.cqSlot _) s.answered (s.reaped + 1)
    rw [hslot]
    exact h.mem.take hlt rfl
  · -- the device is writing to another slot
    have hdev := h.device
    show PhaseOk _ s.dev
    cases hd : s.dev with
    | wrote c a =>
      rw [hd] at hdev
      obtain ⟨hat, hrun, hcq⟩ := hdev
      refine ⟨hat, hrun, ?_⟩
      show update s.cq s.cqSlot _ (s.answered.length % adminEntries) = _
      have hne : s.answered.length % adminEntries ≠ s.cqSlot := by
        rw [hslot]
        have htold := h.counts.told_le
        have hat' := hat.2.2
        exact (mod_ne hlt (by omega)).symm
      rw [update_of_ne hne]
      exact hcq
    | idle => trivial
    | draining => trivial
    | bumped => trivial
    | fetched c => rw [hd] at hdev; exact hdev
    | ran c a => rw [hd] at hdev; exact hdev
    | flagged => rw [hd] at hdev; exact hdev
  · intro i e hi he
    exact h.recent i e (Nat.le_of_succ_le hi) he

theorem AdminOk.ringCq : AdminOk s.ringCq := by
  refine ⟨{ h.counts with bells := ?_, bellOrder := ?_ }, h.mem, h.last, h.device, h.recent, h.driver, { h.runs with }⟩
  · intro b hb
    rcases mem_append.mp hb with hb | hb
    · exact h.counts.bells b hb
    · rw [mem_singleton.mp hb]
      exact ⟨h.counts.cqCons, fun hc => (nomatch hc), fun _ => ⟨h.counts.told_le, le_rfl⟩⟩
  · apply pairwise_append.mpr ⟨h.counts.bellOrder, pairwise_singleton _ _, ?_⟩
    intro a ha b hb hsq
    rw [mem_singleton.mp hb] at hsq ⊢
    exact ((h.counts.bells a ha).ofCq hsq).2

theorem AdminOk.endReap (reaped : Bool) : AdminOk (s.endReap reaped) := by
  unfold Admin.endReap
  split
  · exact h.ringCq
  · exact h

theorem AdminOk.setPhase {phase : DrvPhase} (hphase : DrvOk s phase) : AdminOk { s with phase } := by
  refine ⟨{ h.counts with }, h.mem, h.last, h.device, h.recent, ?_, { h.runs with }⟩
  cases phase <;> exact hphase

theorem AdminOk.own_answer {r : AdminReq} {reaped : Bool} (hphase : s.phase = .waiting r reaped)
    (hv : (s.cq s.cqSlot).valid = true) (hcookie : (s.cq s.cqSlot).cookie = s.cookie) :
    ∃ x, OwnAnswer s.executed (s.answer r (s.cq s.cqSlot)) x := by
  have hget : s.answered[s.reaped]? = some (s.cq s.cqSlot) := by
    rw [h.cqSlot] at hv ⊢
    exact h.mem.look hv
  have hrecent := h.recent _ _ le_rfl hget
  obtain ⟨x, hx, hnum, hck, hans⟩ := h.runs.answers _ (mem_of_getElem? hget)
  have hle := (h.runs.num_le x hx).trans h.hasRun_le
  have hlast : x.cmd.num = s.posted := by
    apply eq_of_ofNat_eq hle (w := 64) (by omega)
    rw [← h.runs.cookie x hx, hck, hcookie, h.counts.cookie]
  obtain ⟨hcmd, hresp⟩ := h.runs.last x hx hlast
  have hdriver := h.driver
  rw [hphase] at hdriver
  refine ⟨x, hx, ?_, ?_, ?_, ?_⟩
  · rw [hcmd]
    show s.lastCmd = cmdOf r (BitVec.ofNat 64 s.posted) s.posted
    rw [← h.counts.cookie]
    exact hdriver
  · rw [hans]
    rfl
  · rw [hans]
    rfl
  · intro b hb
    rw [← hresp]
    simp only [Admin.answer] at hb
    split at hb
    · exact (Option.some.inj hb).symm
    · cases hb

theorem AdminOk.addReturned {r : Returned} (hr : ∃ x, OwnAnswer s.executed r x) :
    AdminOk { s with returned := s.returned ++ [r] } := by
  refine ⟨{ h.counts with }, h.mem, h.last, h.device, h.recent, h.driver, { h.runs with returned := ?_ }⟩
  intro r' hr'
  rcases mem_append.mp hr' with hr' | hr'
  · exact h.runs.returned r' hr'
  · rw [mem_singleton.mp hr']
    exact hr

theorem AdminOk.look : AdminOk s.look := by
  have hdriver := h.driver
  unfold Admin.look
  dsimp only
  split
  · rename_i r reaped hphase
    split
    · rename_i hv
      exact h.reapOne hv trivial
    rename_i hv
    -- nothing is left in the ring
    have hnone : s.answered.length = s.reaped := by
      rw [h.cqSlot, Bool.not_eq_true] at hv
      exact h.mem.not_marked hv
    apply (h.endReap reaped).setPhase
    intro i e hi he
    have hsame : (s.endReap reaped).reaped = s.reaped ∧ (s.endReap reaped).answered = s.answered := by
      unfold Admin.endReap
      split <;> exact ⟨rfl, rfl⟩
    rw [hsame.1] at hi
    rw [hsame.2] at he
    have hlt := (List.getElem?_eq_some_iff.mp he).1
    omega
  · rename_i r reaped hphase
    rw [hphase] at hdriver
    split
    · apply (h.endReap reaped).setPhase
      unfold Admin.endReap
      split <;> exact hdriver
    rename_i hv
    rw [Bool.not_eq_true, Bool.not_eq_false'] at hv
    split
    · rename_i hcookie
      have hown := h.own_answer hphase hv hcookie.2
      have hreap : AdminOk { s.reapOne with phase := .idle } := h.reapOne hv trivial
      have hok := hreap.ringCq.addReturned hown
      exact hok
    · exact h.reapOne hv hdriver
  · exact h

theorem AdminOk.check : AdminOk s.check := by
  have hdriver := h.driver
  unfold Admin.check
  split
  · rename_i r hphase
    rw [hphase] at hdriver
    split
    · rename_i heq
      apply h.setPhase
      refine ⟨hdriver, ?_⟩
      rw [h.counts.devSqCons, h.counts.sqProd] at heq
      have h1 := h.counts.finished_le
      have h2 := h.counts.announced_le
      have h3 := h.counts.posted_le
      exact eq_of_ofNat_eq (by omega) (by omega) heq
    · exact h.setPhase trivial
  · exact h

theorem AdminOk.post : AdminOk s.post := by
  have hdriver := h.driver
  unfold Admin.post
  split
  · rename_i r hphase
    rw [hphase] at hdriver
    obtain ⟨hnew, hfin⟩ := hdriver
    have hann := h.counts.announced_le
    have hslot : s.sqProd.toNat % adminEntries = s.posted % adminEntries := by
      rw [h.counts.sqProd]
      exact toNat_ofNat_mod dvd_turn _
    have hnum : s.cookie + 1 = BitVec.ofNat 64 (s.posted + 1) := by
      rw [h.counts.cookie]
      exact ofNat_succ _
    have hprod : s.sqProd + 1 = BitVec.ofNat 32 (s.posted + 1) := by
      rw [h.counts.sqProd]
      exact ofNat_succ _
    have hlast : update s.sq (s.sqProd.toNat % adminEntries) (cmdOf r (s.cookie + 1) (s.posted + 1))
        (s.posted % adminEntries) = cmdOf r (s.cookie + 1) (s.posted + 1) := by
      rw [hslot, update_self]
    refine ⟨{ h.counts with
      sqProd := hprod, cookie := hnum, announced_le := ?_, posted_le := ?_, bells := ?_, bellOrder := ?_ },
      h.mem, ?_, ?_, ?_, hlast, { h.runs with last := ?_ }⟩
    · exact Nat.le_succ_of_le hann
    · show s.posted + 1 ≤ s.finished + 1
      omega
    · intro b hb
      rcases mem_append.mp hb with hb | hb
      · have hok := h.counts.bells b hb
        exact ⟨hok.value, fun hc => ⟨(hok.ofSq hc).1, Nat.le_succ_of_le (hok.ofSq hc).2⟩, hok.ofCq⟩
      · rw [mem_singleton.mp hb]
        exact ⟨hprod, fun _ => ⟨Nat.le_succ_of_le hann, le_rfl⟩, fun hc => (nomatch hc)⟩
    · apply pairwise_append.mpr ⟨h.counts.bellOrder, pairwise_singleton _ _, ?_⟩
      intro a ha b hb hsq
      rw [mem_singleton.mp hb] at hsq ⊢
      exact Nat.le_succ_of_le ((h.counts.bells a ha).ofSq hsq).2
    · intro _
      show (update s.sq _ _ (s.posted % adminEntries)).num = s.posted + 1 ∧
        (update s.sq _ _ (s.posted % adminEntries)).cookie = s.cookie + 1
      rw [hlast]
      exact ⟨rfl, rfl⟩
    · -- the device has no command at hand
      have hdev := h.device
      cases hd : s.dev with
      | idle => trivial
      | draining => trivial
      | bumped => trivial
      | fetched c =>
        rw [hd] at hdev
        have hp := hdev.1
        omega
      | ran c a =>
        rw [hd] at hdev
        have hp := hdev.1.1
        omega
      | wrote c a =>
        rw [hd] at hdev
        have hp := hdev.1.1
        omega
      | flagged =>
        rw [hd] at hdev
        have hp : s.finished < s.announced := hdev
        omega
    · intro i e hi he
      exact Nat.succ_le_succ (hnew i e hi he)
    · intro x hx hxn
      have hle := (h.runs.num_le x hx).trans h.hasRun_le
      have hxn' : x.cmd.num = s.posted + 1 := hxn
      omega
  · exact h

theorem AdminOk.giveUp : AdminOk (s.step .giveUp) := by
  simp only [Admin.step]
  split
  · exact h.setPhase trivial
  · exact h

end

end

/-! ## Steps of the device -/

section

variable {s : Admin}

section

variable (h : AdminOk s)
include h

theorem AdminOk.bell : AdminOk s.bell := by
  unfold Admin.bell
  split
  · rename_i b rest hdev hbells
    have hmem : ∀ x ∈ rest, x ∈ s.bells := by
      intro x hx
      rw [hbells]
      exact mem_cons_of_mem _ hx
    have hb := h.counts.bells b (by rw [hbells]; exact mem_cons_self ..)
    have horder := h.counts.bellOrder
    rw [hbells, pairwise_cons] at horder
    obtain ⟨n, hn, hlen⟩ := h.counts.devCqProd
    rw [hdev] at hlen
    have hrunle := h.runs.num_le
    rw [hdev] at hrunle
    split
    · rename_i hsq
      obtain ⟨hlo, hhi⟩ := hb.ofSq hsq
      refine ⟨{ h.counts with
        devSqProd := hb.value, finished_le := h.counts.finished_le.trans hlo, announced_le := hhi
        devCqProd := ⟨n, hn, hlen⟩, bells := ?_, bellOrder := horder.2 },
        h.mem, h.last, trivial, h.recent, h.driver, { h.runs with num_le := hrunle }⟩
      intro x hx
      have hok := h.counts.bells x (hmem x hx)
      exact ⟨hok.value, fun hc => ⟨horder.1 x hx (hsq.trans hc.symm), (hok.ofSq hc).2⟩, hok.ofCq⟩
    · rename_i hsq
      rw [Bool.not_eq_true] at hsq
      obtain ⟨hlo, hhi⟩ := hb.ofCq hsq
      refine ⟨{ h.counts with
        devCqCons := hb.value, told_le := hhi, room := ?_
        devCqProd := ⟨n, hn, hlen⟩, bells := ?_, bellOrder := horder.2 },
        h.mem, h.last, trivial, h.recent, h.driver, { h.runs with num_le := hrunle }⟩
      · have hroom := h.counts.room
        show s.answered.length ≤ b.count + adminEntries
        omega
      · intro x hx
        have hok := h.counts.bells x (hmem x hx)
        exact ⟨hok.value, hok.ofSq, fun hc => ⟨horder.1 x hx (hsq.trans hc.symm), (hok.ofCq hc).2⟩⟩
  · exact h

theorem AdminOk.not_ready (hp : s.finished < s.announced) (r : AdminReq) : s.phase ≠ .ready r := by
  intro hr
  have hdriver := h.driver
  rw [hr] at hdriver
  have hfin := hdriver.2
  have hann := h.counts.announced_le
  omega

theorem AdminOk.finish (hp : s.finished < s.announced) {d : DevPhase} (hlag : d.lag = s.dev.lag)
    (hrun : s.dev.hasRun ≤ 1) (hphase : PhaseOk (s.finish d) d) : AdminOk (s.finish d) := by
  obtain ⟨n, hn, hlen⟩ := h.counts.devCqProd
  have hposted := h.counts.posted_le
  refine ⟨{ h.counts with
    devSqCons := ?_, finished_le := hp, posted_le := ?_, devCqProd := ⟨n, hn, ?_⟩ },
    h.mem, h.last, hphase, h.recent, ?_, { h.runs with num_le := ?_ }⟩
  · show s.devSqCons + 1 = _
    rw [h.counts.devSqCons]
    exact ofNat_succ _
  · exact Nat.le_succ_of_le hposted
  · show s.answered.length = n + d.lag
    rw [hlag]
    exact hlen
  · have hdriver := h.driver
    show DrvOk _ s.phase
    cases hd : s.phase with
    | ready r => exact absurd hd (h.not_ready hp r)
    | _ => rw [hd] at hdriver; exact hdriver
  · intro x hx
    have hle := h.runs.num_le x hx
    show x.cmd.num ≤ s.finished + 1 + d.hasRun
    omega

theorem AdminOk.setDev {d : DevPhase} (hlag : d.lag = s.dev.lag) (hrun : d.hasRun = s.dev.hasRun)
    (hphase : PhaseOk { s with dev := d } d) : AdminOk { s with dev := d } := by
  obtain ⟨n, hn, hlen⟩ := h.counts.devCqProd
  refine ⟨{ h.counts with devCqProd := ⟨n, hn, ?_⟩ }, h.mem, h.last, hphase, h.recent, h.driver, { h.runs with num_le := ?_ }⟩
  · rw [hlag]
    exact hlen
  · intro x hx
    rw [hrun]
    exact h.runs.num_le x hx

theorem AdminOk.fetch (readable : Bool) : AdminOk (s.fetch readable) := by
  unfold Admin.fetch
  split
  · rename_i hdev
    split
    · exact h.setDev (by rw [hdev]; rfl) (by rw [hdev]; rfl) trivial
    rename_i hne
    have hp : s.finished < s.announced := by
      rw [h.counts.devSqCons, h.counts.devSqProd] at hne
      rcases lt_or_eq_of_le h.counts.finished_le with hlt | heq
      · exact hlt
      · exact absurd (congrArg _ heq) hne
    split
    · exact h.setDev (by rw [hdev]; rfl) (by rw [hdev]; rfl) trivial
    rename_i hroom
    split
    · exact h.finish hp (by rw [hdev]) (by rw [hdev]; exact Nat.zero_le _) trivial
    apply h.setDev (by rw [hdev]; rfl) (by rw [hdev]; rfl)
    obtain ⟨hlast, -⟩ := h.counts.last hp
    refine ⟨hp, ?_, ?_⟩
    · show s.sq (s.devSqCons.toNat % adminEntries) = s.sq ((s.posted - 1) % adminEntries)
      rw [h.counts.devSqCons, toNat_ofNat_mod dvd_turn, ← hlast, Nat.add_sub_cancel]
    · obtain ⟨n, hn, hlen⟩ := h.counts.devCqProd
      rw [hdev] at hlen
      have hlen' : s.answered.length = n := hlen
      have hlo := h.mem.lo_le
      have htold := h.counts.told_le
      have hall := h.counts.room
      rw [Bool.not_eq_true, Bool.not_eq_false', Admin.cqHasRoom, decide_eq_true_eq, hn, h.counts.devCqCons,
        Spsc.toNat_sub_ofNat (by omega) (by unfold adminEntries at hall; omega)] at hroom
      show s.answered.length < s.told + adminEntries
      omega
  · exact h

theorem AdminOk.exec (a : Answer) (resp : Option Buf) : AdminOk (s.exec a resp) := by
  unfold Admin.exec
  split
  · rename_i c hdev
    generalize hbuf : (if c.bufLen = 0 then none else resp) = buf
    have hat := h.device
    rw [hdev] at hat
    obtain ⟨hp, rfl, hroom⟩ := hat
    obtain ⟨hlast, -⟩ := h.counts.last hp
    obtain ⟨hnum, hcookie⟩ := h.last (by omega)
    have hold : ∀ x ∈ s.executed, x.cmd.num < s.posted := by
      intro x hx
      have hle := h.runs.num_le x hx
      rw [hdev] at hle
      have hle' : x.cmd.num ≤ s.finished := hle
      omega
    have hmono : ∀ x ∈ s.executed, x ∈ s.executed ++ [⟨s.lastCmd, a, buf.getD s.resp⟩] :=
      fun x hx => mem_append_left _ hx
    obtain ⟨n, hn, hlen⟩ := h.counts.devCqProd
    rw [hdev] at hlen
    refine ⟨{ h.counts with devCqProd := ⟨n, hn, hlen⟩ }, h.mem, h.last, ?_, h.recent, ?_, ?_⟩
    · exact ⟨⟨hp, rfl, hroom⟩, _, mem_append_right _ (mem_singleton.mpr rfl), rfl, rfl⟩
    · have hdriver := h.driver
      cases hd : s.phase <;> rw [hd] at hdriver <;> exact hdriver
    · constructor
      · intro x hx
        rcases mem_append.mp hx with hx | hx
        · have hlt := hold x hx
          show x.cmd.num ≤ s.finished + 1
          omega
        rw [mem_singleton.mp hx]
        show s.lastCmd.num ≤ s.finished + 1
        omega
      · rw [map_append, map_singleton]
        apply Nodup.append h.runs.nodup (nodup_singleton _)
        intro y hy hy'
        obtain ⟨x, hx, rfl⟩ := mem_map.mp hy
        have hlt := hold x hx
        have heq : x.cmd.num = s.lastCmd.num := mem_singleton.mp hy'
        omega
      · intro x hx
        rcases mem_append.mp hx with hx | hx
        · exact h.runs.cookie x hx
        rw [mem_singleton.mp hx]
        rw [hcookie, hnum]
        exact h.counts.cookie
      · intro x hx hxn
        rcases mem_append.mp hx with hx | hx
        · exact absurd hxn (ne_of_lt (hold x hx))
        · rw [mem_singleton.mp hx]
          exact ⟨rfl, rfl⟩
      · intro e he
        obtain ⟨x, hx, hrest⟩ := h.runs.answers e he
        exact ⟨x, hmono x hx, hrest⟩
      · intro w hw
        rcases mem_append.mp hw with hw | hw
        · exact h.runs.written w hw
        · obtain ⟨_, -, rfl⟩ := Option.map_eq_some_iff.mp (Option.mem_toList.mp hw)
          exact hnum
      · intro r hr
        obtain ⟨x, hx⟩ := h.runs.returned r hr
        exact ⟨x, hmono x hx.mem, hx.cmd, hx.ret, hx.result, hx.resp⟩
  · exact h

theorem AdminOk.devCqSlot (hlag : s.dev.lag = 0) : s.devCqSlot = s.answered.length % adminEntries := by
  obtain ⟨n, hn, hlen⟩ := h.counts.devCqProd
  rw [hlag, add_zero] at hlen
  rw [Admin.devCqSlot, hn, hlen]
  exact toNat_ofNat_mod dvd_turn _

theorem AdminOk.writeCqe (ok : Bool) : AdminOk (s.writeCqe ok) := by
  unfold Admin.writeCqe
  split
  · rename_i c a hdev
    have hphase := h.device
    rw [hdev] at hphase
    obtain ⟨⟨hp, hcmd, hroom⟩, hrun⟩ := hphase
    split
    · have hslot := h.devCqSlot (by rw [hdev]; rfl)
      have htold := h.counts.told_le
      obtain ⟨n, hn, hlen⟩ := h.counts.devCqProd
      have hrunle := h.runs.num_le
      rw [hdev] at hlen hrunle
      rw [hslot]
      refine ⟨{ h.counts with devCqProd := ⟨n, hn, hlen⟩ }, h.mem.prepare (by omega) rfl, h.last, ?_, h.recent, h.driver,
        { h.runs with num_le := hrunle }⟩
      exact ⟨⟨hp, hcmd, hroom⟩, hrun, update_self ..⟩
    · exact h.finish hp (by rw [hdev]; rfl) (by rw [hdev]; exact le_rfl) trivial
  · exact h

theorem AdminOk.writeFlags (ok : Bool) : AdminOk (s.writeFlags ok) := by
  unfold Admin.writeFlags
  split
  · rename_i c a hdev
    have hphase := h.device
    rw [hdev] at hphase
    obtain ⟨⟨hp, hcmd, hroom⟩, ⟨x, hx, hxc, hxa⟩, hcq⟩ := hphase
    split
    · have hslot := h.devCqSlot (by rw [hdev]; rfl)
      have htold := h.counts.told_le
      obtain ⟨hlast, -⟩ := h.counts.last hp
      obtain ⟨hnum, -⟩ := h.last (by omega)
      obtain ⟨n, hn, hlen⟩ := h.counts.devCqProd
      have hrunle := h.runs.num_le
      rw [hdev] at hlen hrunle
      have hlen' : s.answered.length = n := hlen
      have hcnum : c.num = s.posted := by rw [hcmd, hnum]
      rw [hslot, hcq]
      -- what is marked is the completion of the last command
      have hmem : ∀ (i : Nat) (e : AdminCqe), (s.answered ++ [cqeOf true c a])[i]? = some e →
          s.answered[i]? = some e ∨ e.num = s.posted := by
        intro i e he
        rcases lt_or_ge i s.answered.length with hlt | hge
        · rw [getElem?_append_left hlt] at he
          exact .inl he
        obtain ⟨hi, -⟩ := List.getElem?_eq_some_iff.mp he
        rw [length_append, length_singleton] at hi
        obtain rfl : i = s.answered.length := by omega
        rw [getElem?_concat_length] at he
        cases he
        exact .inr hcnum
      refine ⟨{ h.counts with devCqProd := ⟨n, hn, ?_⟩, room := ?_ }, h.mem.mark (by omega) rfl, h.last, hp, ?_, ?_,
        { h.runs with num_le := hrunle, answers := ?_ }⟩
      · show (s.answered ++ [_]).length = n + 1
        rw [length_append, length_singleton, hlen']
      · show (s.answered ++ [_]).length ≤ s.told + adminEntries
        rw [length_append, length_singleton]
        omega
      · intro i e hi he
        rcases hmem i e he with he | he
        · exact h.recent i e hi he
        · rw [he]
          exact Nat.le_succ _
      · have hdriver := h.driver
        cases hd : s.phase with
        | idle => trivial
        | dropping r reaped => trivial
        | waiting r reaped => rw [hd] at hdriver; exact hdriver
        | ready r => exact absurd hd (h.not_ready hp r)
        | checking r =>
          rw [hd] at hdriver
          intro i e hi he
          rcases hmem i e he with he | he
          · exact hdriver i e hi he
          · exact le_of_eq he.symm
      · intro e he
        rcases mem_append.mp he with he | he
        · exact h.runs.answers e he
        · rw [mem_singleton.mp he]
          exact ⟨x, hx, by rw [hxc]; rfl, by rw [hxc]; rfl, hxa⟩
    · exact h.finish hp (by rw [hdev]; rfl) (by rw [hdev]; exact le_rfl) trivial
  · exact h

theorem AdminOk.bumpSq : AdminOk s.bumpSq := by
  unfold Admin.bumpSq
  split
  · rename_i hdev
    have hp := h.device
    rw [hdev] at hp
    exact h.finish hp (by rw [hdev]; rfl) (by rw [hdev]; exact le_rfl) trivial
  · exact h

theorem AdminOk.bumpCq : AdminOk s.bumpCq := by
  unfold Admin.bumpCq
  split
  · rename_i hdev
    obtain ⟨n, hn, hlen⟩ := h.counts.devCqProd
    have hrunle := h.runs.num_le
    rw [hdev] at hlen hrunle
    refine ⟨{ h.counts with devCqProd := ⟨n + 1, ?_, hlen⟩ }, h.mem, h.last, trivial, h.recent, h.driver,
      { h.runs with num_le := hrunle }⟩
    rw [hn]
    exact ofNat_succ _
  · exact h

end

end

theorem AdminOk.step {s : Admin} (h : AdminOk s) (ev : AdminEv) : AdminOk (s.step ev) := by
  cases ev with
  | call => exact h.call ..
  | look => exact h.look
  | check => exact h.check
  | post => exact h.post
  | giveUp => exact h.giveUp
  | bell => exact h.bell
  | fetch => exact h.fetch ..
  | exec => exact h.exec ..
  | writeCqe => exact h.writeCqe ..
  | writeFlags => exact h.writeFlags ..
  | bumpSq => exact h.bumpSq
  | bumpCq => exact h.bumpCq

theorem adminOk_init : AdminOk init := by
  refine ⟨⟨rfl, rfl, rfl, rfl, Nat.le_refl _, Nat.le_refl _, Nat.zero_le _, rfl, rfl, Nat.le_refl _, ⟨0, rfl, rfl⟩,
    Nat.zero_le _, ?_, Pairwise.nil⟩, ⟨holds_nil, ?_, ?_, Nat.le_refl _, Nat.zero_le _⟩, ?_, trivial, ?_, trivial, ?_⟩
  · exact fun b hb => absurd hb not_mem_nil
  · exact fun e he => absurd he not_mem_nil
  · exact fun j hj => (nomatch hj)
  · exact fun hpos => absurd hpos (Nat.lt_irrefl 0)
  · exact fun i e _ he => (nomatch he)
  · constructor
    case nodup => exact nodup_nil
    all_goals exact fun x hx => absurd hx not_mem_nil

theorem adminOk_run (evs : List AdminEv) : AdminOk (evs.foldl Admin.step init) := by
  apply foldlRecOn
  · exact adminOk_init
  · intro s h ev _
    exact h.step ev

/-- Answers go with their commands: what a call returned was produced for its own command, no command was executed twice, and
the buffer was written for no command but the last one that had been posted. -/
structure AnswersMatch (s : Admin) : Prop where
  own : ∀ r ∈ s.returned, ∃ x, OwnAnswer s.executed r x
  once : (s.executed.map fun x => x.cmd.num).Nodup
  buffer : ∀ w ∈ s.written, w.1 = w.2

end Admin

/-- Whatever calls are made, whichever of them give up, and however late the device is, answers go with their
commands. -/
theorem admin_answers_match (evs : List AdminEv) : (evs.foldl Admin.step Admin.init).AnswersMatch := by
  have h := (Admin.adminOk_run evs).runs
  exact ⟨h.returned, h.nodup, h.written⟩

end Uet.Ref
