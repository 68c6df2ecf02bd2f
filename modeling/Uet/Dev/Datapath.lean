import Uet.Dev.Objects

/-!
# The datapath of the device

The progress thread reads work requests from the rings of a queue pair, hands them to the
library, and turns what the library reports into entries of the guest's completion queues. What is read
from guest memory, what the library answers and whether guest memory can be written comes from
outside.
-/

namespace Uet.Dev

open HandleTable Function

/-- `UET_DEV_MAX_SGE`. -/
def maxSge : Nat := 8
/-- `UET_DEV_ERRS_PER_SWEEP`. -/
def errsPerSweep : Nat := 8
/-- The size of the array that `uet_dev_cq_drain` reads into. -/
def entsPerDrain : Nat := 8

/-- `struct uet_dev_sge`. -/
structure Sge where
  addr : Nat
  key : Nat
  len : Nat
  deriving DecidableEq

/-- `struct uet_dev_wqe`. -/
structure Wqe where
  wrId : BitVec 64
  opcode : Opcode
  signaled : Bool
  ah : Bool
  numSge : Nat
  addrIndex : Nat
  jkey : Nat
  imm : BitVec 64
  remoteAddr : BitVec 64
  remoteKey : BitVec 64
  sge : Nat → Sge

def Wqe.sges (wqe : Wqe) : List Sge := (List.range wqe.numSge).map wqe.sge

/-- `UET_DEV_WC_*`. -/
inductive WcStatus where
  | success | generalErr | badKey | badAddr | tooLong | flushed | badJob | badLocalAddr
  deriving DecidableEq

/-- `struct uet_dev_cqe`. -/
structure Cqe where
  wrId : BitVec 64
  imm : BitVec 64
  status : WcStatus
  opcode : Opcode
  byteLen : Nat
  immFlag : Bool
  qpn : BitVec 32
  srcId : Nat
  jobId : Nat
  ringCons : BitVec 32
  valid : Bool
  deriving DecidableEq

/-! ## Completions -/

/-- A call of `uet_dev_cq_post`: the handle of the queue and what goes into the entry; `meant` is
the serial number of the queue that the queue pair was created with. -/
structure PostReq where
  cq : Nat
  work : Work
  status : WcStatus
  byteLen : Nat
  imm : BitVec 64
  srcId : Nat
  meant : Nat

inductive PostOutcome where
  | noQueue
  | overrun
  | failed
  | written (cqe : Cqe)
  deriving DecidableEq

/-- `uet_dev_cq_post`; `writes` says whether guest memory takes the entry. -/
def cqPost (cq : Cq) (p : PostReq) (writes : Bool) : Cq × PostOutcome :=
  if !cq.ring.live then (cq, .noQueue)
  else if cq.ring.desc.entries ≤ (cq.ring.prod - cq.ring.cons).toNat then (cq, .overrun)
  else
    let cqe : Cqe :=
      { wrId := p.work.wrId, imm := p.imm, status := p.status, opcode := p.work.opcode, byteLen := p.byteLen
        immFlag := p.work.imm, qpn := p.work.qpn, srcId := p.srcId, jobId := p.work.jobId
        ringCons := p.work.ringCons, valid := cq.phase }
    if !writes then (cq, .failed)
    else
      let prod := cq.ring.prod + 1
      ({ cq with
          ring := { cq.ring with prod }
          phase := if prod.toNat % cq.ring.desc.entries = 0 then !cq.phase else cq.phase
          armed := false }, .written cqe)

def postOutcome (dev : Device) (p : PostReq) (writes : Bool) : PostOutcome :=
  match cqGet dev p.cq with
  | none => .noQueue
  | some cq => (cqPost cq p writes).2

def post (dev : Device) (writes : Bool) : Option PostReq → Device
  | none => dev
  | some p =>
    match cqGet dev p.cq with
    | none => dev
    | some cq =>
      match cqPost cq p writes with
      | (cq', .written _) =>
        { dev with cqs := update dev.cqs (p.cq - 1) (some cq')
                   posted := dev.posted ++ [⟨cq.serial, p.meant⟩] }
      | _ => dev

/-! ## Records of a queue pair -/

structure Ctx where
  send : Bool
  slot : Nat
  deriving DecidableEq

namespace Qp

def work (qp : Qp) (ctx : Ctx) : Work := if ctx.send then qp.sqWork ctx.slot else qp.rqWork ctx.slot

def setWork (qp : Qp) (ctx : Ctx) (w : Work) : Qp :=
  if ctx.send then { qp with sqWork := update qp.sqWork ctx.slot w }
  else { qp with rqWork := update qp.rqWork ctx.slot w }

def rqNext (qp : Qp) : Ctx := ⟨false, qp.rq.cons.toNat % qp.rq.desc.entries⟩
def sqNext (qp : Qp) : Ctx := ⟨true, qp.sq.cons.toNat % qp.sq.desc.entries⟩

def rqAdvance (qp : Qp) : Qp := { qp with rq := { qp.rq with cons := qp.rq.cons + 1 } }
def sqAdvance (qp : Qp) : Qp := { qp with sq := { qp.sq with cons := qp.sq.cons + 1 } }

def cqOf (qp : Qp) (send : Bool) : Nat := if send then qp.sendCq else qp.recvCq
def serialOf (qp : Qp) (send : Bool) : Nat := if send then qp.sendSerial else qp.recvSerial

end Qp

/-! ## Work requests -/

/-- `uet_dev_mr_offset`. -/
def mrOffset (m : Mr) (addr len : Nat) : Option Nat :=
  if addr < m.baseVa ∨ m.len < len then none
  else if m.len - len < addr - m.baseVa then none
  else some (addr - m.baseVa)

/-- `struct uet_mr_seg`. -/
structure Seg where
  mr : Nat
  addr : Nat
  len : Nat
  deriving DecidableEq

def segOf (dev : Device) (s : Sge) : Except WcStatus Seg :=
  match mrByKey dev s.key with
  | none => .error .badKey
  | some m =>
    if !m.enabled then .error .badKey
    else
      match mrOffset m s.addr s.len with
      | none => .error .badLocalAddr
      | some offset => .ok ⟨m.mr, offset, s.len⟩

def segsOf (dev : Device) : List Sge → Except WcStatus (List Seg)
  | [] => .ok []
  | s :: rest =>
    match segOf dev s with
    | .error st => .error st
    | .ok seg =>
      match segsOf dev rest with
      | .error st => .error st
      | .ok segs => .ok (seg :: segs)

def wqeJkey (qp : Qp) (wqe : Wqe) : Nat :=
  if wqe.jkey = 0 ∧ qp.jkeyHandle ≠ 0 then jkeyValue qp.jkeyHandle else wqe.jkey

def wqeJob (dev : Device) (qp : Qp) (wqe : Wqe) : Option Job := jobByJkey dev (wqeJkey qp wqe) qp.pd

inductive LibOp where
  | recv | send | sendImm | write | writeImm | read
  deriving DecidableEq

inductive Peer where
  | ah (handle : Nat)
  | entry (index : Nat)
  deriving DecidableEq

structure LibCall where
  op : LibOp
  jobId : Nat
  segs : List Seg
  peer : Option Peer
  ctx : Ctx
  deriving DecidableEq

inductive LibResult where
  | accepted | again | failed
  deriving DecidableEq

/-- One turn of a loop: the queue pair after it, the completion and the call it makes, and whether the
loop goes on. -/
structure Turn where
  qp : Qp
  post : Option PostReq
  call : Option LibCall
  more : Bool

def errorPost (qp : Qp) (send : Bool) (w : Work) (status : WcStatus) : PostReq :=
  ⟨w.cq, w, status, 0, 0, 0, qp.serialOf send⟩

def reportedJob (dev : Device) (qp : Qp) (job : Job) : Nat :=
  if qpJobId dev qp ≠ 0 then qpJobId dev qp else job.jobId

def rqRecord (dev : Device) (qp : Qp) (wqe : Wqe) (job : Job) : Work :=
  { wrId := wqe.wrId, qpn := qp.qpn, opcode := .recv, cq := qp.recvCq, jobId := reportedJob dev qp job
    ringCons := qp.rq.cons + 1, imm := false, signaled := true, busy := false }

/-- A turn of `uet_dev_rq_run`, with what was read from the slot. -/
def rqTurn (dev : Device) (qp : Qp) (wqe : Option Wqe) (rc : LibResult) : Turn :=
  let ctx := qp.rqNext
  if qp.rq.cons = qp.rq.prod then ⟨qp, none, none, false⟩
  else if (qp.work ctx).busy then ⟨qp, none, none, false⟩
  else
    match wqe with
    | none => ⟨qp, none, none, false⟩
    | some wqe =>
      if maxSge < wqe.numSge then ⟨qp.rqAdvance, none, none, true⟩
      else
        match wqeJob dev qp wqe with
        | none => ⟨qp.rqAdvance, none, none, true⟩
        | some job =>
          let w := rqRecord dev qp wqe job
          match segsOf dev wqe.sges with
          | .error st => ⟨(qp.setWork ctx w).rqAdvance, some (errorPost qp false w st), none, true⟩
          | .ok segs =>
            let call : LibCall := ⟨.recv, job.jobId, segs, none, ctx⟩
            match rc with
            | .accepted => ⟨(qp.setWork ctx { w with busy := true }).rqAdvance, none, some call, true⟩
            | .again => ⟨qp.setWork ctx w, none, some call, false⟩
            | .failed =>
              ⟨(qp.setWork ctx w).rqAdvance, some (errorPost qp false w .generalErr), some call, true⟩

def wqePeer (dev : Device) (job : Job) (wqe : Wqe) : Option Peer :=
  if wqe.ah then
    match ahGet dev wqe.addrIndex with
    | none => none
    | some _ => some (.ah wqe.addrIndex)
  else if job.maxAddrEntries ≤ wqe.addrIndex ∨ !(job.addrs wqe.addrIndex).valid then none
  else some (.entry wqe.addrIndex)

def peerAv (dev : Device) (job : Job) : Peer → Bool
  | .ah handle => (ahGet dev handle).any Ah.av
  | .entry index => (job.addrs index).av

def sqChecks (dev : Device) (qp : Qp) (wqe : Wqe) : Except WcStatus (List Seg × Job × Peer) :=
  if maxSge < wqe.numSge then .error .tooLong
  else
    match segsOf dev wqe.sges with
    | .error st => .error st
    | .ok segs =>
      match wqeJob dev qp wqe with
      | none => .error .badJob
      | some job =>
        match wqePeer dev job wqe with
        | none => .error .badAddr
        | some peer => .ok (segs, job, peer)

def libOp : Opcode → LibOp
  | .rdmaWrite => .write
  | .rdmaWriteImm => .writeImm
  | .rdmaRead => .read
  | .sendImm => .sendImm
  | _ => .send

def sqFail (qp : Qp) (ctx : Ctx) (w : Work) (status : WcStatus) (call : Option LibCall) : Turn :=
  ⟨(qp.setWork ctx w).sqAdvance, if w.signaled then some (errorPost qp true w status) else none, call, true⟩

def sqRecord (qp : Qp) (wqe : Wqe) (jobId : Nat) : Work :=
  { wrId := wqe.wrId, qpn := qp.qpn, opcode := wqe.opcode, cq := qp.sendCq, jobId
    ringCons := qp.sq.cons + 1, imm := false, signaled := wqe.signaled, busy := false }

def unreadRecord (qp : Qp) : Work :=
  { Work.zero with qpn := qp.qpn, cq := qp.sendCq, ringCons := qp.sq.cons + 1, signaled := true }

/-- A turn of `uet_dev_sq_run`; `inserted` says whether the library takes an address that it
does not have yet. -/
def sqTurn (dev : Device) (qp : Qp) (wqe : Option Wqe) (inserted : Bool) (rc : LibResult) : Turn :=
  let ctx := qp.sqNext
  if qp.sq.cons = qp.sq.prod then ⟨qp, none, none, false⟩
  else
    match wqe with
    | none =>
      -- completed in error whatever the record is in use for
      sqFail qp ctx (unreadRecord qp) .generalErr none
    | some wqe =>
      if (qp.work ctx).busy then ⟨qp, none, none, false⟩
      else
        match sqChecks dev qp wqe with
        | .error st => sqFail qp ctx (sqRecord qp wqe 0) st none
        | .ok (segs, job, peer) =>
          if !peerAv dev job peer && !inserted then sqFail qp ctx (sqRecord qp wqe 0) .badAddr none
          else
            let w := sqRecord qp wqe (reportedJob dev qp job)
            let call : LibCall := ⟨libOp wqe.opcode, job.jobId, segs, some peer, ctx⟩
            match rc with
            | .accepted => ⟨(qp.setWork ctx { w with busy := true }).sqAdvance, none, some call, true⟩
            | .again => ⟨qp.setWork ctx w, none, some call, false⟩
            | .failed => sqFail qp ctx w .generalErr (some call)

/-- A turn of the receive ring: it does nothing; it passes over a request; it refuses the
segments; or it hands the request to the library, which takes it, has no room, or fails. -/
inductive RqStep (dev : Device) (qp : Qp) : Option Wqe → Turn → Prop where
  | rest (wqe : Option Wqe) : RqStep dev qp wqe ⟨qp, none, none, false⟩
  | pass (wqe : Wqe) (idle : (qp.work qp.rqNext).busy = false)
      (h : maxSge < wqe.numSge ∨ wqeJob dev qp wqe = none) :
      RqStep dev qp (some wqe) ⟨qp.rqAdvance, none, none, true⟩
  | refuse (wqe : Wqe) (job : Job) (st : WcStatus) (idle : (qp.work qp.rqNext).busy = false)
      (h : st ≠ .success) :
      RqStep dev qp (some wqe) ⟨(qp.setWork qp.rqNext (rqRecord dev qp wqe job)).rqAdvance,
        some (errorPost qp false (rqRecord dev qp wqe job) st), none, true⟩
  | hand (wqe : Wqe) (job : Job) (segs : List Seg) (idle : (qp.work qp.rqNext).busy = false)
      (hjob : wqeJob dev qp wqe = some job) (hsegs : segsOf dev wqe.sges = .ok segs) :
      RqStep dev qp (some wqe) ⟨(qp.setWork qp.rqNext { rqRecord dev qp wqe job with busy := true }).rqAdvance,
        none, some ⟨.recv, job.jobId, segs, none, qp.rqNext⟩, true⟩
  | wait (wqe : Wqe) (job : Job) (segs : List Seg) (idle : (qp.work qp.rqNext).busy = false)
      (hjob : wqeJob dev qp wqe = some job) (hsegs : segsOf dev wqe.sges = .ok segs) :
      RqStep dev qp (some wqe) ⟨qp.setWork qp.rqNext (rqRecord dev qp wqe job), none,
        some ⟨.recv, job.jobId, segs, none, qp.rqNext⟩, false⟩
  | fail (wqe : Wqe) (job : Job) (segs : List Seg) (idle : (qp.work qp.rqNext).busy = false)
      (hjob : wqeJob dev qp wqe = some job) (hsegs : segsOf dev wqe.sges = .ok segs) :
      RqStep dev qp (some wqe) ⟨(qp.setWork qp.rqNext (rqRecord dev qp wqe job)).rqAdvance,
        some (errorPost qp false (rqRecord dev qp wqe job) .generalErr),
        some ⟨.recv, job.jobId, segs, none, qp.rqNext⟩, true⟩

inductive SqStep (dev : Device) (qp : Qp) : Option Wqe → Turn → Prop where
  | rest (wqe : Option Wqe) : SqStep dev qp wqe ⟨qp, none, none, false⟩
  | unread : SqStep dev qp none (sqFail qp qp.sqNext (unreadRecord qp) .generalErr none)
  | refuse (wqe : Wqe) (st : WcStatus) (idle : (qp.work qp.sqNext).busy = false) (h : st ≠ .success) :
      SqStep dev qp (some wqe) (sqFail qp qp.sqNext (sqRecord qp wqe 0) st none)
  | hand (wqe : Wqe) (segs : List Seg) (job : Job) (peer : Peer) (idle : (qp.work qp.sqNext).busy = false)
      (h : sqChecks dev qp wqe = .ok (segs, job, peer)) :
      SqStep dev qp (some wqe)
        ⟨(qp.setWork qp.sqNext { sqRecord qp wqe (reportedJob dev qp job) with busy := true }).sqAdvance,
          none, some ⟨libOp wqe.opcode, job.jobId, segs, some peer, qp.sqNext⟩, true⟩
  | wait (wqe : Wqe) (segs : List Seg) (job : Job) (peer : Peer) (idle : (qp.work qp.sqNext).busy = false)
      (h : sqChecks dev qp wqe = .ok (segs, job, peer)) :
      SqStep dev qp (some wqe) ⟨qp.setWork qp.sqNext (sqRecord qp wqe (reportedJob dev qp job)), none,
        some ⟨libOp wqe.opcode, job.jobId, segs, some peer, qp.sqNext⟩, false⟩
  | fail (wqe : Wqe) (segs : List Seg) (job : Job) (peer : Peer) (idle : (qp.work qp.sqNext).busy = false)
      (h : sqChecks dev qp wqe = .ok (segs, job, peer)) :
      SqStep dev qp (some wqe) (sqFail qp qp.sqNext (sqRecord qp wqe (reportedJob dev qp job)) .generalErr
        (some ⟨libOp wqe.opcode, job.jobId, segs, some peer, qp.sqNext⟩))

variable {st : WcStatus} {dev : Device}

theorem segOf_error {s : Sge} (h : segOf dev s = .error st) : st ≠ .success := by
  unfold segOf at h
  split at h
  · cases h
    exact nofun
  split at h
  · cases h
    exact nofun
  split at h
  · cases h
    exact nofun
  · cases h

theorem segsOf_error {ss : List Sge} (h : segsOf dev ss = .error st) :
    st ≠ .success := by
  induction ss with
  | nil => cases h
  | cons s ss ih =>
    unfold segsOf at h
    split at h
    · rename_i hseg
      cases h
      exact segOf_error hseg
    split at h
    · rename_i hrest
      cases h
      exact ih hrest
    · cases h

theorem sqChecks_error {qp : Qp} {wqe : Wqe}
    (h : sqChecks dev qp wqe = .error st) : st ≠ .success := by
  unfold sqChecks at h
  split at h
  · cases h
    exact nofun
  split at h
  · rename_i hsegs
    cases h
    exact segsOf_error hsegs
  split at h
  · cases h
    exact nofun
  · split at h
    · cases h
      exact nofun
    · cases h

theorem rqTurn_step (dev : Device) (qp : Qp) (wqe : Option Wqe) (rc : LibResult) :
    RqStep dev qp wqe (rqTurn dev qp wqe rc) := by
  unfold rqTurn
  dsimp only
  split
  · exact .rest wqe
  split
  · exact .rest wqe
  rename_i hbusy
  have hidle := Bool.eq_false_iff.mpr hbusy
  split
  · exact .rest none
  rename_i wqe
  split
  · rename_i hmax
    exact .pass wqe hidle (.inl hmax)
  split
  · rename_i hjob
    exact .pass wqe hidle (.inr hjob)
  rename_i job hjob
  split
  · rename_i st hst
    exact .refuse wqe job st hidle (segsOf_error hst)
  rename_i segs hsegs
  cases rc with
  | accepted => exact .hand wqe job segs hidle hjob hsegs
  | again => exact .wait wqe job segs hidle hjob hsegs
  | failed => exact .fail wqe job segs hidle hjob hsegs

theorem sqTurn_step (dev : Device) (qp : Qp) (wqe : Option Wqe) (inserted : Bool) (rc : LibResult) :
    SqStep dev qp wqe (sqTurn dev qp wqe inserted rc) := by
  unfold sqTurn
  dsimp only
  split
  · exact .rest wqe
  split
  · exact .unread
  rename_i wqe
  split
  · exact .rest (some wqe)
  rename_i hbusy
  have hidle := Bool.eq_false_iff.mpr hbusy
  split
  · rename_i st hst
    exact .refuse wqe st hidle (sqChecks_error hst)
  rename_i segs job peer hok
  split
  · exact .refuse wqe .badAddr hidle nofun
  cases rc with
  | accepted => exact .hand wqe segs job peer hidle hok
  | again => exact .wait wqe segs job peer hidle hok
  | failed => exact .fail wqe segs job peer hidle hok

/-! ## What the library reports -/

/-- `struct fi_cq_data_entry` with the source that `uet_cq_read_src_id` gives. -/
structure LibEntry where
  ctx : Option Ctx
  remoteData : Bool
  len : Nat
  data : BitVec 64
  srcId : Nat

/-- `struct fi_cq_err_entry`; `canceled` stands for `FI_ECANCELED`. -/
structure LibErr where
  ctx : Option Ctx
  canceled : Bool

/-- One entry of `uet_dev_cq_drain`; `rx` says which of the two queues of the library it is. -/
def drainEntry (dev : Device) (rx : Bool) (qp : Qp) (e : LibEntry) : Qp × Option PostReq :=
  match e.ctx with
  | none =>
    if rx then
      let u : Work :=
        { Work.zero with
            qpn := qp.qpn, opcode := .recvRdmaImm, cq := qp.recvCq, jobId := qpJobId dev qp
            ringCons := qp.rq.cons, imm := true, signaled := true }
      (qp, some ⟨qp.recvCq, u, .success, e.len, e.data, e.srcId, qp.serialOf false⟩)
    else (qp, none)
  | some ctx =>
    let w := qp.work ctx
    if !w.busy then (qp, none)
    else
      let w := { w with imm := w.imm || e.remoteData }
      (qp.setWork ctx { w with busy := false },
        if w.signaled then some ⟨w.cq, w, .success, e.len, e.data, e.srcId, qp.serialOf ctx.send⟩ else none)

/-- One entry of `uet_dev_cq_drain_err`. -/
def drainErr (qp : Qp) (e : LibErr) : Qp × Option PostReq :=
  match e.ctx with
  | none => (qp, none)
  | some ctx =>
    let w := qp.work ctx
    if !w.busy then (qp, none)
    else
      (qp.setWork ctx { w with busy := false },
        some (errorPost qp ctx.send w (if e.canceled then .flushed else .generalErr)))

inductive Drained where
  | entries (es : List (LibEntry × Bool))
  | errors (es : List (LibErr × Bool))

def applyAt (dev : Device) (i : Nat) (writes : Bool) (r : Qp × Option PostReq) : Device :=
  post { dev with qps := update dev.qps i (some r.1) } writes r.2

def drainStep (i : Nat) (rx : Bool) (dev : Device) (e : LibEntry × Bool) : Device :=
  match dev.qps i with
  | none => dev
  | some qp => applyAt dev i e.2 (drainEntry dev rx qp e.1)

def drainErrStep (i : Nat) (dev : Device) (e : LibErr × Bool) : Device :=
  match dev.qps i with
  | none => dev
  | some qp => applyAt dev i e.2 (drainErr qp e.1)

/-- `uet_dev_cq_drain`. -/
def cqDrain (dev : Device) (i : Nat) (rx : Bool) : Drained → Device
  | .entries es => (es.take entsPerDrain).foldl (drainStep i rx) dev
  | .errors es => (es.take errsPerSweep).foldl (drainErrStep i) dev

def drainBoth (dev : Device) (i : Nat) (d : Drained × Drained) : Device :=
  cqDrain (cqDrain dev i false d.1) i true d.2

/-! ## The loops -/

structure TurnInput where
  wqe : Option Wqe
  inserted : Bool
  rc : LibResult
  writes : Bool

/-- `uet_dev_rq_run`. -/
def rqRun (i : Nat) : List TurnInput → Device → Device
  | [], dev => dev
  | inp :: rest, dev =>
    match dev.qps i with
    | none => dev
    | some qp =>
      let t := rqTurn dev qp inp.wqe inp.rc
      let dev' := applyAt dev i inp.writes (t.qp, t.post)
      if t.more then rqRun i rest dev' else dev'

def insertAv (dev : Device) (qp : Qp) (wqe : Wqe) : Device :=
  match jkeyFind dev (wqeJkey qp wqe) qp.pd with
  | none => dev
  | some k =>
    match jobGet dev k.jobHandle with
    | none => dev
    | some job =>
      match wqePeer dev job wqe with
      | none => dev
      | some (.ah handle) =>
        let ah := (dev.ahs (handle - 1)).map fun a => { a with av := true }
        { dev with ahs := update dev.ahs (handle - 1) ah }
      | some (.entry index) => setEntry dev (k.jobHandle - 1) job index { job.addrs index with av := true }

def withAv (dev : Device) (qp : Qp) : Option Wqe → Option LibCall → Device
  | some wqe, some _ => insertAv dev qp wqe
  | _, _ => dev

/-- `uet_dev_sq_run`. -/
def sqRun (i : Nat) : List TurnInput → Device → Device
  | [], dev => dev
  | inp :: rest, dev =>
    match dev.qps i with
    | none => dev
    | some qp =>
      let t := sqTurn dev qp inp.wqe inp.inserted inp.rc
      let dev' := applyAt (withAv dev qp inp.wqe t.call) i inp.writes (t.qp, t.post)
      if t.more then sqRun i rest dev' else dev'

/-! ## Queue pairs that end -/

def detachMrs (mrs : Table Mr) (handle : Nat) : Table Mr :=
  fun i => (mrs i).map fun m => if m.qp = handle then { m with qp := 0, enabled := false } else m

/-- The end of `uet_dev_qp_destroy`: the library closes the endpoint, or the queue pair stays
until it does. -/
def qpClose (dev : Device) (i : Nat) (closed : Bool) : Device :=
  if closed then { dev with qps := update dev.qps i none }
  else
    { dev with qps := update dev.qps i ((dev.qps i).map fun qp =>
        { qp with closing := true, sq := { qp.sq with live := false }, rq := { qp.rq with live := false } }) }

/-- `uet_dev_qp_destroy`. -/
def qpDestroy (dev : Device) (handle : Nat) (d : Drained × Drained) (closed : Bool) : Device × AdminStatus :=
  match qpGet dev handle with
  | none => (dev, .enoent)
  | some qp =>
    let dev₁ := { dev with mrs := detachMrs dev.mrs handle, cqs := unbindCqs dev.cqs qp.sendCq qp.recvCq }
    (qpClose (drainBoth dev₁ (handle - 1) d) (handle - 1) closed, .ok)

/-- `uet_dev_qp_retire`; `flushed` says that the library abandoned something. -/
def qpRetire (dev : Device) (i : Nat) (flushed : Bool) (d : Drained × Drained) (closed : Bool) : Device :=
  if flushed then drainBoth dev i d
  else if closed then { dev with qps := update dev.qps i none }
  else dev

/-- What the library answers during `uet_dev_qp_modify`; each batch that it abandons comes with
what is drained after it. -/
structure ModifyInput where
  mtu : Bool
  enabled : Bool
  reset : Bool
  batches : List (Drained × Drained)

/-- `uet_dev_qp_modify`; a state that the device does not have is `none`. -/
def qpModify (dev : Device) (handle : Nat) (next : Option QpState) (pathMtu : Nat) (inp : ModifyInput) :
    Device × AdminStatus :=
  match qpGet dev handle with
  | none => (dev, .enoent)
  | some qp =>
    let enter (dev : Device) (st : QpState) (mtu : Nat) : Device :=
      { dev with qps := update dev.qps (handle - 1) ((dev.qps (handle - 1)).map fun qp =>
          { qp with state := st, pathMtu := mtu }) }
    if qp.closing then (dev, .einval)
    else
      match next with
      | none => (dev, .einval)
      | some .rts =>
        match qp.state with
        | .rts =>
          if pathMtu ≠ 0 ∧ pathMtu ≠ qp.pathMtu then (dev, .einval) else (enter dev .rts qp.pathMtu, .ok)
        | .err => (dev, .einval)
        | .reset =>
          if pathMtu ≠ 0 ∧ !inp.mtu then (dev, .einval)
          else
            let mtu := if pathMtu ≠ 0 then pathMtu else qp.pathMtu
            if !inp.enabled then (enter dev .reset mtu, .einval) else (enter dev .rts mtu, .ok)
      | some .err =>
        if qp.state = .err then (enter dev .err qp.pathMtu, .ok)
        else (enter (inp.batches.foldl (fun dev d => drainBoth dev (handle - 1) d) dev) .err qp.pathMtu, .ok)
      | some .reset =>
        match qp.state with
        | .reset => (enter dev .reset qp.pathMtu, .ok)
        | .rts => (dev, .einval)
        | .err => if !inp.reset then (dev, .einval) else (enter dev .reset qp.pathMtu, .ok)

/-! ## Doorbells -/

def ringDoorbell (dev : Device) (page handle : Nat) (send : Bool) (prod : BitVec 32) : Device :=
  match qpGet dev handle with
  | none => dev
  | some qp =>
    if qp.dbPage ≠ page then dev
    else
      let qp' := if send then { qp with sq := { qp.sq with prod } } else { qp with rq := { qp.rq with prod } }
      { dev with qps := update dev.qps (handle - 1) (some qp') }

def cqDoorbell (dev : Device) (page handle : Nat) (cons : BitVec 32) (arm : Bool) : Device :=
  match cqGet dev handle with
  | none => dev
  | some cq =>
    if cq.dbPage ≠ page then dev
    else
      let cq' := { cq with ring := { cq.ring with cons }, armed := cq.armed || arm }
      { dev with cqs := update dev.cqs (handle - 1) (some cq') }

/-! ## Histories -/

/-- What happens to the device: a command of the admin queue, a doorbell, or a step of the progress
thread. -/
inductive DevEv where
  | jobAlloc (jobId maxAddrs : Nat) (memory : Bool)
  | jobFree (handle : Nat) (removed : Nat → Bool)
  | jobRetire (i : Nat) (removed : Nat → Bool)
  | jkeyCreate (jobHandle pdn : Nat)
  | jkeyDestroy (handle : Nat)
  | addrInsert (jobHandle index : Nat) (addr : AdminAddr)
  | addrRemove (jobHandle index : Nat) (removed : Bool)
  | addrRetire (i index : Nat) (removed : Bool)
  | ahCreate (pd : Nat) (addr : AdminAddr)
  | ahDestroy (handle : Nat)
  | mrReg (args : MrRegArgs) (lib : Option MrLib)
  | mrDereg (handle : Nat) (disabled closed : Bool)
  | mrAttach (mrHandle qpHandle : Nat) (disabled bound : Bool)
  | mrDetach (mrHandle : Nat) (disabled : Bool)
  | cqCreate (args : CqCreateArgs)
  | cqDestroy (handle : Nat)
  | qpCreate (args : QpCreateArgs) (library memory : Bool)
  | qpDestroy (handle : Nat) (d : Drained × Drained) (closed : Bool)
  | qpModify (handle : Nat) (next : Option QpState) (pathMtu : Nat) (inp : ModifyInput)
  | ringDoorbell (page handle : Nat) (send : Bool) (prod : BitVec 32)
  | cqDoorbell (page handle : Nat) (cons : BitVec 32) (arm : Bool)
  | recv (i : Nat) (inputs : List TurnInput)
  | progress (i : Nat) (inputs : List TurnInput) (d : Drained × Drained) (flushed closed : Bool)

/-- The receive loop of `uet_dev_datapath_poll`, for one queue pair. -/
def pollRecv (dev : Device) (i : Nat) (inputs : List TurnInput) : Device :=
  match dev.qps i with
  | none => dev
  | some qp => if !qp.closing && qp.state == .rts && qp.rq.live then rqRun i inputs dev else dev

/-- The second loop, for one queue pair: it is retired, or its sends are run and completions
drained. -/
def pollProgress (dev : Device) (i : Nat) (inputs : List TurnInput) (d : Drained × Drained)
    (flushed closed : Bool) : Device :=
  match dev.qps i with
  | none => dev
  | some qp =>
    if qp.closing then qpRetire dev i flushed d closed
    else if qp.state = .rts then drainBoth (if qp.sq.live then sqRun i inputs dev else dev) i d
    else dev

def Device.step (dev : Device) : DevEv → Device
  | .jobAlloc jobId maxAddrs memory => (jobAlloc dev jobId maxAddrs memory).1
  | .jobFree handle removed => (jobFree dev handle removed).1
  | .jobRetire i removed => jobRetire dev i removed
  | .jkeyCreate jobHandle pdn => (jkeyCreate dev jobHandle pdn).1
  | .jkeyDestroy handle => (jkeyDestroy dev handle).1
  | .addrInsert jobHandle index addr => (addrInsert dev jobHandle index addr).1
  | .addrRemove jobHandle index removed => (addrRemove dev jobHandle index removed).1
  | .addrRetire i index removed => addrRetire dev i index removed
  | .ahCreate pd addr => (ahCreate dev pd addr).1
  | .ahDestroy handle => (ahDestroy dev handle).1
  | .mrReg args lib => (mrReg dev args lib).1
  | .mrDereg handle disabled closed => (mrDereg dev handle disabled closed).1
  | .mrAttach mrHandle qpHandle disabled bound => (mrAttach dev mrHandle qpHandle disabled bound).1
  | .mrDetach mrHandle disabled => (mrDetach dev mrHandle disabled).1
  | .cqCreate args => (cqCreate dev args).1
  | .cqDestroy handle => (cqDestroy dev handle).1
  | .qpCreate args library memory => (qpCreate dev args library memory).1
  | .qpDestroy handle d closed => (qpDestroy dev handle d closed).1
  | .qpModify handle next pathMtu inp => (qpModify dev handle next pathMtu inp).1
  | .ringDoorbell page handle send prod => ringDoorbell dev page handle send prod
  | .cqDoorbell page handle cons arm => cqDoorbell dev page handle cons arm
  | .recv i inputs => pollRecv dev i inputs
  | .progress i inputs d flushed closed => pollProgress dev i inputs d flushed closed

end Uet.Dev
