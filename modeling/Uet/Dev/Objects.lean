import Uet.HandleTable

/-!
# The objects of the device

What a guest creates and destroys through the admin queue of the reference device: jobs and job
keys, address handles, memory regions, completion queues and queue pairs. What the provider library answers
comes from outside. `serial` numbers the objects in the order of their creation; the device has no
such numbers, they tell an object from a later one under the same handle.
-/

namespace Uet.Dev

open HandleTable Function

/-- `UET_DEV_MAX_JOB_IDS`. -/
def maxJobIds : Nat := 256
/-- `UET_DEV_MAX_JOB_KEYS`. -/
def maxJobKeys : Nat := 256
/-- `UET_DEV_MAX_ADDR_ENTRIES`. -/
def maxAddrEntries : Nat := 4096
/-- `UET_DEV_DEF_ADDR_ENTRIES`. -/
def defAddrEntries : Nat := 16
/-- `UET_DEV_MAX_MRS`. -/
def maxMrs : Nat := 1024
/-- `UET_DEV_MAX_QPS`. -/
def maxQps : Nat := 256
/-- `UET_DEV_MAX_CQS`. -/
def maxCqs : Nat := 256
/-- `UET_DEV_MAX_AHS`. -/
def maxAhs : Nat := 256
/-- `UET_DEV_CQ_MAX_ENTRIES`. -/
def cqMaxEntries : Nat := 4096
/-- `UET_DEV_RING_MAX_ENTRIES`. -/
def ringMaxEntries : Nat := 1024
/-- `UET_DEV_MAX_DB_PAGES`. -/
def maxDbPages : Nat := 64
/-- `UET_DEV_NUM_VECTORS`. -/
def numVectors : Nat := 4

/-- `UET_DEV_ADMIN_ST_*`. -/
inductive AdminStatus where
  | ok | einval | enospc | eexist | enoent | ebusy
  deriving DecidableEq

/-- `struct uet_dev_admin_addr`, as far as an address is built from it. -/
structure AdminAddr where
  dgid : BitVec 128
  remoteQpn : BitVec 32
  flowLabel : BitVec 32
  deriving DecidableEq

/-- `struct uet_dev_addr_entry`; `av` says that the library has the address. -/
structure AddrEntry where
  addr : AdminAddr
  valid : Bool
  av : Bool
  retiring : Bool
  deriving DecidableEq

def AddrEntry.zero : AddrEntry := ⟨⟨0, 0, 0⟩, false, false, false⟩

/-- `struct uet_dev_job`. -/
structure Job where
  serial : Nat
  jobId : Nat
  maxAddrEntries : Nat
  addrs : Nat → AddrEntry
  retiring : Bool

/-- `struct uet_dev_jkey`; `jobSerial` is the job that the key was created for. -/
structure Jkey where
  jobHandle : Nat
  pdn : Nat
  jobSerial : Nat
  deriving DecidableEq

/-- `struct uet_dev_ah`. -/
structure Ah where
  pd : Nat
  addr : AdminAddr
  av : Bool
  deriving DecidableEq

/-- `UET_DEV_MR_CLASS_*`. -/
inductive MrClass where
  | unrestricted | riRestricted | jobRestricted | riJobRestricted
  deriving DecidableEq

/-- The rights that the library holds for a region, from `UET_DEV_MR_ACCESS_*`. -/
structure MrAccess where
  localRead : Bool
  localWrite : Bool
  deriving DecidableEq

/-- `struct uet_dev_mr`; the device does not keep `access`, only the library does. -/
structure Mr where
  mr : Nat
  key : Nat
  pd : Nat
  qp : Nat
  accessClass : MrClass
  jobId : Nat
  baseVa : Nat
  len : Nat
  enabled : Bool
  access : MrAccess
  deriving DecidableEq

/-- `struct uet_dev_ring_desc`, as far as it decides what happens. -/
structure RingDesc where
  pblRoot : Nat
  pageSize : Nat
  entries : Nat
  deriving DecidableEq

/-- `struct uet_dev_ring`. -/
structure Ring where
  desc : RingDesc
  cons : BitVec 32
  prod : BitVec 32
  live : Bool
  deriving DecidableEq

/-- `struct uet_dev_cq`. -/
structure Cq where
  serial : Nat
  entries : Nat
  boundQps : Nat
  dbPage : Nat
  vector : Nat
  ring : Ring
  phase : Bool
  armed : Bool
  deriving DecidableEq

/-- `UET_DEV_WR_*`; another number is taken as a send. -/
inductive Opcode where
  | send | sendImm | recv | rdmaWrite | rdmaWriteImm | rdmaRead | recvRdmaImm
  | other (n : Nat)
  deriving DecidableEq

/-- `struct uet_dev_work`. -/
structure Work where
  wrId : BitVec 64
  qpn : BitVec 32
  opcode : Opcode
  cq : Nat
  jobId : Nat
  ringCons : BitVec 32
  imm : Bool
  signaled : Bool
  busy : Bool
  deriving DecidableEq

/-- A record after `memset`. -/
def Work.zero : Work := ⟨0, 0, .send, 0, 0, 0, false, false, false⟩

/-- `UET_DEV_QPS_*`. -/
inductive QpState where
  | reset | rts | err
  deriving DecidableEq

/-- `struct uet_dev_qp`; the serial numbers are those of the completion queues it was created
with. -/
structure Qp where
  qpn : BitVec 32
  state : QpState
  pathMtu : Nat
  pd : Nat
  sendCq : Nat
  recvCq : Nat
  jkeyHandle : Nat
  dbPage : Nat
  closing : Bool
  sq : Ring
  rq : Ring
  sqWork : Nat → Work
  rqWork : Nat → Work
  sendSerial : Nat
  recvSerial : Nat

/-- An entry that was written to a completion queue: the serial number of that queue, and that of
the queue it was meant for. -/
structure Posted where
  target : Nat
  meant : Nat
  deriving DecidableEq

/-- The object tables of `struct uet_dev`, and what has been written to completion queues. -/
structure Device where
  jobs : Table Job
  jkeys : Table Jkey
  ahs : Table Ah
  mrs : Table Mr
  cqs : Table Cq
  qps : Table Qp
  serial : Nat
  posted : List Posted

def Device.init : Device :=
  { jobs := fun _ => none, jkeys := fun _ => none, ahs := fun _ => none, mrs := fun _ => none
    cqs := fun _ => none, qps := fun _ => none, serial := 0, posted := [] }

section

variable (dev : Device)

/-- `uet_dev_job_get`. -/
def jobGet (handle : Nat) : Option Job := get maxJobIds dev.jobs handle

/-- `uet_dev_ah_get`. -/
def ahGet (handle : Nat) : Option Ah := get maxAhs dev.ahs handle

/-- `uet_dev_cq_get`. -/
def cqGet (handle : Nat) : Option Cq := get maxCqs dev.cqs handle

/-- `uet_dev_qp_get`. -/
def qpGet (handle : Nat) : Option Qp := get maxQps dev.qps handle

/-- `uet_dev_mr_get`. -/
def mrGet (handle : Nat) : Option Mr := get maxMrs dev.mrs handle

/-- `uet_dev_jkey_value`. -/
def jkeyValue (handle : Nat) : Nat := 0x4a000000 ||| handle

def jkeyFind (jkey pdn : Nat) : Option Jkey :=
  match (List.range maxJobKeys).find? fun i =>
    (dev.jkeys i).any fun k => jkeyValue (i + 1) == jkey && k.pdn == pdn with
  | none => none
  | some i => dev.jkeys i

/-- `uet_dev_job_by_jkey`. -/
def jobByJkey (jkey pdn : Nat) : Option Job :=
  match jkeyFind dev jkey pdn with
  | none => none
  | some k => jobGet dev k.jobHandle

/-- `uet_dev_mr_by_key`: by the key or by the handle. -/
def mrByKey (key : Nat) : Option Mr :=
  if key = 0 then none
  else
    match (List.range maxMrs).find? fun i =>
      (dev.mrs i).any fun m => m.key == key || i + 1 == key with
    | none => none
    | some i => dev.mrs i

/-- `uet_dev_qp_job_id`. -/
def qpJobId (qp : Qp) : Nat :=
  if qp.jkeyHandle = 0 then 0
  else
    match jobByJkey dev (jkeyValue qp.jkeyHandle) qp.pd with
    | none => 0
    | some job => job.jobId

end

/-! ## Admin commands -/

section

variable (dev : Device)

/-- `uet_dev_job_alloc`; `memory` says whether there is some for the table. -/
def jobAlloc (jobId maxAddrs : Nat) (memory : Bool) : Device × AdminStatus :=
  if maxAddrEntries < maxAddrs then (dev, .einval)
  else if (List.range maxJobIds).any fun i => (dev.jobs i).any fun j => j.jobId == jobId then (dev, .eexist)
  else
    match firstFree maxJobIds dev.jobs with
    | none => (dev, .enospc)
    | some i =>
      if !memory then (dev, .enospc)
      else
        let job : Job :=
          { serial := dev.serial, jobId, maxAddrEntries := if maxAddrs = 0 then defAddrEntries else maxAddrs
            addrs := fun _ => .zero, retiring := false }
        ({ dev with jobs := update dev.jobs i (some job), serial := dev.serial + 1 }, .ok)

/-- One entry of `uet_dev_job_addrs_release`. -/
def releaseEntry (removed : Bool) (e : AddrEntry) : AddrEntry :=
  if !e.av then e
  else if removed then { e with av := false, valid := false, retiring := false }
  else { e with valid := false, retiring := true }

/-- `uet_dev_job_addrs_release`, with what the library says for each entry; whether the
table is clear. -/
def jobAddrsRelease (job : Job) (removed : Nat → Bool) : Job × Bool :=
  ({ job with addrs := fun i => if i < job.maxAddrEntries then releaseEntry (removed i) (job.addrs i) else job.addrs i },
    (List.range job.maxAddrEntries).all fun i => !(job.addrs i).av || removed i)

def dropJkeys (jkeys : Table Jkey) (handle : Nat) : Table Jkey :=
  fun i => (jkeys i).filter fun k => k.jobHandle != handle

/-- `uet_dev_job_free`. -/
def jobFree (handle : Nat) (removed : Nat → Bool) : Device × AdminStatus :=
  match jobGet dev handle with
  | none => (dev, .enoent)
  | some job =>
    let r := jobAddrsRelease job removed
    let left := if r.2 then none else some { r.1 with retiring := true }
    ({ dev with jkeys := dropJkeys dev.jkeys handle, jobs := update dev.jobs (handle - 1) left }, .ok)

/-- The first loop of `uet_dev_retire_poll`, for one job. -/
def jobRetire (i : Nat) (removed : Nat → Bool) : Device :=
  match dev.jobs i with
  | none => dev
  | some job =>
    if !job.retiring then dev
    else
      let r := jobAddrsRelease job removed
      { dev with jobs := update dev.jobs i (if r.2 then none else some r.1) }

/-- `uet_dev_jkey_create`. -/
def jkeyCreate (jobHandle pdn : Nat) : Device × AdminStatus :=
  match jobGet dev jobHandle with
  | none => (dev, .enoent)
  | some job =>
    match firstFree maxJobKeys dev.jkeys with
    | none => (dev, .enospc)
    | some i =>
      ({ dev with jkeys := update dev.jkeys i (some ⟨jobHandle, pdn, job.serial⟩) }, .ok)

/-- `uet_dev_jkey_destroy`. -/
def jkeyDestroy (handle : Nat) : Device × AdminStatus :=
  match get maxJobKeys dev.jkeys handle with
  | none => (dev, .enoent)
  | some _ => ({ dev with jkeys := update dev.jkeys (handle - 1) none }, .ok)

def setEntry (i : Nat) (job : Job) (index : Nat) (e : AddrEntry) : Device :=
  { dev with jobs := update dev.jobs i (some { job with addrs := update job.addrs index e }) }

/-- `UET_DEV_ADMIN_ADDR_INSERT`. -/
def addrInsert (jobHandle index : Nat) (addr : AdminAddr) : Device × AdminStatus :=
  match jobGet dev jobHandle with
  | none => (dev, .enoent)
  | some job =>
    if job.maxAddrEntries ≤ index then (dev, .enoent)
    else (setEntry dev (jobHandle - 1) job index { job.addrs index with addr, valid := true, av := false }, .ok)

/-- `UET_DEV_ADMIN_ADDR_REMOVE`. -/
def addrRemove (jobHandle index : Nat) (removed : Bool) : Device × AdminStatus :=
  match jobGet dev jobHandle with
  | none => (dev, .enoent)
  | some job =>
    let e := job.addrs index
    if job.maxAddrEntries ≤ index ∨ !e.valid then (dev, .enoent)
    else if e.av && !removed then
      (setEntry dev (jobHandle - 1) job index { e with valid := false, retiring := true }, .ok)
    else (setEntry dev (jobHandle - 1) job index .zero, .ok)

/-- The second loop of `uet_dev_retire_poll`, for one entry. -/
def addrRetire (i index : Nat) (removed : Bool) : Device :=
  match dev.jobs i with
  | none => dev
  | some job =>
    let e := job.addrs index
    if job.retiring || decide (job.maxAddrEntries ≤ index) || !e.retiring || !e.av || !removed then dev
    else setEntry dev i job index .zero

/-- `uet_dev_ah_create`. -/
def ahCreate (pd : Nat) (addr : AdminAddr) : Device × AdminStatus :=
  match firstFree maxAhs dev.ahs with
  | none => (dev, .enospc)
  | some i => ({ dev with ahs := update dev.ahs i (some ⟨pd, addr, false⟩) }, .ok)

/-- `uet_dev_ah_destroy`. -/
def ahDestroy (handle : Nat) : Device × AdminStatus :=
  match ahGet dev handle with
  | none => (dev, .enoent)
  | some _ => ({ dev with ahs := update dev.ahs (handle - 1) none }, .ok)

/-- `struct uet_dev_admin_mr_reg` with the parameters of the command; a class or level that
the ABI does not have is `none`. -/
structure MrRegArgs where
  level : Option Nat
  accessClass : Option MrClass
  access : MrAccess
  pd : Nat
  jkeyHandle : Nat
  jkey : Nat
  baseVa : Nat
  len : Nat

def MrClass.ofJob : MrClass → Bool
  | .jobRestricted | .riJobRestricted => true
  | _ => false

def MrClass.ofRi : MrClass → Bool
  | .riRestricted | .riJobRestricted => true
  | _ => false

def mrJob (args : MrRegArgs) : Except AdminStatus Nat :=
  let handle :=
    if args.jkeyHandle = 0 ∧ args.jkey ≠ 0 then
      match (List.range maxJobKeys).find? fun k =>
        (dev.jkeys k).isSome && jkeyValue (k + 1) == args.jkey with
      | none => 0
      | some k => k + 1
    else args.jkeyHandle
  match get maxJobKeys dev.jkeys handle with
  | none => .error .einval
  | some k =>
    if k.pdn ≠ args.pd then .error .einval
    else
      match jobGet dev k.jobHandle with
      | none => .error .enoent
      | some job => .ok job.jobId

/-- What the library makes of a registration: its region with the key, and whether the region
could be enabled. -/
structure MrLib where
  mr : Nat
  key : Nat
  enabled : Bool

/-- `uet_dev_mr_reg`; `lib` is `none` where the library refuses the region. -/
def mrReg (args : MrRegArgs) (lib : Option MrLib) : Device × AdminStatus :=
  match args.level with
  | none => (dev, .einval)
  | some _ =>
    match firstFree maxMrs dev.mrs with
    | none => (dev, .enospc)
    | some i =>
      match args.accessClass with
      | none => (dev, .einval)
      | some cls =>
        match if cls.ofJob then mrJob dev args else .ok 0 with
        | .error st => (dev, st)
        | .ok jobId =>
          match lib with
          | none => (dev, .einval)
          | some l =>
            if !cls.ofRi && !l.enabled then (dev, .einval)
            else
              let m : Mr :=
                { mr := l.mr, key := l.key, pd := args.pd, qp := 0, accessClass := cls, jobId
                  baseVa := args.baseVa, len := args.len, enabled := !cls.ofRi, access := args.access }
              ({ dev with mrs := update dev.mrs i (some m) }, .ok)

/-- `uet_dev_mr_dereg`, with what the library says to a disable and to the close. -/
def mrDereg (handle : Nat) (disabled closed : Bool) : Device × AdminStatus :=
  match mrGet dev handle with
  | none => (dev, .enoent)
  | some m =>
    if m.enabled && !disabled then (dev, .einval)
    else if !closed then
      let m' := if m.enabled then { m with enabled := false, qp := 0 } else m
      ({ dev with mrs := update dev.mrs (handle - 1) (some m') }, .einval)
    else ({ dev with mrs := update dev.mrs (handle - 1) none }, .ok)

def MrClass.narrow : MrClass → MrClass
  | .jobRestricted => .riJobRestricted
  | .unrestricted => .riRestricted
  | c => c

/-- `uet_dev_mr_attach`. -/
def mrAttach (mrHandle qpHandle : Nat) (disabled bound : Bool) : Device × AdminStatus :=
  match mrGet dev mrHandle, qpGet dev qpHandle with
  | some m, some qp =>
    if m.qp ≠ 0 then (dev, .eexist)
    else if m.pd ≠ qp.pd then (dev, .einval)
    else if m.enabled && !disabled then (dev, .ebusy)
    else if !bound then
      ({ dev with mrs := update dev.mrs (mrHandle - 1) (some { m with enabled := false }) }, .einval)
    else
      let m' := { m with accessClass := m.accessClass.narrow, qp := qpHandle, enabled := true }
      ({ dev with mrs := update dev.mrs (mrHandle - 1) (some m') }, .ok)
  | _, _ => (dev, .enoent)

/-- `uet_dev_mr_detach`. -/
def mrDetach (mrHandle : Nat) (disabled : Bool) : Device × AdminStatus :=
  match mrGet dev mrHandle with
  | none => (dev, .enoent)
  | some m =>
    if m.qp = 0 then (dev, .einval)
    else if !disabled then (dev, .einval)
    else ({ dev with mrs := update dev.mrs (mrHandle - 1) (some { m with qp := 0, enabled := false }) }, .ok)

def powerOfTwo (entries : Nat) : Bool := entries &&& (entries - 1) == 0

/-- `struct uet_dev_admin_cq_create`. -/
structure CqCreateArgs where
  ring : RingDesc
  dbPage : Nat
  vector : Nat

/-- `uet_dev_cq_create`. -/
def cqCreate (args : CqCreateArgs) : Device × AdminStatus :=
  let entries := args.ring.entries
  if entries = 0 ∨ cqMaxEntries < entries then (dev, .einval)
  else if !powerOfTwo entries then (dev, .einval)
  else if maxDbPages ≤ args.dbPage then (dev, .einval)
  else if numVectors ≤ args.vector then (dev, .einval)
  else
    match firstFree maxCqs dev.cqs with
    | none => (dev, .enospc)
    | some i =>
      let cq : Cq :=
        { serial := dev.serial, entries, boundQps := 0, dbPage := args.dbPage, vector := args.vector
          ring := ⟨args.ring, 0, 0, args.ring.pblRoot != 0⟩, phase := true, armed := false }
      ({ dev with cqs := update dev.cqs i (some cq), serial := dev.serial + 1 }, .ok)

/-- `uet_dev_cq_destroy`. -/
def cqDestroy (handle : Nat) : Device × AdminStatus :=
  match cqGet dev handle with
  | none => (dev, .enoent)
  | some cq =>
    if cq.boundQps ≠ 0 then (dev, .einval)
    else ({ dev with cqs := update dev.cqs (handle - 1) none }, .ok)

/-- `struct uet_dev_admin_qp_create`. -/
structure QpCreateArgs where
  qpn : BitVec 32
  pd : Nat
  sendCq : Nat
  recvCq : Nat
  jkeyHandle : Nat
  dbPage : Nat
  pathMtu : Nat
  sq : RingDesc
  rq : RingDesc

/-- `UET_DEV_QPN_ABSOLUTE`. -/
def qpnAbsolute (qpn : BitVec 32) : Bool := qpn.msb

def ringOk (rd : RingDesc) : Bool :=
  rd.entries == 0 || (decide (rd.entries ≤ ringMaxEntries) && powerOfTwo rd.entries && rd.pageSize != 0)

def bindCq (cqs : Table Cq) (handle : Nat) : Table Cq :=
  update cqs (handle - 1) ((cqs (handle - 1)).map fun cq => { cq with boundQps := cq.boundQps + 1 })

def unbindCq (cqs : Table Cq) (handle : Nat) : Table Cq :=
  match get maxCqs cqs handle with
  | none => cqs
  | some cq => update cqs (handle - 1) (some { cq with boundQps := cq.boundQps - 1 })

def bindCqs (cqs : Table Cq) (sendCq recvCq : Nat) : Table Cq :=
  let cqs := bindCq cqs sendCq
  if recvCq = sendCq then cqs else bindCq cqs recvCq

def unbindCqs (cqs : Table Cq) (sendCq recvCq : Nat) : Table Cq :=
  let cqs := unbindCq cqs sendCq
  if recvCq = sendCq then cqs else unbindCq cqs recvCq

/-- `uet_dev_qp_create`; `library` says whether the library makes the endpoint and binds its
queues, `memory` whether there is some for the records. -/
def qpCreate (args : QpCreateArgs) (library memory : Bool) : Device × AdminStatus :=
  match cqGet dev args.sendCq, cqGet dev args.recvCq with
  | some scq, some rcq =>
    if !qpnAbsolute args.qpn && (get maxJobKeys dev.jkeys args.jkeyHandle).isNone then (dev, .einval)
    else if (List.range maxQps).any fun i =>
        (dev.qps i).any fun q => q.closing && q.qpn == args.qpn then (dev, .ebusy)
    else
      match firstFree maxQps dev.qps with
      | none => (dev, .enospc)
      | some i =>
        if !library || !ringOk args.sq || !ringOk args.rq || decide (maxDbPages ≤ args.dbPage) || !memory then
          (dev, .einval)
        else
          let qp : Qp :=
            { qpn := args.qpn, state := .reset, pathMtu := args.pathMtu, pd := args.pd
              sendCq := args.sendCq, recvCq := args.recvCq, jkeyHandle := args.jkeyHandle
              dbPage := args.dbPage, closing := false
              sq := ⟨args.sq, 0, 0, args.sq.entries != 0⟩, rq := ⟨args.rq, 0, 0, args.rq.entries != 0⟩
              sqWork := fun _ => .zero, rqWork := fun _ => .zero
              sendSerial := scq.serial, recvSerial := rcq.serial }
          ({ dev with qps := update dev.qps i (some qp)
                      cqs := bindCqs dev.cqs args.sendCq args.recvCq }, .ok)
  | _, _ => (dev, .enoent)

end

end Uet.Dev
