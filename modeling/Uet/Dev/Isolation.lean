import Uet.Dev.CqBinding

/-!
# Protection domains

What a work request of a queue pair can get the device to hand to the library. The lookup of a job key
asks for the domain of the queue pair. The lookups of regions and of address handles do not, a
segment's key is compared with keys and handles alike, and the rights of a region are not looked
at. So a queue pair is confined to its domain as long as what its requests name is its own
(`Honest`).
-/

namespace Uet.Dev

open HandleTable Guarded Function Option

/-! ## What is handed to the library -/

def LibOp.permitted (op : LibOp) (access : MrAccess) : Bool :=
  match op with
  | .recv | .read => access.localWrite
  | .send | .sendImm | .write | .writeImm => access.localRead

def Names (dev : Device) (key i : Nat) (m : Mr) : Prop :=
  i < maxMrs ∧ dev.mrs i = some m ∧ (m.key = key ∨ i + 1 = key)

/-- A segment as the library gets it, for one of a work request: it lies in a region of the domain that
is enabled, permits the access, and is the only one that the key names. -/
structure SegAllowed (dev : Device) (pd : Nat) (op : LibOp) (s : Sge) (seg : Seg) : Prop where
  region : ∃ i m, Names dev s.key i m ∧ m.pd = pd ∧ m.enabled = true ∧ op.permitted m.access = true ∧
    (∀ j m', Names dev s.key j m' → j = i) ∧
    seg.mr = m.mr ∧ seg.len = s.len ∧ m.baseVa + seg.addr = s.addr ∧ seg.addr + seg.len ≤ m.len

structure Allowed (dev : Device) (qp : Qp) (wqe : Wqe) (call : LibCall) : Prop where
  segs : List.Forall₂ (SegAllowed dev qp.pd call.op) wqe.sges call.segs
  ah : ∀ handle, call.peer = some (.ah handle) → ∃ a, ahGet dev handle = some a ∧ a.pd = qp.pd
  job : ∃ i k job, dev.jkeys i = some k ∧ jkeyValue (i + 1) = wqeJkey qp wqe ∧ k.pdn = qp.pd ∧
    jobGet dev k.jobHandle = some job ∧ job.serial = k.jobSerial ∧ call.jobId = job.jobId

/-- What a work request names is its own: the regions that its keys name, each key only one of
them, with the access it needs, and its address handle. -/
structure Honest (dev : Device) (qp : Qp) (op : LibOp) (wqe : Wqe) : Prop where
  mr : ∀ s ∈ wqe.sges, ∀ i m, Names dev s.key i m → m.pd = qp.pd ∧ op.permitted m.access = true ∧
    ∀ j m', Names dev s.key j m' → j = i
  ah : wqe.ah = true → ∀ a, ahGet dev wqe.addrIndex = some a → a.pd = qp.pd

def Refuses (t : Turn) : Prop := t.call = none → ∃ p, t.post = some p ∧ p.status ≠ .success

section

variable {dev : Device} {qp : Qp} {wqe : Wqe}

theorem mrByKey_names {key : Nat} {m : Mr} (h : mrByKey dev key = some m) : ∃ i, Names dev key i m := by
  unfold mrByKey at h
  split at h
  · cases h
  split at h
  · cases h
  rename_i i hfind
  have htest := List.find?_some hfind
  rw [h, any_some, Bool.or_eq_true, beq_iff_eq, beq_iff_eq] at htest
  exact ⟨i, List.mem_range.mp (List.mem_of_find?_eq_some hfind), h, htest⟩

theorem mrOffset_some {m : Mr} {addr len offset : Nat} (h : mrOffset m addr len = some offset) :
    m.baseVa + offset = addr ∧ offset + len ≤ m.len := by
  unfold mrOffset at h
  split at h
  · cases h
  split at h
  · cases h
  · cases h
    omega

theorem segOf_allowed {op : LibOp} {s : Sge} {seg : Seg} (hh : ∀ i m, Names dev s.key i m →
    m.pd = qp.pd ∧ op.permitted m.access = true ∧ ∀ j m', Names dev s.key j m' → j = i)
    (h : segOf dev s = .ok seg) : SegAllowed dev qp.pd op s seg := by
  unfold segOf at h
  split at h
  · cases h
  rename_i m hm
  split at h
  · cases h
  rename_i hen
  split at h
  · cases h
  rename_i offset hoff
  cases h
  obtain ⟨i, hname⟩ := mrByKey_names hm
  obtain ⟨hpd, hacc, huniq⟩ := hh i m hname
  obtain ⟨haddr, hlen⟩ := mrOffset_some hoff
  rw [Bool.not_eq_true, Bool.not_eq_false'] at hen
  exact ⟨i, m, hname, hpd, hen, hacc, huniq, rfl, rfl, haddr, hlen⟩

theorem segsOf_allowed {op : LibOp} {ss : List Sge} {segs : List Seg} (hh : ∀ s ∈ ss, ∀ i m, Names dev s.key i m →
    m.pd = qp.pd ∧ op.permitted m.access = true ∧ ∀ j m', Names dev s.key j m' → j = i)
    (h : segsOf dev ss = .ok segs) : List.Forall₂ (SegAllowed dev qp.pd op) ss segs := by
  induction ss generalizing segs with
  | nil =>
    cases h
    exact .nil
  | cons s ss ih =>
    unfold segsOf at h
    split at h
    · cases h
    rename_i seg hseg
    split at h
    · cases h
    rename_i rest hrest
    cases h
    exact .cons (segOf_allowed (hh s List.mem_cons_self) hseg)
      (ih (fun s' hs' => hh s' (List.mem_cons_of_mem _ hs')) hrest)

variable {job : Job} {t : Turn}

theorem wqeJob_key (h : wqeJob dev qp wqe = some job) : ∃ i k, dev.jkeys i = some k ∧
    jkeyValue (i + 1) = wqeJkey qp wqe ∧ k.pdn = qp.pd ∧ jobGet dev k.jobHandle = some job := by
  unfold wqeJob jobByJkey at h
  split at h
  · cases h
  rename_i k hk
  unfold jkeyFind at hk
  split at hk
  · cases hk
  rename_i i hfind
  have htest := List.find?_some hfind
  rw [hk, any_some, Bool.and_eq_true, beq_iff_eq, beq_iff_eq] at htest
  exact ⟨i, k, hk, htest.1, htest.2, h⟩

def KeysOk (dev : Device) : Prop := ∀ i k, dev.jkeys i = some k →
  ∃ job, jobGet dev k.jobHandle = some job ∧ job.serial = k.jobSerial ∧ job.retiring = false

theorem wqeJob_allowed (hkeys : KeysOk dev) (h : wqeJob dev qp wqe = some job) :
    ∃ i k job', dev.jkeys i = some k ∧ jkeyValue (i + 1) = wqeJkey qp wqe ∧ k.pdn = qp.pd ∧
      jobGet dev k.jobHandle = some job' ∧ job'.serial = k.jobSerial ∧ job.jobId = job'.jobId := by
  obtain ⟨i, k, hk, hval, hpd, hjob⟩ := wqeJob_key h
  obtain ⟨job', hjob', hserial, -⟩ := hkeys i k hk
  rw [hjob] at hjob'
  cases hjob'
  exact ⟨i, k, job, hk, hval, hpd, hjob, hserial, rfl⟩

theorem rqStep_allowed (hkeys : KeysOk dev) (hh : Honest dev qp .recv wqe) (ht : RqStep dev qp (some wqe) t)
    {call : LibCall} (hcall : t.call = some call) : Allowed dev qp wqe call := by
  have hall : ∀ job segs, wqeJob dev qp wqe = some job → segsOf dev wqe.sges = .ok segs →
      Allowed dev qp wqe ⟨.recv, job.jobId, segs, none, qp.rqNext⟩ :=
    fun job segs hjob hsegs => ⟨segsOf_allowed hh.mr hsegs, nofun, wqeJob_allowed hkeys hjob⟩
  cases ht with
  | rest | pass | refuse => cases hcall
  | hand _ job segs _ hjob hsegs =>
    cases hcall
    exact hall job segs hjob hsegs
  | wait _ job segs _ hjob hsegs =>
    cases hcall
    exact hall job segs hjob hsegs
  | fail _ job segs _ hjob hsegs =>
    cases hcall
    exact hall job segs hjob hsegs

theorem rqStep_refuses (ht : RqStep dev qp (some wqe) t) (hsge : wqe.numSge ≤ maxSge)
    (hjob : (wqeJob dev qp wqe).isSome) (hmoved : t.qp.rq.cons ≠ qp.rq.cons) : Refuses t := by
  cases ht with
  | rest => exact absurd rfl hmoved
  | pass _ _ h =>
    rcases h with h | h
    · exact absurd h hsge.not_gt
    · rw [h] at hjob
      cases hjob
  | refuse _ job st _ h => exact fun _ => ⟨_, rfl, h⟩
  | hand | wait | fail => exact nofun

theorem sqChecks_ok {segs : List Seg} {peer : Peer} (h : sqChecks dev qp wqe = .ok (segs, job, peer)) :
    segsOf dev wqe.sges = .ok segs ∧ wqeJob dev qp wqe = some job ∧ wqePeer dev job wqe = some peer := by
  unfold sqChecks at h
  split at h
  · cases h
  split at h
  · cases h
  rename_i hsegs
  split at h
  · cases h
  rename_i hjob
  split at h
  · cases h
  rename_i hpeer
  cases h
  exact ⟨hsegs, hjob, hpeer⟩

theorem wqePeer_ah {handle : Nat} (h : wqePeer dev job wqe = some (.ah handle)) :
    wqe.ah = true ∧ handle = wqe.addrIndex ∧ ∃ a, ahGet dev handle = some a := by
  unfold wqePeer at h
  split at h
  · rename_i hah
    split at h
    · cases h
    rename_i a ha
    cases h
    exact ⟨hah, rfl, a, ha⟩
  · split at h <;> cases h

theorem sqStep_allowed (hkeys : KeysOk dev) (hh : Honest dev qp (libOp wqe.opcode) wqe)
    (ht : SqStep dev qp (some wqe) t) {call : LibCall} (hcall : t.call = some call) : Allowed dev qp wqe call := by
  have hall : ∀ segs job peer, sqChecks dev qp wqe = .ok (segs, job, peer) →
      Allowed dev qp wqe ⟨libOp wqe.opcode, job.jobId, segs, some peer, qp.sqNext⟩ := by
    intro segs job peer h
    obtain ⟨hsegs, hjob, hpeer⟩ := sqChecks_ok h
    refine ⟨segsOf_allowed hh.mr hsegs, fun handle heq => ?_, wqeJob_allowed hkeys hjob⟩
    rw [some.inj heq] at hpeer
    obtain ⟨hah, hidx, a, ha⟩ := wqePeer_ah hpeer
    exact ⟨a, ha, hh.ah hah a (hidx ▸ ha)⟩
  cases ht with
  | rest | refuse => cases hcall
  | hand _ segs job peer _ h =>
    cases hcall
    exact hall segs job peer h
  | wait _ segs job peer _ h =>
    cases hcall
    exact hall segs job peer h
  | fail _ segs job peer _ h =>
    cases hcall
    exact hall segs job peer h

theorem sqStep_refuses (ht : SqStep dev qp (some wqe) t) (hsig : wqe.signaled = true)
    (hmoved : t.qp.sq.cons ≠ qp.sq.cons) : Refuses t := by
  cases ht with
  | rest => exact absurd rfl hmoved
  | refuse _ st _ h =>
    refine fun _ => ⟨errorPost qp true (sqRecord qp wqe 0) st, ?_, h⟩
    rw [sqFail]
    exact if_pos hsig
  | hand | wait | fail => exact nofun

end

/-! ## Job keys over a history -/

def DevEv.keyedJob : DevEv → Option Nat
  | .jkeyCreate jobHandle _ => some jobHandle
  | _ => none

def KeysLive (dev : Device) (ev : DevEv) : Prop :=
  (ev.keyedJob.bind (jobGet dev)).all (fun job => !job.retiring) = true

instance (dev : Device) (ev : DevEv) : Decidable (KeysLive dev ev) := inferInstanceAs (Decidable (_ = _))

def Job.state (job : Job) : Nat × Bool := (job.serial, job.retiring)

structure SameJobs (dev dev' : Device) : Prop where
  jkeys : dev'.jkeys = dev.jkeys
  jobs : ∀ i, (dev'.jobs i).map Job.state = (dev.jobs i).map Job.state

section

variable {dev dev' dev'' : Device}

theorem SameJobs.refl (dev : Device) : SameJobs dev dev := ⟨rfl, fun _ => rfl⟩

theorem SameJobs.trans (h : SameJobs dev dev') (h' : SameJobs dev' dev'') : SameJobs dev dev'' :=
  ⟨h'.jkeys.trans h.jkeys, fun i => (h'.jobs i).trans (h.jobs i)⟩

theorem sameJobs_of_eq (hj : dev'.jobs = dev.jobs) (hk : dev'.jkeys = dev.jkeys) : SameJobs dev dev' :=
  ⟨hk, fun i => by rw [hj]⟩

theorem jobGet_state {h : Nat} {job : Job} (hget : jobGet dev h = some job) (hs : SameJobs dev dev') :
    ∃ job', jobGet dev' h = some job' ∧ job'.state = job.state := by
  obtain ⟨hpos, hle, hslot⟩ := get_some hget
  have hjobs := hs.jobs (h - 1)
  rw [hslot] at hjobs
  cases hnew : dev'.jobs (h - 1) with
  | none =>
    rw [hnew] at hjobs
    cases hjobs
  | some job' =>
    rw [hnew] at hjobs
    refine ⟨job', ?_, some.inj hjobs⟩
    rw [jobGet, get_eq _ hpos hle, hnew]

theorem SameJobs.keysOk (hs : SameJobs dev dev') (h : KeysOk dev) : KeysOk dev' := by
  intro i k hk
  rw [hs.jkeys] at hk
  obtain ⟨job, hget, hserial, hlive⟩ := h i k hk
  obtain ⟨job', hget', hstate⟩ := jobGet_state hget hs
  exact ⟨job', hget', (congrArg Prod.fst hstate).trans hserial, (congrArg Prod.snd hstate).trans hlive⟩

theorem sameJobs_setEntry {i : Nat} {job : Job} (hget : dev.jobs i = some job) (index : Nat) (e : AddrEntry) :
    SameJobs dev (setEntry dev i job index e) := by
  refine ⟨rfl, fun j => ?_⟩
  rw [setEntry]
  dsimp only
  by_cases hj : j = i
  · subst hj
    rw [update_self, hget]
    rfl
  · rw [update_of_ne hj]

theorem sameJobs_post (dev : Device) (writes : Bool) (p : Option PostReq) :
    SameJobs dev (post dev writes p) := by
  unfold post
  split
  · exact .refl dev
  split
  · exact .refl dev
  · split
    · exact sameJobs_of_eq rfl rfl
    · exact .refl dev

theorem sameJobs_applyAt (dev : Device) (i : Nat) (writes : Bool) (r : Qp × Option PostReq) :
    SameJobs dev (applyAt dev i writes r) := by
  have hset : SameJobs dev { dev with qps := update dev.qps i (some r.1) } := sameJobs_of_eq rfl rfl
  exact hset.trans (sameJobs_post _ writes r.2)

theorem sameJobs_withAv (dev : Device) (qp : Qp) (wqe : Option Wqe) (call : Option LibCall) :
    SameJobs dev (withAv dev qp wqe call) := by
  unfold withAv
  split
  · unfold insertAv
    split
    · exact .refl dev
    split
    · exact .refl dev
    rename_i job hjob
    split
    · exact .refl dev
    · exact sameJobs_of_eq rfl rfl
    · exact sameJobs_setEntry (get_some hjob).2.2 _ _
  · exact .refl dev

theorem sameJobs_carried : Carried SameJobs :=
  ⟨SameJobs.refl, SameJobs.trans, fun _ _ writes => sameJobs_applyAt _ _ writes _, sameJobs_withAv⟩

theorem MrsOnly.sameJobs (h : MrsOnly dev dev') : SameJobs dev dev' := by
  obtain ⟨mrs, rfl⟩ := h
  exact sameJobs_of_eq rfl rfl

theorem jobAlloc_keysOk (h : KeysOk dev) (jobId maxAddrs : Nat) (memory : Bool) :
    KeysOk (jobAlloc dev jobId maxAddrs memory).1 := by
  unfold jobAlloc
  split
  · exact h
  split
  · exact h
  split
  · exact h
  rename_i i hfree
  split
  · exact h
  intro j k hk
  obtain ⟨job, hget, hserial, hlive⟩ := h j k hk
  obtain ⟨hpos, hle, hslot⟩ := get_some hget
  -- the slot of the key's job is not free
  have hne : k.jobHandle - 1 ≠ i := by
    intro heq
    rw [heq, (firstFree_some hfree).2] at hslot
    cases hslot
  refine ⟨job, ?_, hserial, hlive⟩
  rw [jobGet, get_eq _ hpos hle]
  dsimp only
  rw [update_of_ne hne, hslot]

theorem dropJkeys_some {jkeys : Table Jkey} {handle i : Nat} {k : Jkey}
    (h : dropJkeys jkeys handle i = some k) : jkeys i = some k ∧ k.jobHandle ≠ handle := by
  unfold dropJkeys at h
  rw [filter_eq_some_iff] at h
  exact ⟨h.1, bne_iff_ne.mp h.2⟩

section

variable (h : KeysOk dev)
include h

theorem keysOk_update {jkeys : Table Jkey} {i : Nat} (v : Option Job)
    (hsub : ∀ j k, jkeys j = some k → dev.jkeys j = some k ∧ k.jobHandle ≠ i + 1) :
    KeysOk { dev with jkeys, jobs := update dev.jobs i v } := by
  intro j k hk
  obtain ⟨hold, hne⟩ := hsub j k hk
  obtain ⟨job, hget, hserial, hlive⟩ := h j k hold
  obtain ⟨hpos, hle, hslot⟩ := get_some hget
  refine ⟨job, ?_, hserial, hlive⟩
  rw [jobGet, get_eq _ hpos hle]
  dsimp only
  rw [update_of_ne (by omega), hslot]

theorem jobFree_keysOk (handle : Nat) (removed : Nat → Bool) : KeysOk (jobFree dev handle removed).1 := by
  unfold jobFree
  split
  · exact h
  rename_i job hget
  obtain ⟨hpos, -, -⟩ := get_some hget
  refine keysOk_update h _ fun j k hk => ?_
  obtain ⟨hold, hne⟩ := dropJkeys_some hk
  exact ⟨hold, by omega⟩

theorem jobRetire_keysOk (i : Nat) (removed : Nat → Bool) : KeysOk (jobRetire dev i removed) := by
  unfold jobRetire
  split
  · exact h
  rename_i job hslot
  split
  · exact h
  rename_i hretiring
  rw [Bool.not_eq_true, Bool.not_eq_false'] at hretiring
  refine keysOk_update h _ fun j k hk => ⟨hk, fun heq => ?_⟩
  -- a key's job is not one that is being retired
  obtain ⟨job', hget, -, hlive⟩ := h j k hk
  have hslot' := (get_some hget).2.2
  rw [heq, Nat.add_sub_cancel, hslot] at hslot'
  cases hslot'
  rw [hretiring] at hlive
  cases hlive

theorem jkeyCreate_keysOk {jobHandle pdn : Nat}
    (hlive : KeysLive dev (.jkeyCreate jobHandle pdn)) : KeysOk (jkeyCreate dev jobHandle pdn).1 := by
  unfold jkeyCreate
  split
  · exact h
  rename_i job hjob
  split
  · exact h
  rename_i i _
  have hret : (!job.retiring) = true := by
    have hl : ((some jobHandle).bind (jobGet dev)).all (fun job => !job.retiring) = true := hlive
    rw [bind_some, hjob] at hl
    exact hl
  intro j k hk
  by_cases hji : j = i
  · subst hji
    cases (update_self j _ _).symm.trans hk
    exact ⟨job, hjob, rfl, by simpa using hret⟩
  · exact h j k ((update_of_ne hji _ _).symm.trans hk)

theorem jkeyDestroy_keysOk (handle : Nat) : KeysOk (jkeyDestroy dev handle).1 := by
  unfold jkeyDestroy
  split
  · exact h
  intro j k hk
  by_cases hji : j = handle - 1
  · subst hji
    have hnone := (update_self (handle - 1) _ _).symm.trans hk
    cases hnone
  · exact h j k ((update_of_ne hji _ _).symm.trans hk)

end

section

variable (dev)

theorem sameJobs_addrInsert (jobHandle index : Nat) (addr : AdminAddr) :
    SameJobs dev (addrInsert dev jobHandle index addr).1 := by
  unfold addrInsert
  split
  · exact .refl dev
  rename_i job hget
  split
  · exact .refl dev
  · exact sameJobs_setEntry (get_some hget).2.2 _ _

theorem sameJobs_addrRemove (jobHandle index : Nat) (removed : Bool) :
    SameJobs dev (addrRemove dev jobHandle index removed).1 := by
  unfold addrRemove
  split
  · exact .refl dev
  rename_i job hget
  dsimp only
  split
  · exact .refl dev
  · split <;> exact sameJobs_setEntry (get_some hget).2.2 _ _

theorem sameJobs_addrRetire (i index : Nat) (removed : Bool) :
    SameJobs dev (addrRetire dev i index removed) := by
  unfold addrRetire
  split
  · exact .refl dev
  rename_i job hget
  dsimp only
  split
  · exact .refl dev
  · exact sameJobs_setEntry hget _ _

theorem sameJobs_ahCreate (pd : Nat) (addr : AdminAddr) : SameJobs dev (ahCreate dev pd addr).1 := by
  unfold ahCreate
  split
  · exact .refl dev
  · exact sameJobs_of_eq rfl rfl

theorem sameJobs_ahDestroy (handle : Nat) : SameJobs dev (ahDestroy dev handle).1 := by
  unfold ahDestroy
  split
  · exact .refl dev
  · exact sameJobs_of_eq rfl rfl

theorem sameJobs_cqCreate (args : CqCreateArgs) : SameJobs dev (cqCreate dev args).1 := by
  unfold cqCreate
  dsimp only
  split
  · exact .refl dev
  split
  · exact .refl dev
  split
  · exact .refl dev
  split
  · exact .refl dev
  split
  · exact .refl dev
  · exact sameJobs_of_eq rfl rfl

theorem sameJobs_cqDestroy (handle : Nat) : SameJobs dev (cqDestroy dev handle).1 := by
  unfold cqDestroy
  split
  · exact .refl dev
  split
  · exact .refl dev
  · exact sameJobs_of_eq rfl rfl

theorem sameJobs_qpCreate (args : QpCreateArgs) (library memory : Bool) :
    SameJobs dev (qpCreate dev args library memory).1 := by
  unfold qpCreate
  split
  · split
    · exact .refl dev
    split
    · exact .refl dev
    split
    · exact .refl dev
    split
    · exact .refl dev
    · exact sameJobs_of_eq rfl rfl
  · exact .refl dev

theorem sameJobs_qpClose (i : Nat) (closed : Bool) : SameJobs dev (qpClose dev i closed) := by
  unfold qpClose
  split <;> exact sameJobs_of_eq rfl rfl

theorem sameJobs_qpDestroy (handle : Nat) (d : Drained × Drained) (closed : Bool) :
    SameJobs dev (qpDestroy dev handle d closed).1 := by
  unfold qpDestroy
  split
  · exact .refl dev
  rename_i qp _
  have hunbind : SameJobs dev { dev with
      mrs := detachMrs dev.mrs handle, cqs := unbindCqs dev.cqs qp.sendCq qp.recvCq } := sameJobs_of_eq rfl rfl
  exact (hunbind.trans (sameJobs_carried.drainBoth (handle - 1) _ d)).trans (sameJobs_qpClose _ (handle - 1) closed)

theorem sameJobs_cqDoorbell (page handle : Nat) (cons : BitVec 32) (arm : Bool) :
    SameJobs dev (cqDoorbell dev page handle cons arm) := by
  unfold cqDoorbell
  split
  · exact .refl dev
  split
  · exact .refl dev
  · exact sameJobs_of_eq rfl rfl

theorem sameJobs_pollProgress (i : Nat) (inputs : List TurnInput) (d : Drained × Drained)
    (flushed closed : Bool) : SameJobs dev (pollProgress dev i inputs d flushed closed) := by
  unfold pollProgress
  split
  · exact .refl dev
  split
  · unfold qpRetire
    split
    · exact sameJobs_carried.drainBoth i dev d
    split
    · exact sameJobs_of_eq rfl rfl
    · exact .refl dev
  · split
    · exact sameJobs_carried.pollSend i dev inputs d _
    · exact .refl dev

end

theorem step_keysOk (h : KeysOk dev) {ev : DevEv} (hlive : KeysLive dev ev) : KeysOk (dev.step ev) := by
  cases ev with
  | jobAlloc jobId maxAddrs memory => exact jobAlloc_keysOk h jobId maxAddrs memory
  | jobFree handle removed => exact jobFree_keysOk h handle removed
  | jobRetire i removed => exact jobRetire_keysOk h i removed
  | jkeyCreate jobHandle pdn => exact jkeyCreate_keysOk h hlive
  | jkeyDestroy handle => exact jkeyDestroy_keysOk h handle
  | addrInsert => exact (sameJobs_addrInsert ..).keysOk h
  | addrRemove => exact (sameJobs_addrRemove ..).keysOk h
  | addrRetire => exact (sameJobs_addrRetire ..).keysOk h
  | ahCreate => exact (sameJobs_ahCreate ..).keysOk h
  | ahDestroy => exact (sameJobs_ahDestroy ..).keysOk h
  | mrReg => exact (mrReg_mrsOnly ..).sameJobs.keysOk h
  | mrDereg => exact (mrDereg_mrsOnly ..).sameJobs.keysOk h
  | mrAttach => exact (mrAttach_mrsOnly ..).sameJobs.keysOk h
  | mrDetach => exact (mrDetach_mrsOnly ..).sameJobs.keysOk h
  | cqCreate => exact (sameJobs_cqCreate ..).keysOk h
  | cqDestroy => exact (sameJobs_cqDestroy ..).keysOk h
  | qpCreate => exact (sameJobs_qpCreate ..).keysOk h
  | qpDestroy => exact (sameJobs_qpDestroy ..).keysOk h
  | qpModify => exact (sameJobs_carried.qpModify ..).keysOk h
  | ringDoorbell => exact (sameJobs_carried.ringDoorbell ..).keysOk h
  | cqDoorbell => exact (sameJobs_cqDoorbell ..).keysOk h
  | recv => exact (sameJobs_carried.pollRecv ..).keysOk h
  | progress => exact (sameJobs_pollProgress ..).keysOk h

end

/-! ## Isolation -/

/-- In every history in which keys are made for live jobs only, and for every work request of a queue
pair that names only what is its own: what the device hands to the library is confined to the
domain of the queue pair, and a request that it takes without handing it on completes in error. A receive is
reported where it has no more segments than there is room for and its key names a job, a
refused send where it is signaled. -/
theorem pd_isolation (evs : List DevEv) (hrun : Meets Device.step KeysLive Device.init evs) (i : Nat) (qp : Qp)
    (wqe : Wqe) (rc : LibResult) :
    let dev := evs.foldl Device.step Device.init
    dev.qps i = some qp →
    (Honest dev qp .recv wqe →
      (∀ call, (rqTurn dev qp (some wqe) rc).call = some call → Allowed dev qp wqe call) ∧
      (wqe.numSge ≤ maxSge → (wqeJob dev qp wqe).isSome →
        (rqTurn dev qp (some wqe) rc).qp.rq.cons ≠ qp.rq.cons → Refuses (rqTurn dev qp (some wqe) rc))) ∧
    (Honest dev qp (libOp wqe.opcode) wqe → ∀ inserted,
      (∀ call, (sqTurn dev qp (some wqe) inserted rc).call = some call → Allowed dev qp wqe call) ∧
      (wqe.signaled = true → (sqTurn dev qp (some wqe) inserted rc).qp.sq.cons ≠ qp.sq.cons →
        Refuses (sqTurn dev qp (some wqe) inserted rc))) := by
  intro dev _
  have hkeys : KeysOk dev := Meets.keep (P := KeysOk) (fun _ _ hi hl => step_keysOk hi hl) nofun hrun
  refine ⟨fun hh => ⟨fun call hcall => ?_, fun hsge hjob hmoved => ?_⟩,
    fun hh inserted => ⟨fun call hcall => ?_, fun hsig hmoved => ?_⟩⟩
  · exact rqStep_allowed hkeys hh (rqTurn_step dev qp (some wqe) rc) hcall
  · exact rqStep_refuses (rqTurn_step dev qp (some wqe) rc) hsge hjob hmoved
  · exact sqStep_allowed hkeys hh (sqTurn_step dev qp (some wqe) inserted rc) hcall
  · exact sqStep_refuses (sqTurn_step dev qp (some wqe) inserted rc) hsig hmoved

/-! ## Another domain's region -/

def sendRing : RingDesc := ⟨0x1000, 4096, 4⟩

def smallRegion (pd : Nat) : DevEv :=
  .mrReg ⟨some 0, some .unrestricted, ⟨true, true⟩, pd, 0, 0, 0x5000, 16⟩ (some ⟨9, 0xabc00, true⟩)

/-- A queue pair of the domain 3, and a region and an address handle of the domain `pd`. -/
def twoDomains (pd : Nat) : List DevEv :=
  [.jobAlloc 5 0 true, .jkeyCreate 1 3, smallRegion pd, .ahCreate pd ⟨0, 0, 0⟩, .cqCreate ⟨sendRing, 0, 0⟩,
    .qpCreate ⟨0x80000001, 3, 1, 1, 0, 0, 0, sendRing, sendRing⟩ true true,
    .qpModify 1 (some .rts) 0 ⟨true, true, true, []⟩, .ringDoorbell 0 1 true 1]

def sendRegion : Wqe :=
  { wrId := 7, opcode := .send, signaled := true, ah := true, numSge := 1, addrIndex := 1
    jkey := 0x4a000001, imm := 0, remoteAddr := 0, remoteKey := 0, sge := fun _ => ⟨0x5000, 1, 16⟩ }

def sendCall : LibCall := ⟨.send, 5, [⟨9, 0, 16⟩], some (.ah 1), ⟨true, 0⟩⟩

/-- A queue pair of the domain 3 gets a region and an address handle of the domain 4 to the library. -/
theorem foreign_region_sent :
    let dev := (twoDomains 4).foldl Device.step Device.init
    (dev.mrs 0).map Mr.pd = some 4 ∧ (dev.ahs 0).map Ah.pd = some 4 ∧
      ((dev.qps 0).map fun qp => (qp.pd, (sqTurn dev qp (some sendRegion) true .accepted).call)) =
        some (3, some sendCall) := by
  decide +kernel

theorem sendRegion_honest :
    let dev := (twoDomains 3).foldl Device.step Device.init
    ∀ qp, dev.qps 0 = some qp → Honest dev qp .send sendRegion := by
  intro dev qp hqp
  have hpd : (dev.qps 0).map Qp.pd = some 3 := by decide +kernel
  rw [hqp] at hpd
  have hpd := some.inj hpd
  have hslot : ∀ i < maxMrs, (dev.mrs i).isSome → i = 0 := by decide +kernel
  have hregion : (dev.mrs 0).all (fun m => m.pd == 3 && m.access.localRead) = true := by decide +kernel
  have hah : (ahGet dev 1).all (fun a => a.pd == 3) = true := by decide +kernel
  have hzero : ∀ {key i m}, Names dev key i m → i = 0 := fun h => hslot _ h.1 (h.2.1 ▸ rfl)
  refine ⟨fun s _ i m hname => ?_, fun _ a ha => ?_⟩
  · have hi := hzero hname
    subst hi
    rw [hname.2.1, all_some, Bool.and_eq_true, beq_iff_eq] at hregion
    exact ⟨hregion.1.trans hpd.symm, hregion.2, fun j m' h' => hzero h'⟩
  · rw [show ahGet dev 1 = some a from ha, all_some, beq_iff_eq] at hah
    exact hah.trans hpd.symm

/-- In the domain of the queue pair, both are confined. -/
theorem pd_isolation_send :
    let dev := (twoDomains 3).foldl Device.step Device.init
    ((dev.qps 0).any fun qp => (sqTurn dev qp (some sendRegion) true .accepted).call == some sendCall) = true ∧
      ∀ qp, dev.qps 0 = some qp → ∀ call, (sqTurn dev qp (some sendRegion) true .accepted).call = some call →
        Allowed dev qp sendRegion call := by
  refine ⟨by decide +kernel, fun qp hqp call hcall => ?_⟩
  exact ((pd_isolation (twoDomains 3) (by decide +kernel) 0 qp sendRegion .accepted hqp).2
    (sendRegion_honest qp hqp) true).1 call hcall

end Uet.Dev
