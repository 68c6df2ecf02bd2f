import Uet.Ses.RxAuth

/-!
# Who may touch a region

A packet that reads or changes bytes of a region is to be allowed to at that moment:
`Authorised` says it of a packet and a region, `AccessOk` of everything an event does to
memory. It holds after every history in which no region is disabled under a write in progress,
and where the packets avoid what the code does not check (`Orderly`).
-/

namespace Uet.Ses

open Flat Guarded Function

/-! ## The bytes of a region -/

def MrBuf.addr (b : MrBuf) (off : Nat) : Option Nat :=
  match b.kind with
  | .contig base => some (base + off)
  | .iov iov => (iovAddrs iov)[off]?
  | .pbl p => p.addr off

def MrBuf.Has (b : MrBuf) (a : Nat) : Prop := ∃ off, off < b.len ∧ b.addr off = some a

variable {a : Nat} {s : RxEp} {p : SesReq} {i : MrIdx} {s' : RxEp} {env : RxEnv} {sync : Bool} {id : DescId}
  {w : Watched}

theorem MrBuf.has_of_mem {b : MrBuf} {as : List Nat} (h : b.addrs = some as) (ha : a ∈ as) : b.Has a := by
  obtain ⟨off, hoff, rfl⟩ := List.getElem_of_mem ha
  have hlen := MrBuf.length_addrs h
  refine ⟨off, by omega, ?_⟩
  unfold MrBuf.addrs at h
  unfold MrBuf.addr
  cases hk : b.kind with
  | contig base =>
    simp only [hk, Option.some.injEq] at h
    subst h
    rw [getElem_run hoff]
  | iov iov =>
    simp only [hk, Option.some.injEq] at h
    subst h
    rw [List.getElem_take]
    exact List.getElem?_eq_getElem _
  | pbl p =>
    simp only [hk] at h
    have hat := (Pbl.addrs_iff.1 h).2 off hoff
    simpa using hat

theorem mrAtomicAddr_has {b : MrBuf} {off : Nat} (h : mrAtomicAddr b off 8 = some a) {k : Nat} (hk : k < 8) :
    b.Has (a + k) := by
  obtain ⟨hfit, n, hloc, hn, -⟩ := mrAtomicAddr_eq_some.1 h
  refine ⟨off + k, by omega, ?_⟩
  unfold MrBuf.piece at hloc
  unfold MrBuf.addr
  cases hkind : b.kind with
  | contig base =>
    simp only [hkind, Option.some.injEq, Prod.mk.injEq] at hloc
    rw [← hloc.1, Nat.add_assoc]
  | iov iov =>
    simp only [hkind] at hloc
    exact iovLocate_run hloc (by omega)
  | pbl p =>
    simp only [hkind] at hloc
    exact p.resolve_run hloc (by omega)

theorem mem_of_memcpy_ne {m : Mem} {x : Nat} {w : BitVec 64} (h : memcpy m a (bytes64 w) x ≠ m x) :
    ∃ k, k < 8 ∧ x = a + k := by
  have hmem := List.mem_of_mem_take (mem_take_of_poke_ne h)
  rw [show (bytes64 w).length = 8 by simp [bytes64], mem_run] at hmem
  exact ⟨x - a, by omega, by omega⟩

/-! ## Authorisation -/

/-- At this moment region `i` is enabled and the packet's key names it, its access bits
permit the operation, the endpoint may use it, and it is not restricted to another job. -/
structure Authorised (s : RxEp) (p : SesReq) (permits : Access → Bool) (i : MrIdx) : Prop where
  enabled : (s.dom.mr i).state = .enabled
  key : lookupBits (s.dom.mr i).fullKey = lookupBits p.matchBits
  access : permits (s.dom.mr i).access = true
  reachable : (s.dom.mr i).reachable s.ep = true
  job : (s.dom.mr i).allowsJob p.jobId = true

theorem authorised_of_getMrDesc (hd : DomainOk s.dom) (h : getMrDesc s.dom s.ep p.matchBits p.jobId = some i)
    {permits : Access → Bool} (hp : permits (s.dom.mr i).access = true) : Authorised s p permits i :=
  let ⟨⟨hstate, hreach, hkey⟩, hjob⟩ := hd.getMrDesc_some h
  ⟨hstate, hkey, hp, hreach, hjob⟩

def Access.allowsAtomic (a : Access) : Bool := a.atomic && a.remoteRead && a.remoteWrite

/-- Every byte that differs in `m` is one of a region the packet may use so. -/
def ChangesOk (s : RxEp) (p : SesReq) (permits : Access → Bool) (m : Mem) : Prop :=
  ∀ a, m a ≠ s.mem a → ∃ i, Authorised s p permits i ∧ (s.dom.mr i).region.buf.Has a

def AccessOk (s : RxEp) : RxEv → Prop
  | .req env p =>
    match p.opcode with
    | .write | .syncWrite => ChangesOk s p Access.remoteWrite (s.step (.req env p)).mem
    | .read => ∀ i off len, rxRdReqPkt s p = .ok (i, off, len) →
      Authorised s p Access.remoteRead i ∧ off + len ≤ (s.dom.mr i).region.buf.len
    | _ => True
  | .atomic env p ext =>
    ChangesOk s p Access.allowsAtomic (s.step (.atomic env p ext)).mem ∧
      (p.opcode = .fetchAtomic → ∀ v, (rxFetchAtomicReqPkt s p ext).2 = .ok v →
        ∃ i a, Authorised s p Access.allowsAtomic i ∧ v = peek64 s.mem a ∧
          ∀ k, k < 8 → (s.dom.mr i).region.buf.Has (a + k))
  | _ => True

theorem ChangesOk.refl (s : RxEp) (p : SesReq) (permits : Access → Bool) :
    ChangesOk s p permits s.mem := fun _ h => absurd rfl h

/-! ## Reads and atomics -/

theorem read_authorised (hd : DomainOk s.dom) {off len : Nat} (h : rxRdReqPkt s p = .ok (i, off, len)) :
    Authorised s p Access.remoteRead i ∧ off + len ≤ (s.dom.mr i).region.buf.len := by
  unfold rxRdReqPkt at h
  dsimp only at h
  split at h
  · cases h
  split at h
  · cases h
  split at h
  · cases h
  · split at h
    · cases h
    · rename_i j hj
      split at h
      · cases h
      rename_i haccess
      split at h
      · cases h
      split at h
      · cases h
      rename_i off' hoff
      cases h
      exact ⟨authorised_of_getMrDesc hd hj (by simpa using haccess), (Region.toOffset_eq_some.1 hoff).2⟩

theorem amoTarget_authorised (hd : DomainOk s.dom) (h : amoTarget s p = .ok (i, a)) :
    Authorised s p Access.allowsAtomic i ∧ ∀ k, k < 8 → (s.dom.mr i).region.buf.Has (a + k) := by
  unfold amoTarget at h
  split at h
  · cases h
  rename_i j hj
  dsimp only at h
  split at h
  · cases h
  rename_i haccess
  split at h
  · cases h
  split at h
  · cases h
  rename_i a' ha
  cases h
  refine ⟨authorised_of_getMrDesc hd hj ?_, fun k hk => mrAtomicAddr_has ha hk⟩
  rw [Bool.not_eq_true', Bool.not_eq_false] at haccess
  exact haccess

theorem changesOk_memcpy (hd : DomainOk s.dom) (h : amoTarget s p = .ok (i, a)) (w : BitVec 64) :
    ChangesOk s p Access.allowsAtomic (memcpy s.mem a (bytes64 w)) := by
  intro x hx
  obtain ⟨hauth, hhas⟩ := amoTarget_authorised hd h
  obtain ⟨k, hk, rfl⟩ := mem_of_memcpy_ne hx
  exact ⟨i, hauth, hhas k hk⟩

theorem amoTarget_congr (hdom : s'.dom = s.dom) (hep : s'.ep = s.ep) (p : SesReq) : amoTarget s' p = amoTarget s p := by
  unfold amoTarget
  rw [hdom, hep]

theorem atomic_authorised (hd : DomainOk s.dom) (env : RxEnv) (p : SesReq) (ext : AtomicExt) (sync : Bool) :
    ChangesOk s p Access.allowsAtomic (rxAtomicReqPkt s env p ext sync).1.mem := by
  have h0 : Tail s (if sync then amoSyncGrp s env p else (s, none, .ok)).1 := by
    split
    · exact (settled_amoSyncGrp s env p).tail
    · exact .refl s
  unfold rxAtomicReqPkt
  generalize (if sync then amoSyncGrp s env p else (s, none, .ok)) = grp at h0
  obtain ⟨s1, entry, rc⟩ := grp
  have herr : ChangesOk s p Access.allowsAtomic (amoErrExit s1 entry).mem := by
    have hmem : (amoErrExit s1 entry).mem = s.mem := by cases entry <;> exact h0.mem
    rw [hmem]
    exact .refl s p _
  dsimp only
  split
  · exact herr
  split
  · exact herr
  split
  · exact herr
  · rename_i i a htarget
    rw [amoTarget_congr h0.dom h0.ep] at htarget
    cases entry with
    | none =>
      have hmem : (amoSum s1 none a ext.data).mem = fetchAdd64 s.mem a ext.data := by
        rw [← h0.mem]
        rfl
      rw [hmem]
      exact changesOk_memcpy hd htarget _
    | some e =>
      have hmem : (amoSum s1 (some e) a ext.data).mem = s.mem := h0.mem
      rw [hmem]
      exact .refl s p _

theorem fetchAtomic_authorised (hd : DomainOk s.dom) (p : SesReq) (ext : AtomicExt) :
    ChangesOk s p Access.allowsAtomic (rxFetchAtomicReqPkt s p ext).1.mem ∧
      ∀ v, (rxFetchAtomicReqPkt s p ext).2 = .ok v →
        ∃ i a, Authorised s p Access.allowsAtomic i ∧ v = peek64 s.mem a ∧
          ∀ k, k < 8 → (s.dom.mr i).region.buf.Has (a + k) := by
  unfold rxFetchAtomicReqPkt
  dsimp only
  split
  · exact ⟨.refl s p _, nofun⟩
  split
  · exact ⟨.refl s p _, nofun⟩
  rename_i i a htarget
  constructor
  · split
    · exact changesOk_memcpy hd htarget _
    split
    · exact changesOk_memcpy hd htarget _
    · exact .refl s p _
  · intro v hv
    cases hv
    obtain ⟨hauth, hhas⟩ := amoTarget_authorised hd htarget
    exact ⟨i, a, hauth, rfl, hhas⟩

/-! ## Writes -/

theorem ConfinedTo.has {m : Mem} (h : ConfinedTo s p m) (hne : m a ≠ s.mem a) :
    ∃ i, writeTarget s p = some i ∧ (s.dom.mr i).region.buf.Has a := by
  obtain ⟨i, as, off, htarget, has, -, -, rfl⟩ := h
  refine ⟨i, htarget, MrBuf.has_of_mem has ?_⟩
  exact List.mem_of_mem_drop (List.mem_of_mem_take (mem_take_of_poke_ne hne))

theorem sesRc_of_later {write : Bool} (h : getRxDesc s env p write sync .ok = (s', .later id)) :
    (s.desc id).sesRc = .ok := by
  refine ((quiet_getRxDesc_later h).desc id).sesRc ?_
  have hlater := (getRxDesc_eq_later h).2
  simp only [getRxDescLater] at hlater
  split at hlater
  · cases hlater
  rename_i hrc
  cases hlater
  unfold SesRc.orElse at hrc
  by_contra hne
  rw [if_pos hne] at hrc
  exact hrc hne

theorem fullKey_of_laterPktErr (h : laterPktErr s p true id = none) (hi : (s.desc id).mr = some i) :
    (s.dom.mr i).fullKey = p.matchBits := by
  unfold laterPktErr at h
  simp only [Bool.not_true, Bool.false_eq_true, if_false, hi] at h
  split at h
  · cases h
  split at h
  · cases h
  · rename_i hkey
    exact not_not.1 hkey

theorem rxReqBody_first_mem (s : RxEp) (env : RxEnv) (p : SesReq) (id : DescId) :
    (rxReqBody s env p false true false (some id)).1.mem = s.mem ∨
      (∃ i, (s.desc id).mr = some i ∧ (s.dom.mr i).access.remoteWrite = true) ∧
      (NoAtomic s id → (rxReqBody s env p false true false (some id)).1.mem = s.mem ∨
        Copied s p true id (rxReqBody s env p false true false (some id)).1.mem) := by
  have hstage := writeStage_rxFirstPkt s env p id
  unfold rxReqBody
  split
  · exact .inl (keeps_rxMsgErr s _ _ _ _ _).mem
  split
  · exact .inl (keeps_rxMsgErr s _ _ _ _ _).mem
  cases hpkt : rxFirstPkt s env p false true (some id) with
  | error stop =>
    obtain ⟨s2, id2, rc⟩ := stop
    rw [hpkt] at hstage
    exact .inl ((keeps_rxMsgErr s2 _ _ _ _ _).mem.trans hstage.2.2.2)
  | ok r =>
    obtain ⟨s2, id2⟩ := r
    rw [hpkt] at hstage
    obtain ⟨hid, hstart⟩ := hstage
    cases (show id2 = id from hid)
    obtain ⟨m, hk, hm⟩ := keeps_rxPlace s2 env.now p true id
    have hmem : (rxPlace s2 env.now p true id).1.mem = m := hk.mem
    rw [hmem]
    refine .inr ⟨hstart.access, fun hno => ?_⟩
    have hno2 : NoAtomic s2 id := fun e he => by
      rw [hstart.syncs]
      exact hno e (hstart.sync.symm.trans he)
    refine (hm hno2).imp (fun h => h.trans hstart.mem) fun ⟨hfits, hcopy⟩ => ⟨?_, ?_⟩
    · rw [← hstart.buf.len]
      exact hfits.1
    · rw [hcopy, rxScatter_congr hstart.mem hstart.adds.dom hstart.buf]

theorem rudiWrite_authorised (hd : DomainOk s.dom) (hok : WriteOk s p sync) (hrudi : p.pds = .rudi) :
    ChangesOk s p Access.remoteWrite (rudiWrite s p).1.mem := by
  intro a hne
  have hconf := (rudiWrite_confined hok hrudi).resolve_left fun h => hne (by rw [h])
  obtain ⟨i, htarget, hhas⟩ := hconf.has hne
  rw [writeTarget, if_pos hrudi] at htarget
  refine ⟨i, authorised_of_getMrDesc hd htarget ?_, hhas⟩
  by_contra haccess
  unfold rudiWrite at hne
  rw [show getMrDesc s.dom s.ep p.matchBits p.jobId = some i from htarget] at hne
  dsimp only at hne
  rw [if_pos (by simpa using haccess)] at hne
  exact hne rfl

theorem first_authorised {s1 : RxEp} (hd : DomainOk s.dom) (hok : WriteOk s p sync) (hrudi : p.pds ≠ .rudi)
    (hg : getRxDesc s env p true sync .ok = (s1, .first (some id))) :
    ChangesOk s p Access.remoteWrite (rxReqBody s1 env p false true false (some id)).1.mem := by
  intro a hne
  have hk := keeps_getRxDesc s env p true sync .ok
  rw [hg] at hk
  obtain ⟨hca, hlook, ⟨i, hi, hkey⟩, hno⟩ := getRxDesc_first hd hg id rfl
  have htarget : writeTarget s p = some i := by
    rw [writeTarget, if_neg hrudi, hlook]
    exact hkey
  have hna : NoAtomic s1 id := hno fun e he => hok.noAtomic hrudi e (by
    rw [writeSync, hlook]
    exact he)
  rcases rxReqBody_first_mem s1 env p id with hsame | ⟨⟨j, hj, haccess⟩, hm⟩
  · exact absurd (by rw [hsame, hk.mem]) hne
  cases hi.symm.trans hj
  rcases hm hna with hsame | hcopy
  · exact absurd (by rw [hsame, hk.mem]) hne
  have hconf := confined_of_copied hok hrudi htarget hk.mem hk.dom hi hca hcopy
  obtain ⟨j, hj, hhas⟩ := hconf.has hne
  cases htarget.symm.trans hj
  rw [hk.dom] at haccess
  exact ⟨i, authorised_of_getMrDesc hd hkey haccess, hhas⟩

theorem later_confined {s1 : RxEp} (hok : WriteOk s p sync) (hrudi : p.pds ≠ .rudi)
    (hg : getRxDesc s env p true sync .ok = (s1, .later id)) (hca : CachedAt s id)
    (hne : (rxReqBody s1 env p false true true (some id)).1.mem a ≠ s.mem a) :
    ∃ i, (s.desc id).mr = some i ∧ (s.dom.mr i).fullKey = p.matchBits ∧ (s.dom.mr i).region.buf.Has a := by
  obtain ⟨hlook, ht, hno⟩ := getRxDesc_later hg
  obtain ⟨m, hkm, hm⟩ := keeps_rxReqBody_later s1 env p false true id
  have hmem : (rxReqBody s1 env p false true true (some id)).1.mem = m := hkm.mem
  rw [hmem] at hne
  have hna : NoAtomic s1 id := hno fun e he => hok.noAtomic hrudi e (by
    rw [writeSync, hlook]
    exact he)
  rcases hm with hsame | ⟨hlater, hm⟩
  · exact absurd (by rw [hsame, ht.mem]) hne
  obtain ⟨i, hi⟩ := mr_of_laterPktErr hlater
  have hi' : (s.desc id).mr = some i := (ht.buf id).mr.symm.trans hi
  have htarget : writeTarget s p = some i := by
    rw [writeTarget, if_neg hrudi, hlook]
    exact hi'
  have hkey := fullKey_of_laterPktErr hlater hi
  rw [ht.dom] at hkey
  rcases hm hna with hsame | hcopy
  · exact absurd (by rw [hsame, ht.mem]) hne
  have hconf := confined_of_copied hok hrudi htarget ht.mem ht.dom hi (ht.cachedAt hca) hcopy
  obtain ⟨j, hj, hhas⟩ := hconf.has hne
  cases htarget.symm.trans hj
  exact ⟨i, hi', hkey, hhas⟩

/-! ## Messages in progress -/

structure Watched where
  ep : RxEp
  jobs : RxMsgKey → JobId

def Watched.jobsAfter (w : Watched) : RxEv → RxMsgKey → JobId
  | .req _ p =>
    if rxMsgHashLookup w.ep p.msgKey = none then update w.jobs p.msgKey p.jobId else w.jobs
  | _ => w.jobs

def Watched.step (w : Watched) (ev : RxEv) : Watched := ⟨w.ep.step ev, w.jobsAfter ev⟩

theorem watched_run_ep (w : Watched) (evs : List RxEv) : (evs.foldl Watched.step w).ep = w.ep.run evs := by
  induction evs generalizing w with
  | nil => rfl
  | cons _ _ ih => exact ih (w.step ..)

structure Lasting (s : RxEp) (job : JobId) (d : RxDesc) (i : MrIdx) : Prop where
  enabled : (s.dom.mr i).state = .enabled
  access : (s.dom.mr i).access.remoteWrite = true
  reachable : (s.dom.mr i).reachable s.ep = true
  job : (s.dom.mr i).allowsJob job = true
  cached : d.CachedFrom (s.dom.mr i)

structure Live (w : Watched) : Prop where
  domain : DomainOk w.ep.dom
  msg : ∀ id ∈ w.ep.msgs, (w.ep.desc id).sesRc = .ok → ∀ i, (w.ep.desc id).mr = some i →
    Lasting w.ep (w.jobs (w.ep.desc id).msgKey) (w.ep.desc id) i

theorem Lasting.congr {job : JobId} {d d' : RxDesc} (h : Lasting s job d i) (hep : s'.ep = s.ep)
    (hmr : s'.dom.mr i = s.dom.mr i) (hbuf : SameBuf d d') : Lasting s' job d' i := by
  refine ⟨?_, ?_, ?_, ?_, ?_⟩
  · rw [hmr]; exact h.enabled
  · rw [hmr]; exact h.access
  · rw [hmr, hep]; exact h.reachable
  · rw [hmr]; exact h.job
  · rw [hmr]; exact hbuf.cachedFrom h.cached

theorem Live.grows (h : Live w) {S : RxDesc → MrIdx → Prop} {jobs : RxMsgKey → JobId} (hg : Grows S w.ep s')
    (hold : ∀ id ∈ w.ep.msgs, jobs (w.ep.desc id).msgKey = w.jobs (w.ep.desc id).msgKey)
    (hnew : ∀ d i, S d i → Lasting w.ep (jobs d.msgKey) d i) : Live ⟨s', jobs⟩ := by
  refine ⟨by rw [hg.dom]; exact h.domain, fun id hid hrc i hi => ?_⟩
  rcases hg.msg id hid hrc i hi with ⟨hmem, hk⟩ | hstarted
  · have hlast := h.msg id hmem (hk.sesRc hrc) i (hk.buf.mr.symm.trans hi)
    rw [← hold id hmem, ← hk.msgKey] at hlast
    exact hlast.congr hg.ep (by rw [hg.dom]) hk.buf
  · exact (hnew _ i hstarted).congr hg.ep (by rw [hg.dom]) (.refl _)

theorem Live.quiet (h : Live w) (hg : Grows (fun _ _ => False) w.ep s') : Live ⟨s', w.jobs⟩ :=
  h.grows hg (fun _ _ => rfl) fun _ _ => False.elim

theorem jobsAfter_old (w : Watched) (env : RxEnv) (p : SesReq) (hid : id ∈ w.ep.msgs) :
    w.jobsAfter (.req env p) (w.ep.desc id).msgKey = w.jobs (w.ep.desc id).msgKey := by
  unfold Watched.jobsAfter
  dsimp only
  split
  · rename_i hlook
    have hne := List.find?_eq_none.1 hlook id hid
    rw [update_of_ne (by simpa using hne)]
  · rfl

theorem Live.write (h : Live w) (env : RxEnv) (p : SesReq) (sync : Bool) :
    Live ⟨(rxReqPkt w.ep env p false true sync).1, w.jobsAfter (.req env p)⟩ := by
  refine h.grows (grows_rxReqPkt_write h.domain env p sync)
    (fun id hid => jobsAfter_old w env p hid) fun d i hd => ?_
  obtain ⟨⟨hstate, hreach, -⟩, hjob⟩ := h.domain.getMrDesc_some hd.region
  refine ⟨hstate, hd.access, hreach, ?_, hd.cached⟩
  rw [hd.msgKey, Watched.jobsAfter, if_pos hd.new, update_self]
  exact hjob

theorem DomainOk.enabled_kept {d : Domain} (h : DomainOk d) {o : MrOp} (hi : (d.mr i).state = .enabled)
    (ho : o ≠ .disable i) : (o.apply d).mr i = d.mr i := by
  obtain heq | ⟨hdis, -⟩ := h.region_step o (by rw [hi]; decide)
  · exact heq
  · exact absurd (hdis hi) ho

def SameJob (w : Watched) (p : SesReq) : Prop :=
  p.pds ≠ .rudi → ∀ id, rxMsgHashLookup w.ep p.msgKey = some id → ∀ i, (w.ep.desc id).mr = some i →
    (w.ep.dom.mr i).jobRestricted = true → p.jobId = w.jobs p.msgKey

/-- No region is disabled under a write in progress without error; write packets are what
the code can check and keep to the job of their message; a send finds posted receives only. -/
def Orderly (w : Watched) : RxEv → Prop
  | .mrOp (.disable i) =>
    ∀ id ∈ w.ep.msgs, (w.ep.desc id).sesRc = .ok → (w.ep.desc id).mr ≠ some i
  | .req _ p =>
    match p.opcode with
    | .write => WriteOk w.ep p false ∧ SameJob w p
    | .syncWrite => WriteOk w.ep p true ∧ SameJob w p
    | .send | .deferSend | .taggedSend | .deferTsend => Plain w.ep
    | _ => True
  | _ => True

theorem Live.mrOp (h : Live w) {o : MrOp} (ho : Orderly w (.mrOp o)) : Live (w.step (.mrOp o)) := by
  refine ⟨h.domain.step o, fun id hid hrc i hi => ?_⟩
  have hlast := h.msg id hid hrc i hi
  refine hlast.congr rfl (h.domain.enabled_kept hlast.enabled fun hdis => ?_) (.refl _)
  subst hdis
  exact ho id hid hrc hi

theorem Live.send (h : Live w) (hplain : Plain w.ep) (env : RxEnv) (p : SesReq) (tagged : Bool) :
    Live ⟨(rxReqPkt w.ep env p tagged false false).1, w.jobsAfter (.req env p)⟩ :=
  h.grows (S := fun _ _ => False) (grows_rxReqPkt_send hplain env p tagged)
    (fun _ hid => jobsAfter_old w env p hid) fun _ _ => False.elim

theorem getRxDesc_ne_first (s : RxEp) (env : RxEnv) (p : SesReq) (s' : RxEp) (id : Option DescId) :
    getRxDesc s env p false false .unsupportedOp ≠ (s', .first id) := by
  intro h
  obtain ⟨-, ⟨-, hrc, -⟩ | ⟨_, _, -, -, -, hnew⟩⟩ := getRxDesc_eq_first h
  · cases hrc
  · unfold getRxDescNew syncGrpIf at hnew
    cases hnew

theorem Live.req (h : Live w) (hc : Orderly w (.req env p)) : Live (w.step (.req env p)) := by
  have hquiet : ∀ s' : RxEp, Grows (fun _ _ => False) w.ep s' →
      Live ⟨s', w.jobsAfter (.req env p)⟩ := fun s' hg =>
    h.grows hg (fun _ hid => jobsAfter_old w env p hid) fun _ _ => False.elim
  have hrefl : Live ⟨w.ep, w.jobsAfter (.req env p)⟩ := hquiet _ (Quiet.refl _).grows
  unfold Watched.step
  simp only [RxEp.step, rxReq]
  simp only [Orderly] at hc
  cases hop : p.opcode with
  | send | deferSend | taggedSend | deferTsend =>
    rw [hop] at hc
    exact h.send hc env p _
  | write | syncWrite => exact h.write env p _
  | read =>
    dsimp only
    split <;> exact hrefl
  | msgErr => exact hquiet _ (settled_rxCancelPkt w.ep env.now p).quiet.grows
  | atomic | syncAtomic | fetchAtomic | other =>
    dsimp only
    split
    · rename_i s1 rc hg
      exact hquiet _ (grows_getRxDesc_done hg)
    rename_i s1 look hnot hg
    cases look with
    | done rc => exact absurd rfl (hnot rc)
    | later id => exact hquiet _ (quiet_getRxDesc_later hg).grows
    | first id => exact absurd hg (getRxDesc_ne_first w.ep env p s1 id)

theorem Live.step {ev : RxEv} (h : Live w) (hc : Orderly w ev) : Live (w.step ev) := by
  cases ev with
  | req env p => exact h.req hc
  | atomic env p ext =>
    unfold Watched.step
    simp only [RxEp.step]
    cases p.opcode with
    | atomic | syncAtomic => exact h.quiet (quiet_rxAtomicReqPkt w.ep env p ext _).grows
    | fetchAtomic => exact h.quiet (quiet_rxFetchAtomicReqPkt w.ep p ext).grows
    | _ => exact h
  | recv q => exact h.quiet (grows_recvApiCommon w.ep q)
  | msgAge now => exact h.quiet (settled_rxMsgAgeLoop now _ w.ep).quiet.grows
  | syncGrpAge now => exact h.quiet (settled_rxSyncGrpAge w.ep now).quiet.grows
  | cqRead err => exact h.quiet (settled_rxCqRead w.ep err).quiet.grows
  | mrOp o => exact h.mrOp hc

theorem Live.later_authorised (h : Live w) {s1 : RxEp} (hok : WriteOk w.ep p sync) (hjob : SameJob w p)
    (hrudi : p.pds ≠ .rudi) (hg : getRxDesc w.ep env p true sync .ok = (s1, .later id)) :
    ChangesOk w.ep p Access.remoteWrite (rxReqBody s1 env p false true true (some id)).1.mem := by
  intro a hne
  have hlook := (getRxDesc_later hg).1
  have hkey : (w.ep.desc id).msgKey = p.msgKey := by simpa using List.find?_some hlook
  have hlast := h.msg id (List.mem_of_find?_eq_some hlook) (sesRc_of_later hg)
  have hca : CachedAt w.ep id := fun i hi =>
    ⟨by rw [(hlast i hi).enabled]; decide, (hlast i hi).cached⟩
  obtain ⟨i, hi, hfull, hhas⟩ := later_confined hok hrudi hg hca hne
  obtain ⟨henabled, haccess, hreach, hallows, -⟩ := hlast i hi
  refine ⟨i, ⟨henabled, by rw [hfull], haccess, hreach, ?_⟩, hhas⟩
  rw [hkey] at hallows
  unfold MrDesc.allowsJob at hallows ⊢
  cases hres : (w.ep.dom.mr i).jobRestricted with
  | false => rfl
  | true =>
    rw [hres] at hallows
    rw [hjob hrudi id hlook i hi hres]
    exact hallows

theorem Live.write_authorised (h : Live w) (env : RxEnv) (hok : WriteOk w.ep p sync) (hjob : SameJob w p) :
    ChangesOk w.ep p Access.remoteWrite (rxReqPkt w.ep env p false true sync).1.mem := by
  unfold rxReqPkt
  by_cases hrudi : p.pds = .rudi
  · rw [if_pos (by simp [hrudi])]
    exact rudiWrite_authorised h.domain hok hrudi
  rw [if_neg (by simp [hrudi])]
  have hk := keeps_getRxDesc w.ep env p true sync .ok
  cases hg : getRxDesc w.ep env p true sync .ok with
  | mk s1 look =>
    rw [hg] at hk
    cases look with
    | done rc => exact fun a hne => absurd (by rw [hk.mem]) hne
    | later id => exact h.later_authorised hok hjob hrudi hg
    | first id =>
      obtain ⟨d, rfl⟩ := getRxDesc_first_write hg
      exact first_authorised h.domain hok hrudi hg

theorem Live.accessOk {ev : RxEv} (h : Live w) (hc : Orderly w ev) : AccessOk w.ep ev := by
  cases ev with
  | req env p =>
    simp only [Orderly] at hc
    simp only [AccessOk, RxEp.step, rxReq]
    cases hop : p.opcode with
    | write | syncWrite =>
      rw [hop] at hc
      exact h.write_authorised env hc.1 hc.2
    | read => exact fun i off len hr => read_authorised h.domain hr
    | _ => exact trivial
  | atomic env p ext =>
    simp only [AccessOk, RxEp.step]
    have hfetch := fetchAtomic_authorised h.domain p ext
    cases hop : p.opcode with
    | atomic | syncAtomic => exact ⟨atomic_authorised h.domain env p ext _, by simp⟩
    | fetchAtomic => exact ⟨hfetch.1, fun _ => hfetch.2⟩
    | _ => exact ⟨.refl _ _ _, by simp⟩
  | _ => exact trivial

section

variable (ep : EpId) (n : Nat) (pos : 0 < n) (small : n ≤ 2 ^ 48) (mem : Mem) (descs : Nat) (fmt : CqFormat) (mtu : Nat) (rod : Bool) (life idle : Nat) (jobs : RxMsgKey → JobId)
include ep n pos small mem descs fmt mtu rod life idle jobs

theorem live_init : Live ⟨RxEp.init ep (Domain.init n pos small) mem descs fmt mtu rod life idle, jobs⟩ :=
  ⟨domainOk_init n pos small, fun id hid => by cases hid⟩

/-- In every orderly run, whatever a write, read or atomic packet does to the bytes of a region
is authorised at the moment the packet is processed. -/
theorem access_authorised (evs : List RxEv) (ev : RxEv) :
    let s := RxEp.init ep (Domain.init n pos small) mem descs fmt mtu rod life idle
    Meets Watched.step Orderly ⟨s, jobs⟩ (evs ++ [ev]) → AccessOk (s.run evs) ev := by
  intro s hrun
  obtain ⟨hbefore, hlast, -⟩ := meets_append.1 hrun
  have hlive : Live (evs.foldl Watched.step ⟨s, jobs⟩) := hbefore.keep (fun _ _ h hc => h.step hc)
      (live_init ep n pos small mem descs fmt mtu rod life idle jobs)
  rw [← watched_run_ep ⟨s, jobs⟩ evs]
  exact hlive.accessOk hlast

end

def smallPackets : RxEp :=
  RxEp.init 0 eightRegions (fun _ => 0) 4 .data 16 false 10 10

def firstHalf : SesReq := { writeAt 0 with eom := false, reqLen := 32 }

def secondHalf : SesReq :=
  { writeAt 0 with som := false, reqLen := 32, word := 0x0000001000000010 }

def beginWrite : List RxEv := oneRegionOps ++ [.req quietEnv firstHalf]

/-- The region is disabled between the packets of a write; the second packet is stored in it
all the same. -/
theorem stored_after_disable :
    let s := smallPackets.run (beginWrite ++ [.mrOp (.disable 0)])
    let ev := RxEv.req quietEnv secondHalf
    (s.dom.mr 0).state = .disabledReg ∧ (s.dom.mr 0).region.buf.addrs = some (run 1000 64) ∧
      s.mem 1016 = 0 ∧ (s.step ev).mem 1016 = 7 ∧ ¬ AccessOk s ev := by
  intro s ev
  have hchanged : (s.step ev).mem 1016 ≠ s.mem 1016 := by decide +kernel
  refine ⟨by decide +kernel, by decide +kernel, by decide +kernel, by decide +kernel, fun h => ?_⟩
  obtain ⟨i, hauth, -⟩ := h 1016 hchanged
  have hstate : (s.dom.mr i).state ≠ .enabled := by
    cases i with
    | zero => decide +kernel
    | succ i => exact MrState.noConfusion
  exact hstate hauth.enabled

theorem writeOk_of_contig (hwrap : (p.rxBufOff true).toNat + p.sesPayloadLen < 2 ^ 64)
    (htarget : writeTarget s p = some i) (hcontig : (s.dom.mr i).region.buf.isScattered = false)
    (hres : (s.dom.mr i).region.buf.addrs ≠ none) (hsync : writeSync s p sync = none) : WriteOk s p sync := by
  refine ⟨fun _ => hwrap, fun _ j hj hs => ?_, fun j hj => ?_, fun _ e he => ?_⟩
  · cases htarget.symm.trans hj
    rw [hcontig] at hs
    cases hs
  · cases htarget.symm.trans hj
    exact hres
  · cases hsync.symm.trans he

/-- Both packets of a write whose region stays enabled. -/
theorem access_authorised_both :
    let s := smallPackets.run beginWrite
    let ev := RxEv.req quietEnv secondHalf
    (s.step ev).mem 1016 ≠ s.mem 1016 ∧ AccessOk s ev := by
  refine ⟨by decide +kernel, ?_⟩
  refine access_authorised 0 8 (by decide) (by decide) (fun _ => 0) 4 .data 16 false 10 10
    (fun _ => 0) beginWrite (.req quietEnv secondHalf) ⟨trivial, trivial, ⟨?_, ?_⟩, ⟨?_, ?_⟩, trivial⟩
  · exact writeOk_of_contig (i := 0) (by decide +kernel) (by decide +kernel) (by decide +kernel)
      (by decide +kernel) (by decide +kernel)
  · intro _ id hid
    have hnone : rxMsgHashLookup (smallPackets.run oneRegionOps) firstHalf.msgKey = none := by
      decide +kernel
    cases hnone.symm.trans hid
  · exact writeOk_of_contig (i := 0) (by decide +kernel) (by decide +kernel) (by decide +kernel)
      (by decide +kernel) (by decide +kernel)
  · intro _ id hid i hi hres
    decide +kernel

end Uet.Ses
