import Uet.Ses.RxEvents

/-!
# What the receive functions leave alone

Memory, regions and the buffers of the messages in progress: the completion and error
functions change none of them, apart from the deferred atomic that the last message of a
sync group runs. A message in progress on a region keeps the buffer it was set up with
(`Cached`), as long as no operation writes the descriptor of its region.
-/

namespace Uet.Ses

open Function

def RxDesc.CachedFrom (d : RxDesc) (r : MrDesc) : Prop :=
  d.len = r.region.buf.len ∧
    match r.region.buf.kind with
    | .contig b => d.kind = .contig ∧ d.buf = b
    | _ => d.kind = .mr

def CachedAt (s : RxEp) (id : DescId) : Prop :=
  ∀ i, (s.desc id).mr = some i →
    (s.dom.mr i).state ≠ .inactive ∧ (s.desc id).CachedFrom (s.dom.mr i)

def RxEp.Uses (s : RxEp) (id : DescId) : Prop := id ∈ s.msgs ∨ id ∈ s.ring ∨ id ∈ s.tags

structure Cached (s : RxEp) : Prop where
  domain : DomainOk s.dom
  at_ : ∀ id, s.Uses id → CachedAt s id

structure SameBuf (d d' : RxDesc) : Prop where
  kind : d'.kind = d.kind
  buf : d'.buf = d.buf
  len : d'.len = d.len
  mr : d'.mr = d.mr

theorem SameBuf.refl (d : RxDesc) : SameBuf d d := ⟨rfl, rfl, rfl, rfl⟩

theorem SameBuf.trans {a b c : RxDesc} (h : SameBuf a b) (h' : SameBuf b c) : SameBuf a c :=
  ⟨h'.kind.trans h.kind, h'.buf.trans h.buf, h'.len.trans h.len, h'.mr.trans h.mr⟩

variable {d : RxDesc} {s s' : RxEp} {id : DescId} {g : SyncEntry} {env : RxEnv} {p : SesReq} {sync : Bool}
  {rc : SesRc} {id' : DescId} {write : Bool}

theorem SameBuf.cachedFrom {d' : RxDesc} (h : SameBuf d d') {r : MrDesc} (hc : d.CachedFrom r) : d'.CachedFrom r := by
  unfold RxDesc.CachedFrom
  rw [h.len, h.kind, h.buf]
  exact hc

/-- Memory and regions stay, no message or receive is added and every descriptor keeps its
buffer. -/
structure Tail (s s' : RxEp) : Prop where
  ep : s'.ep = s.ep
  mem : s'.mem = s.mem
  dom : s'.dom = s.dom
  buf : ∀ id, SameBuf (s.desc id) (s'.desc id)
  uses : ∀ id, s'.Uses id → s.Uses id

theorem Tail.refl (s : RxEp) : Tail s s := ⟨rfl, rfl, rfl, fun _ => .refl _, fun _ h => h⟩

variable {a b c : RxEp}

theorem Tail.trans (h : Tail a b) (h' : Tail b c) : Tail a c :=
  ⟨h'.ep.trans h.ep, h'.mem.trans h.mem, h'.dom.trans h.dom, fun id => (h.buf id).trans (h'.buf id),
    fun id hm => h.uses id (h'.uses id hm)⟩

theorem Tail.cachedAt (h : Tail s s') (hc : CachedAt s id) : CachedAt s' id := by
  intro i hi
  rw [h.dom]
  exact (hc i ((h.buf id).mr.symm.trans hi)).imp_right (h.buf id).cachedFrom

theorem Tail.cached (h : Tail s s') (hc : Cached s) : Cached s' :=
  ⟨by rw [h.dom]; exact hc.domain, fun id hm => h.cachedAt (hc.at_ id (h.uses id hm))⟩

theorem sameBuf_update (s : RxEp) (id j : DescId) (h : SameBuf (s.desc id) d) :
    SameBuf (s.desc j) (update s.desc id d j) := by
  by_cases hj : j = id
  · subst hj
    rwa [update_self]
  · rw [update_of_ne hj]
    exact .refl _

theorem tail_setDesc (s : RxEp) (id : DescId) {f : RxDesc → RxDesc} (h : ∀ d, SameBuf d (f d)) : Tail s (s.setDesc id f) :=
  ⟨rfl, rfl, rfl, fun j => sameBuf_update s id j (h _), fun _ h => h⟩

/-! ## What stays of a message -/

structure Kept (d d' : RxDesc) : Prop where
  buf : SameBuf d d'
  msgKey : d'.msgKey = d.msgKey
  sesRc : d'.sesRc = .ok → d.sesRc = .ok

theorem Kept.refl (d : RxDesc) : Kept d d := ⟨.refl d, rfl, id⟩

theorem Kept.trans {a b c : RxDesc} (h : Kept a b) (h' : Kept b c) : Kept a c :=
  ⟨h.buf.trans h'.buf, h'.msgKey.trans h.msgKey, fun hc => h.sesRc (h'.sesRc hc)⟩

structure Quiet (s s' : RxEp) : Prop where
  ep : s'.ep = s.ep
  dom : s'.dom = s.dom
  desc : ∀ id, Kept (s.desc id) (s'.desc id)
  msgs : ∀ id ∈ s'.msgs, id ∈ s.msgs

theorem Quiet.refl (s : RxEp) : Quiet s s := ⟨rfl, rfl, fun _ => .refl _, fun _ h => h⟩

theorem Quiet.trans (h : Quiet a b) (h' : Quiet b c) : Quiet a c :=
  ⟨h'.ep.trans h.ep, h'.dom.trans h.dom, fun id => (h.desc id).trans (h'.desc id),
    fun id hm => h.msgs id (h'.msgs id hm)⟩

theorem Quiet.of_eq (hep : s'.ep = s.ep) (hdom : s'.dom = s.dom)
    (hdesc : s'.desc = s.desc) (hmsgs : s'.msgs = s.msgs) : Quiet s s' :=
  ⟨hep, hdom, fun _ => hdesc ▸ .refl _, fun _ hm => hmsgs ▸ hm⟩

theorem kept_update (s : RxEp) (id j : DescId) (h : Kept (s.desc id) d) :
    Kept (s.desc j) (update s.desc id d j) := by
  by_cases hj : j = id
  · subst hj
    rwa [update_self]
  · rw [update_of_ne hj]
    exact .refl _

theorem Kept.of_eq {d d' : RxDesc} (hkind : d'.kind = d.kind) (hbuf : d'.buf = d.buf)
    (hlen : d'.len = d.len) (hmr : d'.mr = d.mr) (hkey : d'.msgKey = d.msgKey)
    (hrc : d'.sesRc = d.sesRc) : Kept d d' := ⟨⟨hkind, hbuf, hlen, hmr⟩, hkey, fun h => hrc ▸ h⟩

structure Settled (s s' : RxEp) : Prop where
  tail : Tail s s'
  quiet : Quiet s s'

theorem Settled.refl (s : RxEp) : Settled s s := ⟨.refl s, .refl s⟩

theorem Settled.trans (h : Settled a b) (h' : Settled b c) : Settled a c :=
  ⟨h.tail.trans h'.tail, h.quiet.trans h'.quiet⟩

theorem Settled.of_desc (hep : s'.ep = s.ep) (hmem : s'.mem = s.mem) (hdom : s'.dom = s.dom)
    (hdesc : ∀ id, Kept (s.desc id) (s'.desc id)) (huses : ∀ id, s'.Uses id → s.Uses id)
    (hmsgs : ∀ id ∈ s'.msgs, id ∈ s.msgs) : Settled s s' :=
  ⟨⟨hep, hmem, hdom, fun id => (hdesc id).buf, huses⟩, hep, hdom, hdesc, hmsgs⟩

section

variable (s : RxEp) (id : DescId)

theorem settled_setDesc {f : RxDesc → RxDesc} (h : ∀ d, Kept d (f d)) : Settled s (s.setDesc id f) :=
  .of_desc rfl rfl rfl (fun j => kept_update s id j (h _)) (fun _ h => h) fun _ h => h

theorem settled_setSync (e : SyncId) (f : SyncEntry → SyncEntry) : Settled s (s.setSync e f) :=
  .of_desc rfl rfl rfl (fun _ => .refl _) (fun _ h => h) fun _ h => h

theorem settled_rxDescListInsert : Settled s (rxDescListInsert s id) :=
  .of_desc rfl rfl rfl (fun j => kept_update s id j (.of_eq rfl rfl rfl rfl rfl rfl)) (fun _ h => h) fun _ h => h

theorem settled_rxDescActiveListMoveToTail (now : Nat) : Settled s (rxDescActiveListMoveToTail s now id) :=
  .of_desc rfl rfl rfl (fun j => kept_update s id j (.of_eq rfl rfl rfl rfl rfl rfl)) (fun _ h => h) fun _ h => h

theorem settled_rxDescActiveListRemove : Settled s (rxDescActiveListRemove s id) := by
  unfold rxDescActiveListRemove
  split
  · exact .of_desc rfl rfl rfl (fun j => kept_update s id j (.of_eq rfl rfl rfl rfl rfl rfl)) (fun _ h => h) fun _ h => h
  · exact .refl s

theorem settled_rxMsgHashRemove : Settled s (rxMsgHashRemove s id) := by
  unfold rxMsgHashRemove
  split
  · exact .of_desc rfl rfl rfl (fun j => kept_update s id j (.of_eq rfl rfl rfl rfl rfl rfl))
      (fun _ h => h.imp_left List.mem_of_mem_filter) fun _ h => List.mem_of_mem_filter h
  · exact .refl s

theorem settled_rxDescRecycle (avail : Bool) : Settled s (rxDescRecycle s id avail) := by
  have h := (settled_rxDescActiveListRemove s id).trans (settled_rxMsgHashRemove _ id)
  unfold rxDescRecycle
  split
  · exact h.trans (settled_rxDescListInsert _ id)
  · exact h

theorem settled_rxCqPost (entry : RxCqEntry) : Settled s (rxCqPost s id entry) := by
  refine (settled_rxDescRecycle s id false).trans ?_
  exact .of_desc rfl rfl rfl (fun _ => .refl _) (fun _ h => h) fun _ h => h

theorem settled_syncGrpSrcFepHashRemove (e : SyncId) : Settled s (syncGrpSrcFepHashRemove s e) :=
  .of_desc rfl rfl rfl (fun _ => .refl _) (fun _ h => h) fun _ h => h

theorem settled_rxCqErrFinish (code : Nat)
    (terminating : Option (DescId × Nat)) : Settled s (rxCqErrFinish s id code terminating) := by
  unfold rxCqErrFinish
  dsimp only
  split
  · split
    · exact (settled_rxDescRecycle s id true).trans (settled_rxCqPost _ _ _)
    · exact settled_rxDescRecycle s id true
  · exact settled_rxCqPost s id _

theorem settled_rxCqPostErr (code : Nat) : Settled s (rxCqPostErr s id code) := by
  unfold rxCqPostErr
  split
  · exact settled_rxCqErrFinish s id code none
  rename_i e _
  dsimp only
  split
  · exact ((settled_setSync s e _).trans (settled_syncGrpSrcFepHashRemove _ e)).trans
      (settled_rxCqErrFinish _ id code _)
  · exact (settled_setSync s e _).trans (settled_rxCqErrFinish _ id code none)

theorem settled_setRemaining (n : Nat) : Settled s (s.setRemaining id n) :=
  settled_setDesc s id fun _ => .of_eq rfl rfl rfl rfl rfl rfl

theorem settled_rxMsgErrCount (n : Nat) : Settled s (rxMsgErrCount s n id) := by
  unfold rxMsgErrCount
  split
  · exact (settled_setRemaining s id 0).trans (settled_rxCqPostErr _ id _)
  · exact settled_setRemaining s id _

theorem settled_rxMsgErrDesc (p : SesReq) (n : Nat) : Settled s (rxMsgErrDesc s p n id) := by
  unfold rxMsgErrDesc
  split
  · split
    · exact settled_rxCqPostErr s id _
    · exact (settled_setRemaining s id 0).trans (settled_rxCqPostErr _ id _)
    · exact (settled_setRemaining s id _).trans (settled_rxMsgErrCount _ id n)
  · exact settled_rxMsgErrCount s id n

theorem settled_rxCqFinish (terminating : Option (DescId × Bool × Nat)) :
    Settled s (rxCqFinish s id terminating) := by
  unfold rxCqFinish
  split
  · exact settled_rxCqPost s id _
  split
  · exact (settled_rxDescRecycle s id true).trans (settled_rxCqPostErr _ _ _)
  · exact (settled_rxDescRecycle s id true).trans (settled_rxCqPost _ _ _)
  · exact settled_rxDescRecycle s id true

theorem settled_markErr (rc : SesRc) : Settled s (s.setDesc id (.markErr rc)) := by
  refine settled_setDesc s id fun d => ⟨⟨rfl, rfl, rfl, rfl⟩, rfl, fun h => ?_⟩
  unfold RxDesc.markErr at h
  split at h
  · assumption
  · exact h

theorem settled_rxMsgErr (now : Nat) (p : SesReq) (n : Nat) (rc : SesRc) :
    Settled s (rxMsgErr s now p n (some id) rc).1 :=
  (settled_markErr s id rc).trans (settled_rxMsgErrDesc _ id p n)

end

/-! ## The deferred atomic -/

def SyncEntry.atomicDue (g : SyncEntry) : Bool :=
  g.terminatingAtomic && !g.terminatingErr && g.cmplCnt + 1 == g.totCnt

theorem SyncEntry.atomicDue_iff : g.atomicDue = true ↔
    g.terminatingAtomic = true ∧ g.terminatingErr = false ∧ g.cmplCnt + 1 = g.totCnt := by
  rw [atomicDue, Bool.and_eq_true, Bool.and_eq_true, Bool.not_eq_true', beq_iff_eq, and_assoc]

def entryMem (s : RxEp) (id : DescId) : Mem :=
  match (s.desc id).sync with
  | none => s.mem
  | some e =>
    let g := s.sync e
    if g.atomicDue then fetchAdd64 s.mem g.atomicAddr g.atomicData else s.mem

theorem settled_rxCqPostEntry (s : RxEp) (id : DescId) :
    Settled { s with mem := entryMem s id } (rxCqPostEntry s id) := by
  -- the counter of the group and its removal
  have hpre : ∀ (s0 : RxEp) (e : SyncId) (f : SyncEntry → SyncEntry),
      Settled s0 (syncGrpSrcFepHashRemove (s0.setSync e f) e) := fun s0 e f =>
    (settled_setSync s0 e f).trans (settled_syncGrpSrcFepHashRemove _ e)
  unfold rxCqPostEntry entryMem
  cases hs : (s.desc id).sync with
  | none => exact settled_rxCqFinish s id none
  | some e =>
    dsimp only
    by_cases hlast : (s.sync e).cmplCnt + 1 = (s.sync e).totCnt
    · rw [if_pos hlast]
      by_cases ha : (s.sync e).terminatingAtomic = true
      · rw [if_pos ha]
        by_cases he : (s.sync e).terminatingErr = true
        · rw [if_pos he, if_neg (by simp [SyncEntry.atomicDue_iff, he])]
          exact (hpre s e _).trans (settled_rxCqFinish _ id none)
        rw [if_neg he, if_pos (SyncEntry.atomicDue_iff.2 ⟨ha, by simpa using he, hlast⟩)]
        generalize fetchAdd64 s.mem (s.sync e).atomicAddr (s.sync e).atomicData = m
        refine Settled.trans ?_ (settled_rxCqFinish _ id none)
        exact .of_desc rfl rfl rfl (fun _ => .refl _) (fun _ h => h) fun _ h => h
      · rw [if_neg ha, if_neg (by simp [SyncEntry.atomicDue_iff, ha])]
        exact (hpre s e _).trans (settled_rxCqFinish _ id _)
    · rw [if_neg hlast, if_neg fun h => hlast (SyncEntry.atomicDue_iff.1 h).2.2]
      split
      · exact settled_setSync s e _
      · exact (settled_setSync s e _).trans (settled_rxCqFinish _ id none)

/-! ## Functions that start or refuse a message -/

structure Keeps (s s' : RxEp) : Prop where
  ep : s'.ep = s.ep
  mem : s'.mem = s.mem
  dom : s'.dom = s.dom
  cached : Cached s → Cached s'

theorem Tail.keeps (h : Tail s s') : Keeps s s' := ⟨h.ep, h.mem, h.dom, h.cached⟩

theorem Keeps.trans (h : Keeps a b) (h' : Keeps b c) : Keeps a c :=
  ⟨h'.ep.trans h.ep, h'.mem.trans h.mem, h'.dom.trans h.dom, fun hc => h'.cached (h.cached hc)⟩

theorem keeps_setDesc_fresh (s : RxEp) (id : DescId) (hd : d.mr = none) : Keeps s (s.setDesc id fun _ => d) := by
  refine ⟨rfl, rfl, rfl, fun hc => ⟨hc.domain, fun j hj i hi => ?_⟩⟩
  by_cases hji : j = id
  · subst hji
    simp only [RxEp.setDesc, update_self, hd] at hi
    cases hi
  · simp only [RxEp.setDesc, update_of_ne hji] at hi ⊢
    exact hc.at_ j hj i hi

section

variable (s) (now)

theorem sameBuf_rxMsgStart (p : SesReq) (id j : DescId) :
    SameBuf (s.desc j) ((rxMsgStart s now p id).desc j) := by
  have h1 : ∀ s : RxEp, SameBuf (s.desc j) ((rxDescActiveListInsert s now id).desc j) :=
    fun s => sameBuf_update s id j (by exact ⟨rfl, rfl, rfl, rfl⟩)
  have h2 : ∀ s : RxEp, SameBuf (s.desc j) ((rxMsgHashInsert s id).desc j) :=
    fun s => sameBuf_update s id j (by exact ⟨rfl, rfl, rfl, rfl⟩)
  exact ((sameBuf_update s id j (by exact ⟨rfl, rfl, rfl, rfl⟩)).trans
    (h1 (s.setDesc id (.start p)))).trans (h2 _)

theorem keeps_rxMsgStart (p : SesReq) (id : DescId)
    (hid : CachedAt s id) : Keeps s (rxMsgStart s now p id) := by
  have hbuf := sameBuf_rxMsgStart s now p id
  refine ⟨rfl, rfl, rfl, fun hc => ⟨hc.domain, fun j hj i hi => ?_⟩⟩
  rw [(hbuf j).mr] at hi
  refine And.imp_right (hbuf j).cachedFrom ?_
  by_cases hji : j = id
  · subst hji
    exact hid i hi
  · exact hc.at_ j (hj.imp_left fun h => (List.mem_cons.1 h).resolve_left hji) i hi

theorem keeps_initErrRxDesc (p : SesReq) (id : DescId) (rc : SesRc)
    (hid : (s.desc id).mr = none) : Keeps s (initErrRxDesc s now p id rc) := by
  have htrack : Tail s (s.setDesc id (.trackErr rc)) := tail_setDesc s id fun _ => ⟨rfl, rfl, rfl, rfl⟩
  refine htrack.keeps.trans (keeps_rxMsgStart _ now p id fun i hi => ?_)
  rw [(htrack.buf id).mr, hid] at hi
  cases hi

theorem keeps_rxMsgErr (p : SesReq) (n : Nat) (id : Option DescId)
    (rc : SesRc) : Keeps s (rxMsgErr s now p n id rc).1 := by
  cases id with
  | some => exact (settled_rxMsgErr ..).tail.keeps
  | none =>
    simp only [rxMsgErr, rxDescListPop]
    cases hf : s.free with
    | nil => exact (Tail.refl s).keeps
    | cons id rest =>
      have hpop : Keeps s { s with free := rest } :=
        Tail.keeps ⟨rfl, rfl, rfl, fun _ => .refl _, fun _ h => h⟩
      have hzero := keeps_setDesc_fresh { s with free := rest } id (d := RxDesc.zero) rfl
      have herr := keeps_initErrRxDesc _ now p id rc
        (show ((({ s with free := rest } : RxEp).setDesc id fun _ => .zero).desc id).mr = none by
          simp [RxEp.setDesc, RxDesc.zero])
      exact hpop.trans (hzero.trans (herr.trans (settled_rxMsgErrDesc _ id p n).tail.keeps))

end

/-! ## Sync groups -/

def SyncEntry.mayRun (g : SyncEntry) : Bool :=
  g.terminatingAtomic && !g.terminatingErr && (g.totCnt == 0 || g.cmplCnt + 1 == g.totCnt)

theorem SyncEntry.mayRun_of_atomicDue (h : g.atomicDue = true) : g.mayRun = true := by
  obtain ⟨h1, h2, h3⟩ := atomicDue_iff.1 h
  rw [mayRun, h1, h2, h3]
  simp

def syncOf (s : RxEp) (p : SesReq) (sync : Bool) (d : RxDesc) : Option SyncId :=
  match d.sync with
  | some e => some e
  | none => if sync then s.syncs.find? fun e => (s.sync e).key == ⟨p.src, p.syncGrp⟩ else none

def NoAtomic (s : RxEp) (id : DescId) : Prop :=
  ∀ e, (s.desc id).sync = some e → (s.sync e).mayRun = false

theorem settled_syncGrpFind {e : SyncId} (h : syncGrpFind s env p id = some (s', e)) : Settled s s' := by
  unfold syncGrpFind at h
  dsimp only at h
  split at h
  · cases h
    exact .refl s
  split at h
  · cases h
    exact settled_setDesc s id fun _ => .of_eq rfl rfl rfl rfl rfl rfl
  split at h
  · cases h
    exact .of_desc rfl rfl rfl (fun j => kept_update _ id j (.of_eq rfl rfl rfl rfl rfl rfl)) (fun _ h => h) fun _ h => h
  · cases h

theorem settled_getSyncGrpSrcFep (s : RxEp) (env : RxEnv) (p : SesReq) (id : DescId) (new : Bool) :
    Settled s (getSyncGrpSrcFep s env p id new).1 := by
  unfold getSyncGrpSrcFep
  split
  · exact .refl s
  rename_i s1 e h
  dsimp only
  exact (settled_syncGrpFind h).trans (settled_setSync s1 e _)

theorem SyncEntry.mayRun_count (h : g.mayRun = false) (p : SesReq) (id : DescId) (new : Bool) :
    (g.count p id new).1.mayRun = false := by
  unfold count
  split
  · exact h
  -- ending the group sets its count where it was zero
  have h1 : (if p.hd then { g with totCnt := p.syncCnt, terminatingRxDesc := some id }
      else g).mayRun = false := by
    split
    · simp_all [mayRun]
    · exact h
  generalize (if p.hd then { g with totCnt := p.syncCnt, terminatingRxDesc := some id } else g) = g1 at h1
  dsimp only
  split
  · split
    · split
      · simp [mayRun]
      · exact h1
    · exact h1
  · exact h1

theorem syncGrpFind_noAtomic {e : SyncId} (h : syncGrpFind s env p id = some (s', e))
    (hno : ∀ e, syncOf s p true (s.desc id) = some e → (s.sync e).mayRun = false) :
    (s'.desc id).sync = some e ∧ (s'.sync e).mayRun = false := by
  unfold syncGrpFind at h
  unfold syncOf at hno
  cases hs : (s.desc id).sync with
  | some e0 =>
    simp only [hs] at h hno
    cases h
    exact ⟨hs, hno e rfl⟩
  | none =>
    simp only [hs, if_true] at h hno
    split at h
    · rename_i e0 hf
      cases h
      refine ⟨by simp [RxEp.setDesc], hno e hf⟩
    split at h
    · cases h
      refine ⟨by simp [RxEp.setDesc], ?_⟩
      simp [RxEp.setDesc, RxEp.setSync, SyncEntry.new, SyncEntry.mayRun]
    · cases h

theorem noAtomic_getSyncGrpSrcFep (new : Bool)
    (hno : ∀ e, syncOf s p true (s.desc id) = some e → (s.sync e).mayRun = false) :
    NoAtomic (getSyncGrpSrcFep s env p id new).1 id := by
  unfold getSyncGrpSrcFep
  split
  · rename_i h
    intro e he
    have he : (s.desc id).sync = some e := he
    simp only [syncGrpFind, he] at h
    cases h
  · rename_i s1 e h
    obtain ⟨h1, h2⟩ := syncGrpFind_noAtomic h hno
    intro e' he'
    have hee : e = e' := Option.some.inj (h1.symm.trans he')
    subst hee
    simp only [RxEp.setSync, update_self]
    exact SyncEntry.mayRun_count h2 p id new

/-! ## The lookup -/

theorem settled_syncGrpIf (sync : Bool) (s : RxEp) (env : RxEnv) (p : SesReq) (id : DescId)
    (new : Bool) : Settled s (syncGrpIf sync s env p id new).1 := by
  unfold syncGrpIf
  split
  · exact settled_getSyncGrpSrcFep s env p id new
  · exact .refl s

theorem noAtomic_syncGrpIf (new : Bool) (hno : ∀ e, syncOf s p sync (s.desc id) = some e → (s.sync e).mayRun = false) :
    NoAtomic (syncGrpIf sync s env p id new).1 id := by
  unfold syncGrpIf
  cases sync
  · exact fun e he => hno e (by rw [syncOf, show (s.desc id).sync = some e from he])
  · exact noAtomic_getSyncGrpSrcFep new hno

theorem getRxDesc_eq_later (h : getRxDesc s env p write sync rc = (s', .later id)) :
    rxMsgHashLookup s p.msgKey = some id ∧ getRxDescLater s env p sync rc id = (s', .later id) := by
  unfold getRxDesc at h
  split at h
  · rename_i id0 hlook
    have hid : id0 = id := by
      unfold getRxDescLater at h
      dsimp only at h
      split at h
      · cases h
      · cases h
        rfl
    exact ⟨hid ▸ hlook, hid ▸ h⟩
  split at h
  · cases h
  split at h
  · cases h
  · unfold getRxDescNew at h
    dsimp only at h
    split at h
    · cases h
    · split at h <;> cases h

theorem getRxDesc_eq_first {o : Option DescId} (h : getRxDesc s env p write sync rc = (s', .first o)) :
    rxMsgHashLookup s p.msgKey = none ∧ (write = false ∧ rc = .ok ∧ s' = s ∧ o = none ∨
      ∃ id s0, rxDescListPop s = some (id, s0) ∧ o = some id ∧ (write = false → rc ≠ .ok) ∧
        getRxDescNew s0 env p write sync rc id = (s', .first o)) := by
  unfold getRxDesc at h
  split at h
  · unfold getRxDescLater at h
    dsimp only at h
    split at h <;> cases h
  rename_i hlook
  refine ⟨hlook, ?_⟩
  split at h
  · rename_i hplain
    cases h
    exact .inl (by simpa using hplain)
  rename_i hplain
  split at h
  · cases h
  rename_i id s0 hpop
  refine .inr ⟨id, s0, hpop, ?_, by simpa using hplain, h⟩
  unfold getRxDescNew at h
  dsimp only at h
  split at h
  · cases h
  split at h <;> cases h
  rfl

theorem settled_getRxDescLater (s : RxEp) (env : RxEnv) (p : SesReq) (sync : Bool) (rc : SesRc)
    (id : DescId) : Settled s (getRxDescLater s env p sync rc id).1 := by
  have h := (settled_syncGrpIf sync s env p id false).trans (settled_rxDescActiveListMoveToTail _ id env.now)
  unfold getRxDescLater
  dsimp only
  split
  · exact h.trans (settled_rxMsgErr _ _ env.now _ _ _)
  · exact h

theorem cachedFrom_target (i : MrIdx) (r : MrDesc) (d : RxDesc) : (d.target i r).CachedFrom r := by
  refine ⟨rfl, ?_⟩
  unfold RxDesc.target
  cases r.region.buf.kind <;> simp

theorem cachedAt_target (s : RxEp) (id : DescId) {i : MrIdx} (hi : (s.dom.mr i).state ≠ .inactive) :
    CachedAt (s.setDesc id (.target i (s.dom.mr i))) id := by
  intro j hj
  simp only [RxEp.setDesc, update_self] at hj ⊢
  cases (show some i = some j from hj)
  exact ⟨hi, cachedFrom_target i _ _⟩

theorem DomainOk.active_of_getMrDesc {d : Domain} (h : DomainOk d) {e : EpId} {key : MrKey}
    {job : JobId} {i : MrIdx} (hg : getMrDesc d e key job = some i) : (d.mr i).state ≠ .inactive := by
  rw [(h.getMrDesc_some hg).1.1]
  decide

theorem keeps_target (s : RxEp) (id : DescId) {e : EpId} {key : MrKey} {job : JobId} {i : MrIdx}
    (hg : getMrDesc s.dom e key job = some i) : Keeps s (s.setDesc id (.target i (s.dom.mr i))) := by
  refine ⟨rfl, rfl, rfl, fun hc => ⟨hc.domain, fun j hj => ?_⟩⟩
  by_cases hji : j = id
  · rw [hji]
    exact cachedAt_target s id (hc.domain.active_of_getMrDesc hg)
  intro k hk
  simp only [RxEp.setDesc, update_of_ne hji] at hk ⊢
  exact hc.at_ j hj k hk

theorem keeps_getRxDescNew (s : RxEp) (env : RxEnv) (p : SesReq) (write sync : Bool) (rc : SesRc)
    (id : DescId) : Keeps s (getRxDescNew s env p write sync rc id).1 := by
  have h0 : Keeps s (s.setDesc id fun _ => { RxDesc.zero with write }) := keeps_setDesc_fresh s id rfl
  have hmr : ((s.setDesc id fun _ => { RxDesc.zero with write }).desc id).mr = none := by
    simp [RxEp.setDesc, RxDesc.zero]
  unfold getRxDescNew
  generalize s.setDesc id (fun _ => { RxDesc.zero with write }) = s0 at h0 hmr
  have h1 := (settled_syncGrpIf sync s0 env p id true).tail
  dsimp only
  generalize syncGrpIf sync s0 env p id true = grp at h1
  have hnone : (grp.1.desc id).mr = none := by rw [(h1.buf id).mr, hmr]
  have herr : ∀ rc', Keeps s
      (rxMsgErr (initErrRxDesc grp.1 env.now p id rc') env.now p p.sesPayloadLen (some id) rc').1 :=
    fun rc' => h0.trans (h1.keeps.trans ((keeps_initErrRxDesc _ _ _ _ _ hnone).trans
      (keeps_rxMsgErr _ _ _ _ _ _)))
  split
  · exact herr _
  split
  · exact herr _
  · rename_i hg
    exact h0.trans (h1.keeps.trans (keeps_target _ id hg))

theorem getRxDescNew_eq_first {id' : Option DescId} (hd : DomainOk s.dom)
    (h : getRxDescNew s env p write sync rc id = (s', .first id')) : id' = some id ∧ CachedAt s' id ∧
      (∃ i, (s'.desc id).mr = some i ∧ getMrDesc s.dom s.ep p.matchBits p.jobId = some i) ∧
      ((∀ e, syncOf s p sync RxDesc.zero = some e → (s.sync e).mayRun = false) → NoAtomic s' id) := by
  have hno : (∀ e, syncOf s p sync RxDesc.zero = some e → (s.sync e).mayRun = false) → ∀ e,
      syncOf (s.setDesc id fun _ => { RxDesc.zero with write }) p sync
        ((s.setDesc id fun _ => { RxDesc.zero with write }).desc id) = some e →
      ((s.setDesc id fun _ => { RxDesc.zero with write }).sync e).mayRun = false := by
    intro hno e he
    simp only [RxEp.setDesc, update_self] at he
    exact hno e he
  have hdom : (s.setDesc id fun _ => { RxDesc.zero with write }).dom = s.dom := rfl
  have hep : (s.setDesc id fun _ => { RxDesc.zero with write }).ep = s.ep := rfl
  unfold getRxDescNew at h
  generalize s.setDesc id (fun _ => { RxDesc.zero with write }) = s0 at h hdom hep hno
  have h1 := (settled_syncGrpIf sync s0 env p id true).tail
  have h2 : _ → NoAtomic (syncGrpIf sync s0 env p id true).1 id := fun h => noAtomic_syncGrpIf true (hno h)
  dsimp only at h
  generalize syncGrpIf sync s0 env p id true = grp at h h1 h2
  split at h
  · cases h
  split at h
  · cases h
  rename_i i hi
  cases h
  have hg : getMrDesc s.dom s.ep p.matchBits p.jobId = some i := by
    rw [← hdom, ← hep, ← h1.dom, ← h1.ep]
    exact hi
  refine ⟨rfl, cachedAt_target _ id ?_, ⟨i, ?_, hg⟩, ?_⟩
  · rw [h1.dom, hdom]
    exact hd.active_of_getMrDesc hg
  · simp [RxEp.setDesc, RxDesc.target]
  · exact fun h e he => h2 h e (by simpa [RxEp.setDesc, RxDesc.target] using he)

theorem keeps_pop (h : rxDescListPop s = some (id, s')) : Keeps s s' := by
  unfold rxDescListPop at h
  split at h
  · cases h
  · cases h
    exact Tail.keeps ⟨rfl, rfl, rfl, fun _ => .refl _, fun _ h => h⟩

theorem keeps_getRxDesc (s : RxEp) (env : RxEnv) (p : SesReq) (write sync : Bool) (rc : SesRc) :
    Keeps s (getRxDesc s env p write sync rc).1 := by
  unfold getRxDesc
  split
  · exact (settled_getRxDescLater s env p sync rc _).tail.keeps
  split
  · exact (Tail.refl s).keeps
  split
  · exact (Tail.refl s).keeps
  · rename_i hpop
    exact (keeps_pop hpop).trans (keeps_getRxDescNew _ env p write sync rc _)

theorem getRxDesc_first {id : Option DescId} (hd : DomainOk s.dom)
    (h : getRxDesc s env p write sync rc = (s', .first id)) :
    ∀ d, id = some d → CachedAt s' d ∧ rxMsgHashLookup s p.msgKey = none ∧
      (∃ i, (s'.desc d).mr = some i ∧ getMrDesc s.dom s.ep p.matchBits p.jobId = some i) ∧
      ((∀ e, syncOf s p sync RxDesc.zero = some e → (s.sync e).mayRun = false) → NoAtomic s' d) := by
  rintro d rfl
  obtain ⟨hlook, ⟨-, -, -, hnone⟩ | ⟨id0, s0, hpop, hid, -, hnew⟩⟩ := getRxDesc_eq_first h
  · cases hnone
  cases hid
  unfold rxDescListPop at hpop
  split at hpop
  · cases hpop
  rename_i rest _
  cases hpop
  obtain ⟨-, hca, hmr, hno⟩ := getRxDescNew_eq_first (s := { s with free := rest }) hd hnew
  exact ⟨hca, hlook, hmr, hno⟩

theorem getRxDesc_first_write {id : Option DescId} (h : getRxDesc s env p true sync rc = (s', .first id)) :
    ∃ d, id = some d := by
  obtain ⟨-, ⟨hw, -⟩ | ⟨d, -, -, hid, -⟩⟩ := getRxDesc_eq_first h
  · cases hw
  · exact ⟨d, hid⟩

theorem getRxDesc_later (h : getRxDesc s env p write sync rc = (s', .later id)) :
    rxMsgHashLookup s p.msgKey = some id ∧ Tail s s' ∧
      ((∀ e, syncOf s p sync (s.desc id) = some e → (s.sync e).mayRun = false) → NoAtomic s' id) := by
  obtain ⟨hlook, hlater⟩ := getRxDesc_eq_later h
  unfold getRxDescLater at hlater
  dsimp only at hlater
  split at hlater
  · cases hlater
  cases hlater
  refine ⟨hlook, ((settled_syncGrpIf sync s env p id false).trans
    (settled_rxDescActiveListMoveToTail _ id env.now)).tail, fun hno e he => ?_⟩
  simp only [rxDescActiveListMoveToTail, RxEp.setDesc, update_self] at he ⊢
  exact noAtomic_syncGrpIf false hno e he

/-! ## The first packet -/

theorem keeps_rxUnexpected (s : RxEp) (env : RxEnv) (p : SesReq) (tagged : Bool) :
    Keeps s (rxUnexpected s env p tagged).1 := by
  unfold rxUnexpected
  dsimp only
  refine Tail.keeps ?_
  split
  · split
    · exact ⟨rfl, rfl, rfl, fun _ => .refl _, fun _ h => h⟩
    · exact .refl s
  split
  · exact ⟨rfl, rfl, rfl, fun _ => .refl _, fun _ h => h⟩
  · exact .refl s

def BufferStage (s : RxEp) : Except RxStop (RxEp × DescId) → Prop
  | .error stop => Keeps s stop.1
  | .ok r => Tail s r.1 ∧ r.1.desc = s.desc ∧ r.1.sync = s.sync

theorem bufferStage_rxFindBuffer (s : RxEp) (env : RxEnv) (p : SesReq) (tagged : Bool)
    (id : Option DescId) : BufferStage s (rxFindBuffer s env p tagged id) := by
  unfold rxFindBuffer
  split
  · split
    · exact keeps_rxUnexpected s env p true
    · split
      · exact (Tail.refl s).keeps
      · exact ⟨⟨rfl, rfl, rfl, fun _ => .refl _,
          fun _ h => h.imp_right (Or.imp_right List.mem_of_mem_filter)⟩, rfl, rfl⟩
  · split
    · split
      · exact keeps_rxUnexpected s env p false
      · split
        · exact (Tail.refl s).keeps
        · exact ⟨⟨rfl, rfl, rfl, fun _ => .refl _,
            fun _ h => h.imp_right (Or.imp_left List.mem_of_mem_tail)⟩, rfl, rfl⟩
    · split
      · exact (Tail.refl s).keeps
      · split
        · exact (Tail.refl s).keeps
        · split
          · exact (Tail.refl s).keeps
          · exact ⟨.refl s, rfl, rfl⟩

theorem rxFindBuffer_uses {tagged : Bool} {id : Option DescId} (h : rxFindBuffer s env p tagged id = .ok (s', id')) :
    s.Uses id' ∨ id = some id' := by
  unfold rxFindBuffer at h
  split at h
  · split at h
    · cases h
    · rename_i d hd
      split at h
      · cases h
      cases h
      refine Or.inl (Or.inr (Or.inr ?_))
      rcases Option.or_eq_some_iff.1 hd with hd | ⟨-, hd⟩ <;>
        exact List.mem_of_find?_eq_some hd
  · split at h
    · split at h
      · cases h
      · rename_i d rest hr
        split at h
        · cases h
        · cases h
          exact Or.inl (Or.inr (Or.inl (by rw [hr]; exact List.mem_cons_self)))
    · split at h
      · cases h
      · split at h
        · cases h
        · split at h
          · cases h
          · cases h
            exact Or.inr rfl

structure FirstPkt (s s' : RxEp) (id : DescId) : Prop where
  keeps : Keeps s s'
  cachedAt : CachedAt s' id
  buf : SameBuf (s.desc id) (s'.desc id)
  sync : (s'.desc id).sync = (s.desc id).sync
  syncs : s'.sync = s.sync

theorem firstPkt_rxMsgStart (now : Nat) (ht : Tail s s') (hdesc : s'.desc = s.desc) (hsync : s'.sync = s.sync)
    (hid : CachedAt s id) : FirstPkt s (rxMsgStart s' now p id) id where
  keeps := ht.keeps.trans (keeps_rxMsgStart s' now p id (ht.cachedAt hid))
  cachedAt := fun i hi => by
    have hbuf := sameBuf_rxMsgStart s' now p id id
    rw [hbuf.mr] at hi
    exact ((ht.cachedAt hid) i hi).imp_right hbuf.cachedFrom
  buf := (ht.buf id).trans (sameBuf_rxMsgStart s' now p id id)
  sync := by
    simp [rxMsgStart, rxMsgHashInsert, rxDescActiveListInsert, RxEp.setDesc, RxDesc.start, hdesc]
  syncs := hsync

theorem FirstPkt.setImm (h : FirstPkt s s' id) (p : SesReq) (write : Bool) :
    FirstPkt s (s'.setDesc id (.setImm p write)) id := by
  have ht : Tail s' (s'.setDesc id (.setImm p write)) := tail_setDesc s' id fun _ => ⟨rfl, rfl, rfl, rfl⟩
  refine ⟨h.keeps.trans ht.keeps, ht.cachedAt h.cachedAt, h.buf.trans (ht.buf id), ?_, h.syncs⟩
  simp [RxEp.setDesc, RxDesc.setImm, h.sync]

def FirstStage (s : RxEp) : Except RxStop (RxEp × DescId) → Prop
  | .error stop => Keeps s stop.1
  | .ok r => FirstPkt s r.1 r.2

theorem firstStage_rxFirstPkt (env : RxEnv) (p : SesReq) (tagged write : Bool) {id : Option DescId} (hc : Cached s)
    (hid : ∀ d, id = some d → CachedAt s d) : FirstStage s (rxFirstPkt s env p tagged write id) := by
  have hbuf := bufferStage_rxFindBuffer s env p tagged id
  unfold rxFirstPkt
  split
  · exact (Tail.refl s).keeps
  split
  · rename_i stop hstop
    rw [hstop] at hbuf
    exact hbuf
  rename_i s1 id1 hok
  rw [hok] at hbuf
  obtain ⟨ht, hdesc, hsync⟩ := hbuf
  have hid1 : CachedAt s id1 := (rxFindBuffer_uses hok).elim (hc.at_ id1) (hid id1)
  have hstart := firstPkt_rxMsgStart env.now (p := p) ht hdesc hsync hid1
  split
  · exact ht.keeps
  dsimp only
  split
  · split
    · exact hstart.keeps
    · exact hstart.setImm p write
  · exact hstart

/-! ## Placing a packet -/

theorem Tail.withMem (h : Tail s s') (m : Mem) : Tail { s with mem := m } { s' with mem := m } :=
  ⟨h.ep, rfl, h.dom, h.buf, h.uses⟩

theorem keeps_rxAccount (s : RxEp) (p : SesReq) (id : DescId) :
    ∃ m, Keeps { s with mem := m } (rxAccount s p id) ∧ (NoAtomic s id → m = s.mem) := by
  have ht : Tail s (s.setDesc id (.received p)) := tail_setDesc s id fun _ => ⟨rfl, rfl, rfl, rfl⟩
  have hsync : ((s.setDesc id (.received p)).desc id).sync = (s.desc id).sync := by
    simp [RxEp.setDesc, RxDesc.received]
  unfold rxAccount
  dsimp only
  split
  · refine ⟨entryMem (s.setDesc id (.received p)) id,
      ((ht.withMem _).trans (settled_rxCqPostEntry _ id).tail).keeps, fun hno => ?_⟩
    unfold entryMem
    rw [hsync]
    cases hs : (s.desc id).sync with
    | none => rfl
    | some e =>
      dsimp only
      rw [if_neg]
      · rfl
      · exact fun hdue => Bool.false_ne_true ((hno e hs).symm.trans (SyncEntry.mayRun_of_atomicDue hdue))
  · exact ⟨s.mem, ht.keeps, fun _ => rfl⟩

def Fits (s : RxEp) (p : SesReq) (write : Bool) (id : DescId) : Prop :=
  (p.rxBufOff write + BitVec.ofNat 64 p.sesPayloadLen).toNat ≤ (s.desc id).len ∧
    p.sesPayloadLen ≤ (s.desc id).remaining ∧ p.ie = false

theorem keeps_rxPlace (s : RxEp) (now : Nat) (p : SesReq) (write : Bool) (id : DescId) :
    ∃ m, Keeps { s with mem := m } (rxPlace s now p write id).1 ∧
      (NoAtomic s id → m = s.mem ∨
        Fits s p write id ∧ m = (rxScatter s p (s.desc id) (p.rxBufOff write).toNat).1) := by
  have herr : ∀ rc, ∃ m, Keeps { s with mem := m }
      (rxMsgErr s now p p.sesPayloadLen (some id) rc).1 ∧ (NoAtomic s id → m = s.mem ∨
        Fits s p write id ∧ m = (rxScatter s p (s.desc id) (p.rxBufOff write).toNat).1) :=
    fun rc => ⟨s.mem, keeps_rxMsgErr _ _ _ _ _ _, fun _ => Or.inl rfl⟩
  unfold rxPlace
  dsimp only
  by_cases h1 : (s.desc id).len < (p.rxBufOff write + BitVec.ofNat 64 p.sesPayloadLen).toNat
  · rw [if_pos h1]
    exact herr _
  rw [if_neg h1]
  by_cases h2 : (s.desc id).remaining < p.sesPayloadLen
  · rw [if_pos h2]
    exact herr _
  rw [if_neg h2]
  by_cases h3 : p.ie = true
  · rw [if_pos h3]
    exact herr _
  rw [if_neg h3]
  have hfits : Fits s p write id := ⟨by omega, by omega, by simpa using h3⟩
  generalize rxScatter s p (s.desc id) (p.rxBufOff write).toNat = copied
  split
  · obtain ⟨m, hk, hm⟩ := keeps_rxAccount { s with mem := copied.1 } p id
    exact ⟨m, hk, fun hno => Or.inr ⟨hfits, hm hno⟩⟩
  · exact ⟨copied.1, keeps_rxMsgErr _ _ _ _ _ _, fun _ => Or.inr ⟨hfits, rfl⟩⟩

theorem Cached.withMem (h : Cached s) (m : Mem) : Cached { s with mem := m } :=
  ⟨h.domain, h.at_⟩

theorem Keeps.withMem (h : Keeps s s') (m : Mem) : Keeps { s with mem := m } { s' with mem := m } :=
  ⟨h.ep, rfl, h.dom, fun hc => (h.cached (hc.withMem s.mem)).withMem m⟩

theorem rxScatter_congr {d' : RxDesc} (hm : s'.mem = s.mem) (hd : s'.dom = s.dom) (hb : SameBuf d d') (p : SesReq)
    (off : Nat) : rxScatter s' p d' off = rxScatter s p d off := by
  unfold rxScatter
  rw [hm, hd, hb.kind, hb.buf, hb.mr]

theorem rxFindBuffer_write (h : rxFindBuffer s env p false (some id) = .ok (s', id')) : id' = id := by
  simp only [rxFindBuffer, Bool.false_eq_true, if_false] at h
  split at h
  · cases h
  split at h
  · cases h
  split at h
  · cases h
  · cases h
    rfl

theorem rxFirstPkt_write (h : rxFirstPkt s env p false true (some id) = .ok (s', id')) : id' = id := by
  unfold rxFirstPkt at h
  split at h
  · cases h
  split at h
  · cases h
  rename_i s1 id1 hok
  have h1 := rxFindBuffer_write hok
  split at h
  · cases h
  dsimp only at h
  split at h
  · split at h
    · cases h
    · cases h
      exact h1
  · cases h
    exact h1

/-- The copy of a packet into the buffer of descriptor `id`. -/
def Copied (s : RxEp) (p : SesReq) (write : Bool) (id : DescId) (m : Mem) : Prop :=
  (p.rxBufOff write + BitVec.ofNat 64 p.sesPayloadLen).toNat ≤ (s.desc id).len ∧
    m = (rxScatter s p (s.desc id) (p.rxBufOff write).toNat).1

theorem keeps_rxReqBody_first (env : RxEnv) (p : SesReq) (tagged write : Bool) {id : Option DescId} (hc : Cached s)
    (hid : ∀ d, id = some d → CachedAt s d) :
    ∃ m, Keeps { s with mem := m } (rxReqBody s env p tagged write false id).1 ∧
      (m = s.mem ∨ ∃ d s', rxFirstPkt s env p tagged write id = .ok (s', d) ∧
        (NoAtomic s d → m = s.mem ∨ Copied s p write d m)) := by
  have herr : ∀ (s1 : RxEp) (id1 : Option DescId) rc, Keeps s s1 → ∃ m, Keeps { s with mem := m }
      (rxMsgErr s1 env.now p p.sesPayloadLen id1 rc).1 ∧ (m = s.mem ∨
        ∃ d s', rxFirstPkt s env p tagged write id = .ok (s', d) ∧
          (NoAtomic s d → m = s.mem ∨ Copied s p write d m)) :=
    fun s1 id1 rc hk => ⟨s.mem, hk.trans (keeps_rxMsgErr _ _ _ _ _ _), Or.inl rfl⟩
  have hrefl := (Tail.refl s).keeps
  have hfirst := firstStage_rxFirstPkt env p tagged write hc hid
  unfold rxReqBody
  split
  · exact herr s id _ hrefl
  split
  · exact herr s id _ hrefl
  simp only
  cases hpkt : rxFirstPkt s env p tagged write id with
  | error stop =>
    rw [hpkt] at hfirst
    exact ⟨s.mem, Keeps.trans hfirst (keeps_rxMsgErr _ _ _ _ _ _), Or.inl rfl⟩
  | ok r =>
    obtain ⟨s1, d⟩ := r
    rw [hpkt] at hfirst
    obtain ⟨hk1, -, hbuf, hsync, hsyncs⟩ := hfirst
    obtain ⟨m, hk, hm⟩ := keeps_rxPlace s1 env.now p write d
    refine ⟨m, (hk1.withMem m).trans hk, Or.inr ⟨d, s1, rfl, fun hno => ?_⟩⟩
    have hno1 : NoAtomic s1 d := fun e he => by
      rw [hsyncs]
      exact hno e (hsync.symm.trans he)
    refine (hm hno1).imp (fun h => h.trans hk1.mem) fun ⟨hfits, hcopy⟩ => ⟨?_, ?_⟩
    · rw [← hbuf.len]
      exact hfits.1
    · rw [hcopy, rxScatter_congr hk1.mem hk1.dom hbuf]

theorem keeps_rxReqBody_later (s : RxEp) (env : RxEnv) (p : SesReq) (tagged write : Bool) (id : DescId) :
    ∃ m, Keeps { s with mem := m } (rxReqBody s env p tagged write true (some id)).1 ∧
      (m = s.mem ∨ laterPktErr s p write id = none ∧
        (NoAtomic s id → m = s.mem ∨ Copied s p write id m)) := by
  have herr : ∀ rc, ∃ m, Keeps { s with mem := m }
      (rxMsgErr s env.now p p.sesPayloadLen (some id) rc).1 ∧ (m = s.mem ∨
        laterPktErr s p write id = none ∧ (NoAtomic s id → m = s.mem ∨ Copied s p write id m)) :=
    fun rc => ⟨s.mem, keeps_rxMsgErr _ _ _ _ _ _, Or.inl rfl⟩
  unfold rxReqBody
  split
  · exact herr _
  split
  · exact herr _
  simp only
  split
  · exact herr _
  rename_i hnone
  obtain ⟨m, hk, hm⟩ := keeps_rxPlace s env.now p write id
  exact ⟨m, hk, Or.inr ⟨hnone, fun hno => (hm hno).imp_right fun ⟨hfits, hcopy⟩ =>
    ⟨hfits.1, hcopy⟩⟩⟩

end Uet.Ses
