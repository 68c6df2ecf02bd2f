import Uet.Guarded
import Uet.Ses.RxConfine

/-!
# Remote access and its revocation

A read, an atomic, a RUDI write and the first packet of a write look their region up when they
are processed, so that a region which is disabled, bound elsewhere or restricted to another job
is not reached. The later packets of a write use the region of their message; the code
compares the key again, and nothing else.

`Live` is what a message in progress then has to be sure of: its region is still enabled, and still
allows what it allowed to the first packet. It is kept as long as no region is disabled under a write
in progress. The endpoint does not see to that.
-/

namespace Uet.Ses

open Flat Function

variable {rc : SesRc}

section

variable (s : RxEp) (id : DescId)

variable (now : Nat) (env : RxEnv) (p : SesReq) (n : Nat)

theorem quiet_setDesc {f : RxDesc → RxDesc} (h : ∀ d, Kept d (f d)) : Quiet s (s.setDesc id f) :=
  (settled_setDesc s id h).quiet

theorem quiet_rxCqPostEntry : Quiet s (rxCqPostEntry s id) :=
  Quiet.trans (b := { s with mem := entryMem s id }) (.of_eq rfl rfl rfl rfl) (settled_rxCqPostEntry s id).quiet

theorem quiet_rxMsgErr (rc : SesRc) : Quiet s (rxMsgErr s now p n (some id) rc).1 :=
  (settled_rxMsgErr s id now p n rc).quiet

theorem rxMsgErr_sesRc (hrc : rc ≠ .ok) : ((rxMsgErr s now p n (some id) rc).1.desc id).sesRc ≠ .ok := by
  intro h
  have hmarked := ((settled_rxMsgErrDesc (s.setDesc id (.markErr rc)) id p n).quiet.desc id).sesRc h
  simp only [RxEp.setDesc, update_self, RxDesc.markErr] at hmarked
  split at hmarked
  · exact hrc hmarked
  · contradiction

variable {s id}

variable (s id)

theorem quiet_rxAccount : Quiet s (rxAccount s p id) := by
  have h : Quiet s (s.setDesc id (.received p)) := quiet_setDesc s id fun _ => .of_eq rfl rfl rfl rfl rfl rfl
  unfold rxAccount
  dsimp only
  split
  · exact h.trans (quiet_rxCqPostEntry _ id)
  · exact h

theorem quiet_rxPlace (write : Bool) : Quiet s (rxPlace s now p write id).1 := by
  have hmem : ∀ m, Quiet s { s with mem := m } := fun m => .of_eq rfl rfl rfl rfl
  unfold rxPlace
  dsimp only
  split
  · exact quiet_rxMsgErr s id _ _ _ _
  split
  · exact quiet_rxMsgErr s id _ _ _ _
  split
  · exact quiet_rxMsgErr s id _ _ _ _
  · split
    · exact (hmem _).trans (quiet_rxAccount _ id p)
    · exact (hmem _).trans (quiet_rxMsgErr _ id _ _ _ _)

theorem quiet_rxAtomicReqPkt (ext : AtomicExt) (sync : Bool) : Quiet s (rxAtomicReqPkt s env p ext sync).1 := by
  have hgrp : Quiet s (if sync then amoSyncGrp s env p else (s, none, .ok)).1 := by
    split
    · exact (settled_amoSyncGrp s env p).quiet
    · exact .refl s
  have hexit : ∀ (s0 : RxEp) (entry : Option SyncId), Quiet s0 (amoErrExit s0 entry) := by
    intro s0 entry
    cases entry with
    | none => exact .refl s0
    | some e => exact .of_eq rfl rfl rfl rfl
  unfold rxAtomicReqPkt
  generalize (if sync then amoSyncGrp s env p else (s, none, .ok)) = grp at hgrp
  obtain ⟨s0, entry, rc⟩ := grp
  dsimp only
  split
  · exact hgrp.trans (hexit s0 entry)
  split
  · exact hgrp.trans (hexit s0 entry)
  split
  · exact hgrp.trans (hexit s0 entry)
  · refine hgrp.trans ?_
    cases entry with
    | none => exact .of_eq rfl rfl rfl rfl
    | some e => exact .of_eq rfl rfl rfl rfl

theorem quiet_rxFetchAtomicReqPkt (ext : AtomicExt) : Quiet s (rxFetchAtomicReqPkt s p ext).1 := by
  unfold rxFetchAtomicReqPkt
  dsimp only
  split
  · exact .refl s
  split
  · exact .refl s
  · exact .of_eq rfl rfl rfl rfl

theorem quiet_rudiWrite : Quiet s (rudiWrite s p).1 := by
  unfold rudiWrite
  split
  · exact .refl s
  dsimp only
  split
  · exact .refl s
  split
  · exact .refl s
  · split
    · exact .refl s
    · exact .of_eq rfl rfl rfl rfl

end

/-! ## Messages that start -/

/-- No message but `id` is added or changed. -/
structure Adds (id : DescId) (s s' : RxEp) : Prop where
  ep : s'.ep = s.ep
  dom : s'.dom = s.dom
  desc : ∀ j, j ≠ id → Kept (s.desc j) (s'.desc j)
  msgs : ∀ j ∈ s'.msgs, j = id ∨ j ∈ s.msgs

variable {s' : RxEp}

theorem Quiet.adds {s : RxEp} (h : Quiet s s') (id : DescId) : Adds id s s' :=
  ⟨h.ep, h.dom, fun j _ => h.desc j, fun j hj => .inr (h.msgs j hj)⟩

theorem Adds.trans {id : DescId} {a b c : RxEp} (h : Adds id a b) (h' : Adds id b c) : Adds id a c :=
  ⟨h'.ep.trans h.ep, h'.dom.trans h.dom, fun j hj => (h.desc j hj).trans (h'.desc j hj),
    fun j hj => (h'.msgs j hj).elim .inl (h.msgs j)⟩

theorem kept_update_of_ne (s : RxEp) {id j : DescId} (h : j ≠ id) (d : RxDesc) :
    Kept (s.desc j) (update s.desc id d j) := by
  rw [update_of_ne h]
  exact .refl _

theorem adds_setDesc (s : RxEp) (id : DescId) (f : RxDesc → RxDesc) : Adds id s (s.setDesc id f) :=
  ⟨rfl, rfl, fun _ hj => kept_update_of_ne s hj _, fun _ h => .inr h⟩

section

variable (s : RxEp) (now : Nat) (p : SesReq) (id : DescId)
include s now p id

theorem adds_rxMsgStart : Adds id s (rxMsgStart s now p id) := by
  have hactive : ∀ s : RxEp, Adds id s (rxDescActiveListInsert s now id) := fun s =>
    ⟨rfl, rfl, fun _ hj => kept_update_of_ne s hj _, fun _ h => .inr h⟩
  have hhash : ∀ s : RxEp, Adds id s (rxMsgHashInsert s id) := fun s =>
    ⟨rfl, rfl, fun _ hj => kept_update_of_ne s hj _, fun _ h => List.mem_cons.1 h⟩
  exact ((adds_setDesc s id _).trans (hactive _)).trans (hhash _)

theorem rxMsgStart_msgKey : ((rxMsgStart s now p id).desc id).msgKey = p.msgKey := by
  simp [rxMsgStart, rxMsgHashInsert, rxDescActiveListInsert, RxEp.setDesc, RxDesc.start]

theorem adds_initErrRxDesc (rc : SesRc) :
    Adds id s (initErrRxDesc s now p id rc) := (adds_setDesc s id _).trans (adds_rxMsgStart _ now p id)

theorem initErrRxDesc_mr (rc : SesRc) : ((initErrRxDesc s now p id rc).desc id).mr = (s.desc id).mr := by
  refine (sameBuf_rxMsgStart _ now p id id).mr.trans ?_
  simp [RxEp.setDesc, RxDesc.trackErr]

end

/-- A write in progress without error is one of before, or one that `S` knows. -/
structure Grows (S : RxDesc → MrIdx → Prop) (s s' : RxEp) : Prop where
  ep : s'.ep = s.ep
  dom : s'.dom = s.dom
  msg : ∀ id ∈ s'.msgs, (s'.desc id).sesRc = .ok → ∀ i, (s'.desc id).mr = some i →
    (id ∈ s.msgs ∧ Kept (s.desc id) (s'.desc id)) ∨ S (s'.desc id) i

theorem Adds.grows {S : RxDesc → MrIdx → Prop} {id : DescId} {s : RxEp} (h : Adds id s s')
    (hid : (s'.desc id).sesRc = .ok → ∀ i, (s'.desc id).mr = some i → S (s'.desc id) i) : Grows S s s' := by
  refine ⟨h.ep, h.dom, fun j hj hrc i hi => ?_⟩
  by_cases hji : j = id
  · subst hji
    exact .inr (hid hrc i hi)
  · exact .inl ⟨(h.msgs j hj).resolve_left hji, h.desc j hji⟩

theorem Adds.grows_of_none {S : RxDesc → MrIdx → Prop} {id : DescId} {s : RxEp} (h : Adds id s s')
    (hid : (s'.desc id).mr = none) : Grows S s s' :=
  h.grows fun _ i hi => by
    rw [hid] at hi
    cases hi

theorem Quiet.grows {S : RxDesc → MrIdx → Prop} {s : RxEp} (h : Quiet s s') : Grows S s s' :=
  ⟨h.ep, h.dom, fun id hid _ _ _ => .inl ⟨h.msgs id hid, h.desc id⟩⟩

structure Started (s : RxEp) (p : SesReq) (d : RxDesc) (i : MrIdx) : Prop where
  new : rxMsgHashLookup s p.msgKey = none
  region : getMrDesc s.dom s.ep p.matchBits p.jobId = some i
  access : (s.dom.mr i).access.remoteWrite = true
  msgKey : d.msgKey = p.msgKey
  cached : d.CachedFrom (s.dom.mr i)

theorem quiet_rxDescListPop {s : RxEp} {id : DescId} (h : rxDescListPop s = some (id, s')) : Quiet s s' := by
  unfold rxDescListPop at h
  split at h
  · cases h
  · cases h
    exact .of_eq rfl rfl rfl rfl

section

variable {S : RxDesc → MrIdx → Prop}

theorem grows_rxMsgErr {s : RxEp} (now : Nat) (p : SesReq) (n : Nat) (id : Option DescId) (rc : SesRc) :
    Grows S s (rxMsgErr s now p n id rc).1 := by
  cases id with
  | some => exact (quiet_rxMsgErr ..).grows
  | none =>
    unfold rxMsgErr rxDescListPop
    cases hf : s.free with
    | nil => exact (Quiet.refl s).grows
    | cons id rest =>
      have hpop : Quiet s { s with free := rest } := .of_eq rfl rfl rfl rfl
      have hzero := adds_setDesc { s with free := rest } id fun _ => RxDesc.zero
      have hinit := adds_initErrRxDesc (({ s with free := rest } : RxEp).setDesc id fun _ => .zero)
        now p id rc
      have hmr := initErrRxDesc_mr (({ s with free := rest } : RxEp).setDesc id fun _ => .zero)
        now p id rc
      have herr := (settled_rxMsgErrDesc (initErrRxDesc
        (({ s with free := rest } : RxEp).setDesc id fun _ => .zero) now p id rc) id p n).quiet
      refine (((hpop.adds id).trans hzero).trans (hinit.trans (herr.adds id))).grows_of_none ?_
      rw [(herr.desc id).buf.mr, hmr]
      simp [RxEp.setDesc, RxDesc.zero]

theorem adds_getRxDescNew (s : RxEp) (env : RxEnv) (p : SesReq) (write sync : Bool) (rc : SesRc)
    (id : DescId) :
    Adds id s (getRxDescNew s env p write sync rc id).1 ∧
    (∀ rc', (getRxDescNew s env p write sync rc id).2 = .done rc' →
      ((getRxDescNew s env p write sync rc id).1.desc id).mr = none) := by
  have h0 : Adds id s (s.setDesc id fun _ => { RxDesc.zero with write }) := adds_setDesc s id _
  have hmr : ((s.setDesc id fun _ => { RxDesc.zero with write }).desc id).mr = none := by
    simp [RxEp.setDesc, RxDesc.zero]
  unfold getRxDescNew
  generalize s.setDesc id (fun _ => { RxDesc.zero with write }) = s0 at h0 hmr
  have h1 := (settled_syncGrpIf sync s0 env p id true).quiet
  dsimp only
  generalize syncGrpIf sync s0 env p id true = grp at h1
  have hnone : (grp.1.desc id).mr = none := by rw [(h1.desc id).buf.mr, hmr]
  have herr : ∀ rc', Adds id s
      (rxMsgErr (initErrRxDesc grp.1 env.now p id rc') env.now p p.sesPayloadLen (some id) rc').1 ∧
      ((rxMsgErr (initErrRxDesc grp.1 env.now p id rc') env.now p p.sesPayloadLen (some id) rc').1.desc
        id).mr = none := by
    intro rc'
    have hq := quiet_rxMsgErr (initErrRxDesc grp.1 env.now p id rc') id env.now p p.sesPayloadLen rc'
    refine ⟨(h0.trans (h1.adds id)).trans ((adds_initErrRxDesc _ _ _ _ _).trans (hq.adds id)), ?_⟩
    rw [(hq.desc id).buf.mr, initErrRxDesc_mr, hnone]
  split
  · exact ⟨(herr _).1, fun _ _ => (herr _).2⟩
  split
  · exact ⟨(herr _).1, fun _ _ => (herr _).2⟩
  · refine ⟨(h0.trans (h1.adds id)).trans (adds_setDesc _ id _), fun rc' h => by cases h⟩

theorem grows_getRxDesc_done {s s' : RxEp} {env : RxEnv} {p : SesReq} {write sync : Bool}
    {rc rc' : SesRc} (h : getRxDesc s env p write sync rc = (s', .done rc')) : Grows S s s' := by
  unfold getRxDesc at h
  split at h
  · rename_i id _
    have hq := (settled_getRxDescLater s env p sync rc id).quiet
    rw [h] at hq
    exact hq.grows
  · split at h
    · cases h
    · split at h
      · cases h
        exact (Quiet.refl s).grows
      · rename_i id s0 hpop
        have hq := quiet_rxDescListPop hpop
        obtain ⟨hadds, hnone⟩ := adds_getRxDescNew s0 env p write sync rc id
        rw [h] at hadds hnone
        exact ((hq.adds id).trans hadds).grows_of_none (hnone rc' rfl)

theorem getRxDesc_first_adds {s s' : RxEp} {env : RxEnv} {p : SesReq} {sync : Bool} {id : DescId} (h : getRxDesc s env p true sync rc = (s', .first (some id))) :
    Adds id s s' ∧ rxMsgHashLookup s p.msgKey = none := by
  obtain ⟨hlook, ⟨hw, -⟩ | ⟨id0, s0, hpop, hid, -, hnew⟩⟩ := getRxDesc_eq_first h
  · cases hw
  cases hid
  have hadds := (adds_getRxDescNew s0 env p true sync rc id).1
  rw [hnew] at hadds
  exact ⟨((quiet_rxDescListPop hpop).adds id).trans hadds, hlook⟩

/-! ## The first packet -/

theorem quiet_rxUnexpected (s : RxEp) (env : RxEnv) (p : SesReq) (tagged : Bool) :
    Quiet s (rxUnexpected s env p tagged).1 := by
  unfold rxUnexpected
  dsimp only
  split
  · split
    · exact .of_eq rfl rfl rfl rfl
    · exact .refl s
  split
  · exact .of_eq rfl rfl rfl rfl
  · exact .refl s

def Plain (s : RxEp) : Prop := ∀ id, id ∈ s.ring ∨ id ∈ s.tags → (s.desc id).mr = none

def SendStage (s : RxEp) : Except RxStop (RxEp × DescId) → Prop
  | .ok r => Adds r.2 s r.1 ∧ (r.1.desc r.2).mr = none
  | .error (s', some id, _) => Adds id s s' ∧ (s'.desc id).mr = none
  | .error (s', none, _) => Quiet s s'

theorem sendStage_rxFindBuffer {s : RxEp} (h : Plain s) (env : RxEnv) (p : SesReq) (tagged : Bool) :
    SendStage s (rxFindBuffer s env p tagged none) := by
  unfold rxFindBuffer
  split
  · split
    · exact quiet_rxUnexpected s env p true
    · rename_i id hid
      have hmr : (s.desc id).mr = none := h id (.inr (by
        rcases Option.or_eq_some_iff.1 hid with hid | ⟨-, hid⟩ <;> exact List.mem_of_find?_eq_some hid))
      split
      · exact ⟨(Quiet.refl s).adds id, hmr⟩
      · exact ⟨(Quiet.of_eq rfl rfl rfl rfl : Quiet s (tagInitiatorHashRemove s id)).adds id, hmr⟩
  · split
    · split
      · exact quiet_rxUnexpected s env p false
      · rename_i id rest hr
        have hmr : (s.desc id).mr = none := h id (.inl (by rw [hr]; exact List.mem_cons_self))
        split
        · exact ⟨(Quiet.refl s).adds id, hmr⟩
        · exact ⟨(Quiet.of_eq rfl rfl rfl rfl : Quiet s (rxDescRingRemove s)).adds id, hmr⟩
    · rename_i hid
      cases hid

theorem startStage {s s1 : RxEp} {id : DescId} (h : Adds id s s1) (now : Nat) (p : SesReq) (write : Bool) :
    Adds id s (rxMsgStart s1 now p id) ∧
    Adds id s ((rxMsgStart s1 now p id).setDesc id (.setImm p write)) ∧
    ((rxMsgStart s1 now p id).desc id).mr = (s1.desc id).mr ∧
    (((rxMsgStart s1 now p id).setDesc id (.setImm p write)).desc id).mr = (s1.desc id).mr := by
  have hstart := h.trans (adds_rxMsgStart s1 now p id)
  have hmr := (sameBuf_rxMsgStart s1 now p id id).mr
  refine ⟨hstart, hstart.trans (adds_setDesc _ id _), hmr, ?_⟩
  simpa [RxEp.setDesc, RxDesc.setImm] using hmr

theorem sendStage_rxFirstPkt {s : RxEp} (h : Plain s) (env : RxEnv) (p : SesReq) (tagged : Bool) :
    SendStage s (rxFirstPkt s env p tagged false none) := by
  have hfind := sendStage_rxFindBuffer h env p tagged
  unfold rxFirstPkt
  split
  · exact Quiet.refl s
  split
  · rename_i stop hstop
    rw [hstop] at hfind
    exact hfind
  rename_i s1 id hok
  rw [hok] at hfind
  obtain ⟨hadds, hmr⟩ := hfind
  obtain ⟨h1, h2, h3, h4⟩ := startStage hadds env.now p false
  split
  · exact ⟨hadds, hmr⟩
  dsimp only
  split
  · split
    · exact ⟨h1, h3.trans hmr⟩
    · exact ⟨h2, h4.trans hmr⟩
  · exact ⟨h1, h3.trans hmr⟩

/-- What the first packet of a write is placed with, or stopped with: the descriptor of its
region. -/
structure WriteStarts (s : RxEp) (p : SesReq) (id : DescId) (s' : RxEp) : Prop where
  adds : Adds id s s'
  mem : s'.mem = s.mem
  buf : SameBuf (s.desc id) (s'.desc id)
  msgKey : (s'.desc id).msgKey = p.msgKey
  sync : (s'.desc id).sync = (s.desc id).sync
  syncs : s'.sync = s.sync
  access : ∃ i, (s.desc id).mr = some i ∧ (s.dom.mr i).access.remoteWrite = true

def WriteStage (s : RxEp) (p : SesReq) (id : DescId) : Except RxStop (RxEp × DescId) → Prop
  | .ok r => r.2 = id ∧ WriteStarts s p id r.1
  | .error stop => stop.2.1 = some id ∧ stop.2.2 ≠ .ok ∧ Adds id s stop.1 ∧ stop.1.mem = s.mem

theorem rxFindBuffer_region (s : RxEp) (env : RxEnv) (p : SesReq) (id : DescId) :
    match rxFindBuffer s env p false (some id) with
    | .ok r => r = (s, id) ∧ ∃ i, (s.desc id).mr = some i ∧ (s.dom.mr i).access.remoteWrite = true
    | .error stop => stop.1 = s ∧ stop.2.1 = some id ∧ stop.2.2 ≠ .ok := by
  simp only [rxFindBuffer, Bool.false_eq_true, if_false]
  cases hmr : (s.desc id).mr with
  | none => exact ⟨rfl, rfl, by simp⟩
  | some i =>
    dsimp only
    cases haccess : (s.dom.mr i).access.remoteWrite with
    | false => exact ⟨rfl, rfl, by simp⟩
    | true =>
      simp only [Bool.not_true, Bool.false_eq_true, if_false]
      cases bufferTooSmall p true (s.dom.mr i).region.buf.len with
      | true => exact ⟨rfl, rfl, by simp⟩
      | false => exact ⟨rfl, i, rfl, haccess⟩

theorem writeStarts_rxMsgStart {s : RxEp} (now : Nat) (p : SesReq) {id : DescId}
    (h : ∃ i, (s.desc id).mr = some i ∧ (s.dom.mr i).access.remoteWrite = true) :
    WriteStarts s p id (rxMsgStart s now p id) where
  adds := adds_rxMsgStart s now p id
  mem := rfl
  buf := sameBuf_rxMsgStart s now p id id
  msgKey := rxMsgStart_msgKey s now p id
  sync := by simp [rxMsgStart, rxMsgHashInsert, rxDescActiveListInsert, RxEp.setDesc, RxDesc.start]
  syncs := rfl
  access := h

theorem WriteStarts.setImm {s s' : RxEp} {p : SesReq} {id : DescId} (h : WriteStarts s p id s')
    (q : SesReq) (write : Bool) : WriteStarts s p id (s'.setDesc id (.setImm q write)) where
  adds := h.adds.trans (adds_setDesc s' id _)
  mem := h.mem
  buf := h.buf.trans (sameBuf_update s' id id ⟨rfl, rfl, rfl, rfl⟩)
  msgKey := by simpa [RxEp.setDesc, RxDesc.setImm] using h.msgKey
  sync := by simpa [RxEp.setDesc, RxDesc.setImm] using h.sync
  syncs := h.syncs
  access := h.access

theorem writeStage_rxFirstPkt (s : RxEp) (env : RxEnv) (p : SesReq) (id : DescId) :
    WriteStage s p id (rxFirstPkt s env p false true (some id)) := by
  have hfind := rxFindBuffer_region s env p id
  unfold rxFirstPkt
  split
  · rename_i rc hrc
    refine ⟨rfl, fun h => ?_, (Quiet.refl s).adds id, rfl⟩
    subst h
    unfold genErr at hrc
    simp only [Bool.false_eq_true, if_false] at hrc
    split at hrc
    · cases hrc
    split at hrc
    · cases hrc
    · split at hrc <;> cases hrc
  · split
    · rename_i stop hstop
      rw [hstop] at hfind
      obtain ⟨h1, h2, h3⟩ := hfind
      exact ⟨h2, h3, h1 ▸ (Quiet.refl s).adds id, by rw [h1]⟩
    · rename_i s1 id1 hok
      rw [hok] at hfind
      obtain ⟨heq, haccess⟩ := hfind
      cases heq
      have hstart := writeStarts_rxMsgStart env.now p haccess
      simp only [Bool.not_true, Bool.false_and, Bool.false_eq_true, if_false]
      split
      · split
        · exact ⟨rfl, nofun, hstart.adds, hstart.mem⟩
        · exact ⟨rfl, hstart.setImm p true⟩
      · exact ⟨rfl, hstart⟩

/-! ## A request packet -/

theorem quiet_getRxDesc_later {s s' : RxEp} {env : RxEnv} {p : SesReq} {write sync : Bool} {id : DescId} (h : getRxDesc s env p write sync rc = (s', .later id)) : Quiet s s' := by
  have hq := (settled_getRxDescLater s env p sync rc id).quiet
  rwa [(getRxDesc_eq_later h).2] at hq

theorem quiet_rxReqBody_later (s : RxEp) (env : RxEnv) (p : SesReq) (tagged write : Bool)
    (id : DescId) : Quiet s (rxReqBody s env p tagged write true (some id)).1 := by
  unfold rxReqBody
  split
  · exact quiet_rxMsgErr s id env.now p _ _
  split
  · exact quiet_rxMsgErr s id env.now p _ _
  dsimp only
  split
  · exact quiet_rxMsgErr s id env.now p _ _
  · exact quiet_rxPlace s id env.now p write

theorem Adds.grows_rxMsgErr {s s1 : RxEp} {id : DescId} (h : Adds id s s1) (now : Nat) (p : SesReq)
    (n : Nat) (hrc : rc ≠ .ok) : Grows S s (rxMsgErr s1 now p n (some id) rc).1 := by
  refine (h.trans ((quiet_rxMsgErr s1 id now p n rc).adds id)).grows fun hok => ?_
  exact absurd hok (rxMsgErr_sesRc s1 id now p n hrc)

theorem grows_rxReqBody_write {s s1 : RxEp} (env : RxEnv) (p : SesReq) {id : DescId} {i : MrIdx}
    (hadds : Adds id s s1) (hmr : (s1.desc id).mr = some i)
    (hstarted : ∀ d : RxDesc, SameBuf (s1.desc id) d → d.msgKey = p.msgKey →
      (s.dom.mr i).access.remoteWrite = true → S d i) :
    Grows S s (rxReqBody s1 env p false true false (some id)).1 := by
  have hstage := writeStage_rxFirstPkt s1 env p id
  unfold rxReqBody
  split
  · exact hadds.grows_rxMsgErr env.now p _ nofun
  split
  · exact hadds.grows_rxMsgErr env.now p _ nofun
  cases hpkt : rxFirstPkt s1 env p false true (some id) with
  | error stop =>
    obtain ⟨s2, id2, rc⟩ := stop
    rw [hpkt] at hstage
    obtain ⟨hid, hrc, h2, -⟩ := hstage
    cases (show id2 = some id from hid)
    exact (hadds.trans h2).grows_rxMsgErr env.now p _ hrc
  | ok r =>
    obtain ⟨s2, id2⟩ := r
    rw [hpkt] at hstage
    obtain ⟨hid, hstart⟩ := hstage
    cases (show id2 = id from hid)
    have hplace := quiet_rxPlace s2 id env.now p true
    refine ((hadds.trans hstart.adds).trans (hplace.adds id)).grows fun _ j hj => ?_
    have hbuf := hstart.buf.trans (hplace.desc id).buf
    obtain ⟨k, hk, haccess⟩ := hstart.access
    cases hk.symm.trans hmr
    cases hmr.symm.trans (hbuf.mr.symm.trans hj)
    rw [hadds.dom] at haccess
    exact hstarted _ hbuf ((hplace.desc id).msgKey.trans hstart.msgKey) haccess

theorem grows_rxReqPkt_write {s : RxEp} (hd : DomainOk s.dom) (env : RxEnv) (p : SesReq) (sync : Bool) :
    Grows (Started s p) s (rxReqPkt s env p false true sync).1 := by
  unfold rxReqPkt
  split
  · exact (quiet_rudiWrite s p).grows
  cases hg : getRxDesc s env p true sync .ok with
  | mk s1 look =>
    cases look with
    | done rc => exact grows_getRxDesc_done hg
    | later => exact ((quiet_getRxDesc_later hg).trans (quiet_rxReqBody_later ..)).grows
    | first id =>
      obtain ⟨id, rfl⟩ := getRxDesc_first_write hg
      obtain ⟨hadds, hlook⟩ := getRxDesc_first_adds hg
      obtain ⟨hca, -, ⟨i, hi, hkey⟩, -⟩ := getRxDesc_first hd hg id rfl
      refine grows_rxReqBody_write env p hadds hi fun d hbuf hmsg haccess => ?_
      have hfrom := (hca i hi).2
      rw [hadds.dom] at hfrom
      exact ⟨hlook, hkey, haccess, hmsg, hbuf.cachedFrom hfrom⟩

theorem grows_rxReqBody_send {s : RxEp} (h : Plain s) (env : RxEnv) (p : SesReq) (tagged : Bool) :
    Grows S s (rxReqBody s env p tagged false false none).1 := by
  have hstage := sendStage_rxFirstPkt h env p tagged
  unfold rxReqBody
  split
  · exact grows_rxMsgErr env.now p _ _ _
  split
  · exact grows_rxMsgErr env.now p _ _ _
  cases hpkt : rxFirstPkt s env p tagged false none with
  | error stop =>
    obtain ⟨s2, id2, rc⟩ := stop
    rw [hpkt] at hstage
    cases id2 with
    | none =>
      have hq : Quiet s s2 := hstage
      have hg := grows_rxMsgErr (S := S) (s := s2) env.now p p.sesPayloadLen none rc
      refine ⟨hg.ep.trans hq.ep, hg.dom.trans hq.dom, fun id hid hrc i hi => ?_⟩
      exact (hg.msg id hid hrc i hi).imp_left fun ⟨h1, h2⟩ =>
        ⟨hq.msgs id h1, (hq.desc id).trans h2⟩
    | some id =>
      obtain ⟨hadds, hmr⟩ := hstage
      have hq := quiet_rxMsgErr s2 id env.now p p.sesPayloadLen rc
      exact (hadds.trans (hq.adds id)).grows_of_none ((hq.desc id).buf.mr.trans hmr)
  | ok r =>
    obtain ⟨s2, id⟩ := r
    rw [hpkt] at hstage
    obtain ⟨hadds, hmr⟩ := hstage
    have hq := quiet_rxPlace s2 id env.now p false
    exact (hadds.trans (hq.adds id)).grows_of_none ((hq.desc id).buf.mr.trans hmr)

theorem grows_rxReqPkt_send {s : RxEp} (h : Plain s) (env : RxEnv) (p : SesReq) (tagged : Bool) :
    Grows S s (rxReqPkt s env p tagged false false).1 := by
  unfold rxReqPkt
  rw [Bool.false_and, if_neg Bool.false_ne_true]
  cases hg : getRxDesc s env p false false .ok with
  | mk s1 look =>
    cases look with
    | done rc => exact grows_getRxDesc_done hg
    | later => exact ((quiet_getRxDesc_later hg).trans (quiet_rxReqBody_later ..)).grows
    | first id =>
      obtain ⟨-, ⟨-, -, rfl, rfl⟩ | ⟨-, -, -, -, hne, -⟩⟩ := getRxDesc_eq_first hg
      on_goal 2 => exact absurd rfl (hne rfl)
      exact grows_rxReqBody_send h env p tagged

theorem grows_recvApiCommon (s : RxEp) (q : RecvReq) : Grows S s (recvApiCommon s q) := by
  unfold recvApiCommon
  dsimp only
  split
  · exact (Quiet.refl s).grows
  split
  · exact (Quiet.refl s).grows
  rename_i id s1 hpop
  have hq := quiet_rxDescListPop hpop
  have hadds := (hq.adds id).trans (adds_setDesc s1 id fun _ => q.desc)
  have hmr : ((s1.setDesc id fun _ => q.desc).desc id).mr = none := by
    simp [RxEp.setDesc, RecvReq.desc, RxDesc.zero]
  generalize s1.setDesc id (fun _ => q.desc) = s2 at hadds hmr
  have hend : ∀ s' : RxEp, s'.ep = s2.ep → s'.dom = s2.dom → s'.desc = s2.desc →
      s'.msgs = s2.msgs → Grows S s s' := fun s' h1 h2 h3 h4 =>
    (hadds.trans ((Quiet.of_eq h1 h2 h3 h4).adds id)).grows_of_none (by rw [h3, hmr])
  split
  · split <;> exact hend _ rfl rfl rfl rfl
  · split <;> exact hend _ rfl rfl rfl rfl

end

end Uet.Ses
