import Uet.Assoc
import Uet.Guarded

/-!
# Sync groups at the initiator

Sync writes and atomics to one destination are counted in a group until one of them, a write
with immediate data or an atomic, ends the group; the terminating message carries the count.
The instance hands out the group numbers and holds three 16-bit counts for each, and every
endpoint finds the group it is filling for a destination in a hash table. A number goes back
to the allocator when the completions reach the total, or when a post finds no descriptor.

`SyncIni` is what the code keeps. `SyncRun` adds the messages in flight and, for the statements
only, a history: which groups were begun and how many messages of each were posted and have
completed.
-/

namespace Uet.Ses

open List Function

/-! ## What the code keeps -/

def maxSyncGrp : Nat := 0xffff / 2

structure SyncGrpCnts where
  curCnt : BitVec 16
  totCnt : BitVec 16
  cmplCnt : BitVec 16
  deriving DecidableEq, Repr

structure SyncGrpCb where
  nextSyncGrp : Nat
  allocated : Nat → Bool
  cnts : Nat → SyncGrpCnts

def nextSyncGrp (g : Nat) : Nat := if g + 1 > maxSyncGrp then 0 else g + 1

/-- The first available number from `g` on, looking at so many of them. -/
def scanSyncGrp (allocated : Nat → Bool) : Nat → Nat → Option Nat
  | 0, _ => none
  | k + 1, g => if allocated g then scanSyncGrp allocated k (nextSyncGrp g) else some g

def allocSyncGrp (cb : SyncGrpCb) : Option (Nat × SyncGrpCb) :=
  match scanSyncGrp cb.allocated (maxSyncGrp + 1) cb.nextSyncGrp with
  | none => none
  | some g => some (g, { nextSyncGrp := nextSyncGrp g,
                         allocated := update cb.allocated g true,
                         cnts := update cb.cnts g ⟨0, 0, 0⟩ })

def deallocSyncGrp (cb : SyncGrpCb) (g : Nat) : SyncGrpCb :=
  { cb with allocated := update cb.allocated g false }

def SyncGrpCb.setCnts (cb : SyncGrpCb) (g : Nat) (c : SyncGrpCnts) : SyncGrpCb :=
  { cb with cnts := update cb.cnts g c }

/-- An endpoint and the handle of an address-vector entry: the table of an endpoint is the part
of the entries with its name. -/
structure SyncAvKey where
  ep : Nat
  avHandle : Nat
  deriving DecidableEq, Repr

structure SyncIni where
  cb : SyncGrpCb
  avs : List (SyncAvKey × Nat)

def incSyncGrpCurCnt (cb : SyncGrpCb) (g : Nat) : SyncGrpCb :=
  cb.setCnts g { cb.cnts g with curCnt := (cb.cnts g).curCnt + 1 }

def setSyncGrpTotCnt (cb : SyncGrpCb) (g : Nat) : SyncGrpCb :=
  cb.setCnts g { cb.cnts g with totCnt := (cb.cnts g).curCnt }

def getSyncGrpAv (s : SyncIni) (key : SyncAvKey) (calloc : Bool) : Option (Nat × SyncIni) :=
  match s.avs.lookup key with
  | some g => some (g, { s with cb := incSyncGrpCurCnt s.cb g })
  | none =>
    if calloc then
      match allocSyncGrp s.cb with
      | none => none
      | some (g, cb) => some (g, ⟨incSyncGrpCurCnt cb g, (key, g) :: s.avs⟩)
    else none

def SyncIni.remove (s : SyncIni) (key : SyncAvKey) : SyncIni :=
  { s with avs := s.avs.filter (·.1 ≠ key) }

def syncGrpFreeInitiator (s : SyncIni) (g : Nat) (key : SyncAvKey) : SyncIni :=
  { s.remove key with cb := deallocSyncGrp s.cb g }

def syncGrpEndInitiator (s : SyncIni) (g : Nat) (key : SyncAvKey) : SyncIni :=
  { s.remove key with cb := setSyncGrpTotCnt s.cb g }

def syncGrpCompletionInitiator (s : SyncIni) (g : Nat) : SyncIni :=
  let c := { s.cb.cnts g with cmplCnt := (s.cb.cnts g).cmplCnt + 1 }
  let cb := s.cb.setCnts g c
  if c.totCnt ≤ c.cmplCnt then { s with cb := deallocSyncGrp cb g } else { s with cb := cb }

structure SyncEnv where
  calloc : Bool
  txDesc : Bool
  deriving DecidableEq, Repr

/-- The sync group part of a post; the number that the tx descriptor gets, if the post takes
one. `terminates` is an atomic, or a write with immediate data. -/
def sendReqSync (s : SyncIni) (key : SyncAvKey) (terminates : Bool) (env : SyncEnv) :
    SyncIni × Option Nat :=
  match getSyncGrpAv s key env.calloc with
  | none => (s, none)
  | some (g, s) =>
    if env.txDesc then
      (if terminates then syncGrpEndInitiator s g key else s, some g)
    else (syncGrpFreeInitiator s g key, none)

/-- A group: its number, the messages posted in it, those completed, and whether its terminating
message has been posted. -/
structure SyncGrp where
  grp : Nat
  posted : Nat
  completed : Nat
  terminated : Bool
  deriving DecidableEq, Repr

structure SyncMsg where
  id : Nat
  grp : Nat
  terminates : Bool
  deriving DecidableEq, Repr

/-- The code's state, the messages in flight and the history: the groups begun, and the group
being filled for each destination. -/
structure SyncRun where
  ini : SyncIni
  msgs : List SyncMsg
  groups : Nat → SyncGrp
  begun : Nat
  filling : SyncAvKey → Nat

inductive SyncEv where
  | send (key : SyncAvKey) (terminates : Bool) (env : SyncEnv)
  | complete (i : Nat)
  deriving DecidableEq, Repr

def SyncGrp.post (x : SyncGrp) (g : Nat) (terminates : Bool) : SyncGrp :=
  ⟨g, x.posted + 1, x.completed, terminates⟩

def SyncGrp.complete (x : SyncGrp) : SyncGrp := { x with completed := x.completed + 1 }

/-- The history of a post that took a descriptor with the number; it begins a group unless one
is being filled. -/
def SyncRun.posted (s : SyncRun) (ini : SyncIni) (key : SyncAvKey) (terminates : Bool) (g : Nat) :
    SyncRun :=
  let new := (s.ini.avs.lookup key).isNone
  let id := if new then s.begun else s.filling key
  { ini := ini
    msgs := ⟨id, g, terminates⟩ :: s.msgs
    groups := update s.groups id ((s.groups id).post g terminates)
    begun := if new then s.begun + 1 else s.begun
    filling := update s.filling key id }

def SyncRun.step (s : SyncRun) : SyncEv → SyncRun
  | .send key terminates env =>
    match sendReqSync s.ini key terminates env with
    | (ini, none) => { s with ini := ini }
    | (ini, some g) => s.posted ini key terminates g
  | .complete i =>
    match s.msgs[i]? with
    | none => s
    | some m =>
      { s with
        ini := syncGrpCompletionInitiator s.ini m.grp
        msgs := s.msgs.eraseIdx i
        groups := update s.groups m.id (s.groups m.id).complete }

def SyncRun.init : SyncRun :=
  { ini := ⟨⟨0, fun _ => false, fun _ => ⟨0, 0, 0⟩⟩, []⟩
    msgs := []
    groups := fun _ => ⟨0, 0, 0, false⟩
    begun := 0
    filling := fun _ => 0 }

def SyncRun.extCnt (s : SyncRun) (m : SyncMsg) : BitVec 16 := (s.ini.cb.cnts m.grp).totCnt

def SyncGrp.Done (x : SyncGrp) : Prop := x.terminated = true ∧ x.completed = x.posted

/-- What the group numbers are for: a number that is with the allocator was returned by groups
that are done, groups that are open have different numbers, and a terminating message carries the
number of messages of its group. -/
structure SyncNumbers (s : SyncRun) : Prop where
  returned : ∀ id < s.begun, s.ini.cb.allocated (s.groups id).grp = false → (s.groups id).Done
  distinct : ∀ id < s.begun, ∀ id' < s.begun, ¬(s.groups id).Done → ¬(s.groups id').Done →
    (s.groups id).grp = (s.groups id').grp → id = id'
  count : ∀ m ∈ s.msgs, m.terminates = true → (s.extCnt m).toNat = (s.groups m.id).posted

/-- A message completes only after the terminating message of its group was posted; a post that
finds no descriptor would have begun a group; and a group has less than 2^16 messages. -/
def KeepsNumbers (s : SyncRun) : SyncEv → Prop
  | .send key _ env =>
    (env.txDesc = false → s.ini.avs.lookup key = none) ∧
      ∀ g ∈ s.ini.avs.lookup key, (s.ini.cb.cnts g).curCnt.toNat + 1 < 2 ^ 16
  | .complete i => ∀ m ∈ s.msgs[i]?, (s.groups m.id).terminated = true

instance (s : SyncRun) (ev : SyncEv) : Decidable (KeepsNumbers s ev) := by
  unfold KeepsNumbers
  split <;> infer_instance

/-! ## The invariant -/

structure Held (cb : SyncGrpCb) (x : SyncGrp) : Prop where
  allocated : cb.allocated x.grp = true
  filled : x.terminated = false → (cb.cnts x.grp).curCnt.toNat = x.posted ∧
    (cb.cnts x.grp).totCnt = 0 ∧ (cb.cnts x.grp).cmplCnt = 0 ∧ x.completed = 0
  ended : x.terminated = true → (cb.cnts x.grp).totCnt.toNat = x.posted ∧
    (cb.cnts x.grp).cmplCnt.toNat = x.completed

structure ExceptAt (g : Nat) (cb cb' : SyncGrpCb) : Prop where
  allocated : ∀ g', g' ≠ g → cb'.allocated g' = cb.allocated g'
  cnts : ∀ g', g' ≠ g → cb'.cnts g' = cb.cnts g'

variable {g : Nat} {cb cb' : SyncGrpCb} {x : SyncGrp} {s : SyncRun} {key : SyncAvKey} {terminates : Bool}

theorem Held.other (h : Held cb x) (he : ExceptAt g cb cb') (hx : x.grp ≠ g) : Held cb' x := by
  refine ⟨(he.allocated _ hx).trans h.allocated, fun ht => ?_, fun ht => ?_⟩
  · rw [he.cnts _ hx]
    exact h.filled ht
  · rw [he.cnts _ hx]
    exact h.ended ht

theorem ExceptAt.trans {cb'' : SyncGrpCb} (h : ExceptAt g cb cb') (h' : ExceptAt g cb' cb'') : ExceptAt g cb cb'' :=
  ⟨fun g' hg => (h'.allocated g' hg).trans (h.allocated g' hg),
    fun g' hg => (h'.cnts g' hg).trans (h.cnts g' hg)⟩

theorem setCnts_exceptAt (cb : SyncGrpCb) (g : Nat) (c : SyncGrpCnts) :
    ExceptAt g cb (cb.setCnts g c) :=
  ⟨fun _ _ => rfl, fun _ hg => update_of_ne hg _ _⟩

theorem deallocSyncGrp_exceptAt (cb : SyncGrpCb) (g : Nat) : ExceptAt g cb (deallocSyncGrp cb g) :=
  ⟨fun _ hg => update_of_ne hg _ _, fun _ _ => rfl⟩

@[simp] theorem setCnts_same (cb : SyncGrpCb) (g : Nat) (c : SyncGrpCnts) :
    (cb.setCnts g c).cnts g = c := update_self ..

theorem scanSyncGrp_available {allocated : Nat → Bool} {k g' : Nat} (h : scanSyncGrp allocated k g = some g') :
    allocated g' = false := by
  induction k generalizing g with
  | zero => cases h
  | succ k ih =>
    rw [scanSyncGrp] at h
    split at h
    · exact ih h
    next hg =>
    cases h
    exact Bool.eq_false_iff.2 hg

structure TakesGrp (cb cb' : SyncGrpCb) (g : Nat) : Prop where
  available : cb.allocated g = false
  exceptAt : ExceptAt g cb cb'
  allocated : cb'.allocated g = true
  cnts : cb'.cnts g = ⟨0, 0, 0⟩

theorem allocSyncGrp_takes (h : allocSyncGrp cb = some (g, cb')) : TakesGrp cb cb' g := by
  unfold allocSyncGrp at h
  split at h
  · cases h
  next hg =>
  cases h
  exact ⟨scanSyncGrp_available hg,
    ⟨fun _ hne => update_of_ne hne _ _, fun _ hne => update_of_ne hne _ _⟩,
    update_self .., update_self ..⟩

structure SyncInv (s : SyncRun) : Prop where
  held : ∀ id < s.begun, ¬(s.groups id).Done → Held s.ini.cb (s.groups id)
  distinct : ∀ id < s.begun, ∀ id' < s.begun, ¬(s.groups id).Done → ¬(s.groups id').Done →
    (s.groups id).grp = (s.groups id').grp → id = id'
  fresh : ∀ id, s.begun ≤ id → s.groups id = ⟨0, 0, 0, false⟩
  filling : ∀ e ∈ s.ini.avs, s.filling e.1 < s.begun ∧ (s.groups (s.filling e.1)).grp = e.2 ∧
    (s.groups (s.filling e.1)).terminated = false
  apart : ∀ e ∈ s.ini.avs, ∀ e' ∈ s.ini.avs, s.filling e.1 = s.filling e'.1 → e.1 = e'.1
  msg : ∀ m ∈ s.msgs, m.id < s.begun ∧ m.grp = (s.groups m.id).grp ∧
    (m.terminates = true → (s.groups m.id).terminated = true)
  counted : ∀ id, s.msgs.countP (·.id = id) + (s.groups id).completed = (s.groups id).posted

theorem SyncInv.init : SyncInv .init where
  held _ h := by cases h
  distinct _ h := by cases h
  fresh _ _ := rfl
  filling _ h := by cases h
  apart _ h := by cases h
  msg _ h := by cases h
  counted _ := rfl

theorem not_done_of_filling (h : x.terminated = false) : ¬x.Done := by
  intro hd
  have := hd.1
  rw [h] at this
  cases this

section

variable (hi : SyncInv s)
include hi

theorem SyncInv.lt_posted {m : SyncMsg} (hm : m ∈ s.msgs) :
    (s.groups m.id).completed < (s.groups m.id).posted := by
  have hpos : 0 < s.msgs.countP (·.id = m.id) := countP_pos_iff.2 ⟨m, hm, by simp⟩
  have := hi.counted m.id
  omega

theorem SyncInv.not_done {m : SyncMsg} (hm : m ∈ s.msgs) :
    ¬(s.groups m.id).Done := fun hd => ne_of_lt (hi.lt_posted hm) hd.2

theorem SyncInv.numbers : SyncNumbers s where
  returned id hid ha := by
    by_contra hd
    have := (hi.held id hid hd).allocated
    rw [ha] at this
    cases this
  distinct := hi.distinct
  count m hm ht := by
    obtain ⟨hid, hgrp, hterm⟩ := hi.msg m hm
    unfold SyncRun.extCnt
    rw [hgrp]
    exact ((hi.held _ hid (hi.not_done hm)).ended (hterm ht)).1

theorem SyncInv.frame (he : ExceptAt g s.ini.cb cb)
    (hg : ∀ id < s.begun, ¬(s.groups id).Done → (s.groups id).grp ≠ g) :
    SyncInv { s with ini := { s.ini with cb := cb } } :=
  { hi with held := fun id hid hd => (hi.held id hid hd).other he (hg id hid hd) }

/-- What a post that takes a descriptor does to the code's state, for the group `id` that the
message is counted in. -/
structure Posts (s : SyncRun) (ini : SyncIni) (key : SyncAvKey) (terminates : Bool) (g id : Nat) :
    Prop where
  exceptAt : ExceptAt g s.ini.cb ini.cb
  only : ∀ id' < s.begun, ¬(s.groups id').Done → (s.groups id').grp = g → id' = id
  held : Held ini.cb ((s.groups id).post g terminates)
  avs : ∀ e ∈ ini.avs, e = (key, g) ∧ terminates = false ∨ e.1 ≠ key ∧ e ∈ s.ini.avs
  others : ∀ e ∈ s.ini.avs, e.1 ≠ key → s.filling e.1 ≠ id
  number : ∀ m ∈ s.msgs, m.id = id → m.grp = g ∧ m.terminates = false

theorem SyncInv.posted {ini : SyncIni} {id begun : Nat} (hp : Posts s ini key terminates g id)
    (hid : id < begun) (hbegun : s.begun ≤ begun) (hlast : ∀ id', id' < begun → id' ≠ id → id' < s.begun) :
    SyncInv { ini := ini
              msgs := ⟨id, g, terminates⟩ :: s.msgs
              groups := update s.groups id ((s.groups id).post g terminates)
              begun := begun
              filling := update s.filling key id } := by
  have hself : update s.groups id ((s.groups id).post g terminates) id =
      (s.groups id).post g terminates := update_self ..
  have hother : ∀ {id'}, id' ≠ id → update s.groups id ((s.groups id).post g terminates) id' =
      s.groups id' := fun h => update_of_ne h _ _
  -- an open group with the number is the one the message is counted in
  have honly : ∀ id' < begun, id' ≠ id → ¬(s.groups id').Done → (s.groups id').grp ≠ g :=
    fun id' hlt hne hd hgrp => hne (hp.only id' (hlast id' hlt hne) hd hgrp)
  constructor
  case held =>
    intro id' hlt hd
    by_cases hne : id' = id
    · subst hne
      simp only [update_self]
      exact hp.held
    · simp only [hother hne] at hd ⊢
      exact (hi.held id' (hlast id' hlt hne) hd).other hp.exceptAt (honly id' hlt hne hd)
  case distinct =>
    intro id₁ h₁ id₂ h₂ hd₁ hd₂ hgrp
    by_cases hne₁ : id₁ = id <;> by_cases hne₂ : id₂ = id
    · rw [hne₁, hne₂]
    · subst hne₁
      simp only [hself, hother hne₂] at hd₂ hgrp
      exact absurd hgrp.symm (honly id₂ h₂ hne₂ hd₂)
    · subst hne₂
      simp only [hself, hother hne₁] at hd₁ hgrp
      exact absurd hgrp (honly id₁ h₁ hne₁ hd₁)
    · simp only [hother hne₁, hother hne₂] at hd₁ hd₂ hgrp
      exact hi.distinct _ (hlast _ h₁ hne₁) _ (hlast _ h₂ hne₂) hd₁ hd₂ hgrp
  case fresh =>
    intro id' hge
    have hne : id' ≠ id := Nat.ne_of_gt (lt_of_lt_of_le hid hge)
    exact (hother hne).trans (hi.fresh id' (le_trans hbegun hge))
  case filling =>
    intro e he
    rcases hp.avs e he with ⟨rfl, ht⟩ | ⟨hne, hmem⟩
    · simp only [update_self]
      exact ⟨hid, rfl, ht⟩
    obtain ⟨h1, h2⟩ := hi.filling e hmem
    simp only [update_of_ne hne, hother (hp.others e hmem hne)]
    exact ⟨lt_of_lt_of_le h1 hbegun, h2⟩
  case apart =>
    intro e he e' he' hf
    rcases hp.avs e he with ⟨rfl, -⟩ | ⟨hne, hmem⟩ <;>
      rcases hp.avs e' he' with ⟨rfl, -⟩ | ⟨hne', hmem'⟩
    · rfl
    · simp only [update_self, update_of_ne hne'] at hf
      exact absurd hf.symm (hp.others e' hmem' hne')
    · simp only [update_self, update_of_ne hne] at hf
      exact absurd hf (hp.others e hmem hne)
    · simp only [update_of_ne hne, update_of_ne hne'] at hf
      exact hi.apart e hmem e' hmem' hf
  case msg =>
    intro m hm
    rcases mem_cons.1 hm with rfl | hm
    · simp only [hself]
      exact ⟨hid, rfl, fun h => h⟩
    obtain ⟨h1, h2, h3⟩ := hi.msg m hm
    refine ⟨lt_of_lt_of_le h1 hbegun, ?_⟩
    by_cases hne : m.id = id
    · obtain ⟨hgrp, hterm⟩ := hp.number m hm hne
      simp only [hne, hself, hterm]
      exact ⟨hgrp, fun h => by cases h⟩
    · simp only [hother hne]
      exact ⟨h2, h3⟩
  case counted =>
    intro id'
    have hc := hi.counted id'
    by_cases hne : id' = id
    · subst hne
      simp only [update_self, countP_cons, decide_true, if_true, SyncGrp.post]
      omega
    have hne' : id ≠ id' := Ne.symm hne
    simp only [hother hne, countP_cons, hne', decide_false]
    exact hc

end

theorem Held.post {c : SyncGrpCnts} (ha : cb.allocated g = true) (hc : cb.cnts g = c)
    (hcur : c.curCnt.toNat = x.posted + 1) (hcmpl : c.cmplCnt = 0 ∧ x.completed = 0)
    (htot : c.totCnt = if terminates then c.curCnt else 0) : Held cb (x.post g terminates) := by
  refine ⟨ha, fun ht => ?_, fun ht => ?_⟩
  · have ht : terminates = false := ht
    rw [ht] at htot
    exact hc ▸ ⟨hcur, htot, hcmpl⟩
  · have ht : terminates = true := ht
    rw [ht] at htot
    refine hc ▸ ⟨htot ▸ hcur, ?_⟩
    rw [hcmpl.1]
    exact hcmpl.2.symm

def countSync (s : SyncIni) (g : Nat) (key : SyncAvKey) (terminates : Bool) : SyncIni :=
  if terminates then syncGrpEndInitiator { s with cb := incSyncGrpCurCnt s.cb g } g key
  else { s with cb := incSyncGrpCurCnt s.cb g }

theorem countSync_exceptAt (s : SyncIni) (g : Nat) (key : SyncAvKey) (terminates : Bool) :
    ExceptAt g s.cb (countSync s g key terminates).cb := by
  have hinc := setCnts_exceptAt s.cb g { s.cb.cnts g with curCnt := (s.cb.cnts g).curCnt + 1 }
  cases terminates with
  | false => exact hinc
  | true => exact hinc.trans (setCnts_exceptAt _ g _)

theorem countSync_held {s : SyncIni} (key : SyncAvKey) (terminates : Bool) (ha : s.cb.allocated g = true)
    (hcur : (s.cb.cnts g).curCnt.toNat = x.posted) (hroom : x.posted + 1 < 2 ^ 16) (htot : (s.cb.cnts g).totCnt = 0)
    (hcmpl : (s.cb.cnts g).cmplCnt = 0) (hcompl : x.completed = 0) :
    Held (countSync s g key terminates).cb (x.post g terminates) := by
  have hone : ((s.cb.cnts g).curCnt + 1).toNat = x.posted + 1 := by
    rw [BitVec.toNat_add, hcur]
    exact Nat.mod_eq_of_lt hroom
  cases terminates with
  | false =>
    exact .post ha (setCnts_same ..) hone ⟨hcmpl, hcompl⟩ htot
  | true =>
    refine .post ha (setCnts_same ..) ?_ ⟨?_, hcompl⟩ rfl
    · simp only [incSyncGrpCurCnt, setCnts_same]
      exact hone
    · simp only [incSyncGrpCurCnt, setCnts_same]
      exact hcmpl

theorem countSync_avs {s : SyncIni} (hkey : ∀ e ∈ s.avs, e.1 = key → e.2 = g) :
    ∀ e ∈ (countSync s g key terminates).avs,
      e = (key, g) ∧ terminates = false ∨ e.1 ≠ key ∧ e ∈ s.avs := by
  intro e he
  cases terminates with
  | false =>
    have he : e ∈ s.avs := he
    by_cases hk : e.1 = key
    · exact Or.inl ⟨Prod.ext hk (hkey e he hk), rfl⟩
    · exact Or.inr ⟨hk, he⟩
  | true =>
    obtain ⟨hmem, hk⟩ := mem_filter.1 he
    exact Or.inr ⟨of_decide_eq_true hk, hmem⟩

theorem SyncInv.send_filling (hi : SyncInv s) {env : SyncEnv} (hl : s.ini.avs.lookup key = some g)
    (hd : env.txDesc = true) (hroom : (s.ini.cb.cnts g).curCnt.toNat + 1 < 2 ^ 16) :
    SyncInv (s.step (.send key terminates env)) := by
  have hstep : s.step (.send key terminates env) =
      { ini := countSync s.ini g key terminates
        msgs := ⟨s.filling key, g, terminates⟩ :: s.msgs
        groups := update s.groups (s.filling key)
          ((s.groups (s.filling key)).post g terminates)
        begun := s.begun
        filling := update s.filling key (s.filling key) } := by
    simp only [SyncRun.step, sendReqSync, getSyncGrpAv, hl, hd, if_true, countSync,
      SyncRun.posted, Option.isNone_some, Bool.false_eq_true, if_false]
  have hmem := Assoc.mem_of_lookup hl
  obtain ⟨hlt, hgrp, hterm⟩ := hi.filling _ hmem
  have hopen := not_done_of_filling hterm
  have hheld := hi.held _ hlt hopen
  obtain ⟨hcur, htot, hcmpl, hcompl⟩ := hheld.filled hterm
  have hall := hheld.allocated
  rw [hgrp] at hcur htot hcmpl hall
  rw [hstep]
  refine hi.posted ⟨countSync_exceptAt .., ?_, ?_, countSync_avs ?_, ?_, ?_⟩ hlt le_rfl
    (fun _ h _ => h)
  · exact fun id hid hd hg => hi.distinct id hid _ hlt hd hopen (hg.trans hgrp.symm)
  · exact countSync_held key terminates hall hcur (hcur ▸ hroom) htot hcmpl hcompl
  · intro e he hk
    rw [← (hi.filling e he).2.1, hk, hgrp]
  · exact fun e he hk hf => hk (hi.apart e he _ hmem hf)
  · intro m hm hid
    obtain ⟨-, h2, h3⟩ := hi.msg m hm
    rw [hid] at h2 h3
    refine ⟨h2.trans hgrp, Bool.eq_false_iff.2 fun ht => ?_⟩
    rw [h3 ht] at hterm
    cases hterm

theorem getSyncGrpAv_new {s ini : SyncIni} {calloc : Bool} (hl : s.avs.lookup key = none)
    (h : getSyncGrpAv s key calloc = some (g, ini)) :
    ∃ cb, TakesGrp s.cb cb g ∧ ini = ⟨incSyncGrpCurCnt cb g, (key, g) :: s.avs⟩ := by
  simp only [getSyncGrpAv, hl] at h
  split at h
  · split at h
    · cases h
    · next hcb =>
      cases h
      exact ⟨_, allocSyncGrp_takes hcb, rfl⟩
  · cases h

theorem SyncInv.not_available (hi : SyncInv s) (hg : s.ini.cb.allocated g = false) :
    ∀ id < s.begun, ¬(s.groups id).Done → (s.groups id).grp ≠ g := by
  intro id hid hd heq
  have := (hi.held id hid hd).allocated
  rw [heq, hg] at this
  cases this

theorem SyncInv.send_refused (hi : SyncInv s) (hl : s.ini.avs.lookup key = none) (ht : TakesGrp s.ini.cb cb g) :
    SyncInv { s with
      ini := syncGrpFreeInitiator ⟨incSyncGrpCurCnt cb g, (key, g) :: s.ini.avs⟩ g key } := by
  have hkey : ∀ e ∈ s.ini.avs, e.1 ≠ key := fun e he => Assoc.ne_of_lookup_none hl he
  have havs : ((key, g) :: s.ini.avs).filter (·.1 ≠ key) = s.ini.avs := by
    rw [filter_cons_of_neg (by simp), filter_eq_self.2 (by simpa using hkey)]
  simp only [syncGrpFreeInitiator, SyncIni.remove, havs]
  exact hi.frame ((ht.exceptAt.trans (setCnts_exceptAt ..)).trans (deallocSyncGrp_exceptAt ..))
    (hi.not_available ht.available)

theorem SyncInv.send_begins (hi : SyncInv s) (hl : s.ini.avs.lookup key = none) (ht : TakesGrp s.ini.cb cb g) :
    SyncInv (s.posted (countSync ⟨cb, (key, g) :: s.ini.avs⟩ g key terminates) key terminates g) := by
  have hkey : ∀ e ∈ s.ini.avs, e.1 ≠ key := fun e he => Assoc.ne_of_lookup_none hl he
  have hzero := hi.fresh s.begun le_rfl
  have hexc := countSync_exceptAt ⟨cb, (key, g) :: s.ini.avs⟩ g key terminates
  have hin : ∀ e ∈ (key, g) :: s.ini.avs, e.1 = key → e.2 = g := by
    intro e he hk
    rcases mem_cons.1 he with rfl | he
    · rfl
    · exact absurd hk (hkey e he)
  simp only [SyncRun.posted, hl, Option.isNone_none, if_true]
  refine hi.posted ⟨ht.exceptAt.trans hexc, ?_, ?_, ?_, ?_, ?_⟩
    (Nat.lt_succ_self _) (Nat.le_succ _) (fun _ h hne => by omega)
  · exact fun id hid hd hg => absurd hg (hi.not_available ht.available id hid hd)
  · refine countSync_held key terminates ht.allocated ?_ ?_ ?_ ?_ ?_ <;>
      simp [ht.cnts, hzero]
  · intro e he
    rcases countSync_avs hin e he with h | ⟨hk, hmem⟩
    · exact Or.inl h
    rcases mem_cons.1 hmem with rfl | hmem
    · exact absurd rfl hk
    · exact Or.inr ⟨hk, hmem⟩
  · exact fun e he _ hf => lt_irrefl _ (hf ▸ (hi.filling e he).1)
  · exact fun m hm hid => absurd (hid ▸ (hi.msg m hm).1) (lt_irrefl _)

theorem SyncInv.send (hi : SyncInv s) {env : SyncEnv} (hc : KeepsNumbers s (.send key terminates env)) :
    SyncInv (s.step (.send key terminates env)) := by
  obtain ⟨hdesc, hroom⟩ := hc
  cases hl : s.ini.avs.lookup key with
  | some g =>
    have hd : env.txDesc = true := by
      cases hd : env.txDesc with
      | true => rfl
      | false =>
        rw [hdesc hd] at hl
        cases hl
    exact hi.send_filling hl hd (hroom g hl)
  | none =>
    cases hget : getSyncGrpAv s.ini key env.calloc with
    | none =>
      simp only [SyncRun.step, sendReqSync, hget]
      exact hi
    | some r =>
      obtain ⟨g, ini⟩ := r
      obtain ⟨cb, ht, rfl⟩ := getSyncGrpAv_new hl hget
      cases hd : env.txDesc with
      | false =>
        simp only [SyncRun.step, sendReqSync, hget, hd, Bool.false_eq_true, if_false]
        exact hi.send_refused hl ht
      | true =>
        simp only [SyncRun.step, sendReqSync, hget, hd, if_true]
        exact hi.send_begins hl ht

theorem completion_held {s : SyncIni} (hh : Held s.cb x) (ht : x.terminated = true) (hlt : x.completed < x.posted) :
    ExceptAt x.grp s.cb (syncGrpCompletionInitiator s x.grp).cb ∧
      (¬x.complete.Done → Held (syncGrpCompletionInitiator s x.grp).cb x.complete) := by
  obtain ⟨htot, hcmpl⟩ := hh.ended ht
  have hone : ((s.cb.cnts x.grp).cmplCnt + 1).toNat = x.completed + 1 := by
    rw [BitVec.toNat_add, hcmpl]
    exact Nat.mod_eq_of_lt (show x.completed + 1 < 2 ^ 16 by omega)
  unfold syncGrpCompletionInitiator
  dsimp only
  split
  · next hle =>
    refine ⟨(setCnts_exceptAt ..).trans (deallocSyncGrp_exceptAt ..), fun hd => ?_⟩
    rw [BitVec.le_def, hone, htot] at hle
    exact absurd ⟨ht, le_antisymm hlt hle⟩ hd
  · refine ⟨setCnts_exceptAt .., fun _ => ⟨hh.allocated, fun hf => ?_, fun _ => ?_⟩⟩
    · rw [SyncGrp.complete, ht] at hf
      cases hf
    · simp only [SyncGrp.complete, setCnts_same]
      exact ⟨htot, hone⟩

theorem completion_avs (s : SyncIni) (g : Nat) : (syncGrpCompletionInitiator s g).avs = s.avs := by
  unfold syncGrpCompletionInitiator
  dsimp only
  split <;> rfl

theorem SyncInv.complete (hi : SyncInv s) {i : Nat} (hc : KeepsNumbers s (.complete i)) :
    SyncInv (s.step (.complete i)) := by
  cases hm : s.msgs[i]? with
  | none =>
    simp only [SyncRun.step, hm]
    exact hi
  | some m =>
    have hterm := hc m hm
    obtain ⟨hlt, hmi⟩ := List.getElem?_eq_some_iff.1 hm
    have hmem : m ∈ s.msgs := mem_of_getElem? hm
    obtain ⟨hid, hgrp, -⟩ := hi.msg m hmem
    have hopen := hi.not_done hmem
    obtain ⟨hexc, hheld⟩ := completion_held (hi.held _ hid hopen) hterm (hi.lt_posted hmem)
    rw [← hgrp] at hexc hheld
    -- only the completions of the group of the message change
    have hself : update s.groups m.id (s.groups m.id).complete m.id =
        (s.groups m.id).complete := update_self ..
    have hother : ∀ {id}, id ≠ m.id →
        update s.groups m.id (s.groups m.id).complete id = s.groups id :=
      fun h => update_of_ne h _ _
    have hkeeps : ∀ id, (update s.groups m.id (s.groups m.id).complete id).grp =
        (s.groups id).grp ∧ (update s.groups m.id (s.groups m.id).complete id).terminated =
        (s.groups id).terminated ∧
        (¬(update s.groups m.id (s.groups m.id).complete id).Done →
          ¬(s.groups id).Done) := by
      intro id
      by_cases hne : id = m.id
      · subst hne
        rw [hself]
        exact ⟨rfl, rfl, fun _ => hopen⟩
      · rw [hother hne]
        exact ⟨rfl, rfl, fun h => h⟩
    simp only [SyncRun.step, hm]
    constructor
    case held =>
      intro id hid' hd
      by_cases hne : id = m.id
      · subst hne
        simp only [hself] at hd ⊢
        exact hheld hd
      simp only [hother hne] at hd ⊢
      refine (hi.held id hid' hd).other hexc fun hg => hne ?_
      exact hi.distinct id hid' _ hid hd hopen (hg.trans hgrp)
    case distinct =>
      intro id₁ h₁ id₂ h₂ hd₁ hd₂ hg
      rw [(hkeeps id₁).1, (hkeeps id₂).1] at hg
      exact hi.distinct id₁ h₁ id₂ h₂ ((hkeeps id₁).2.2 hd₁) ((hkeeps id₂).2.2 hd₂) hg
    case fresh =>
      intro id hge
      exact (hother (Nat.ne_of_gt (lt_of_lt_of_le hid hge))).trans (hi.fresh id hge)
    case filling =>
      intro e he
      simp only [completion_avs] at he
      rw [(hkeeps _).1, (hkeeps _).2.1]
      exact hi.filling e he
    case apart =>
      simp only [completion_avs]
      exact hi.apart
    case msg =>
      intro m' hm'
      rw [(hkeeps _).1, (hkeeps _).2.1]
      exact hi.msg m' (mem_of_mem_eraseIdx hm')
    case counted =>
      intro id
      have hp := (getElem_cons_eraseIdx_perm hlt).countP_eq (fun x => decide (x.id = id))
      rw [countP_cons, hmi] at hp
      have hcnt := hi.counted id
      by_cases hne : id = m.id
      · subst hne
        simp only [decide_true, if_true] at hp
        simp only [hself]
        simp only [SyncGrp.complete]
        omega
      · simp only [decide_eq_false (Ne.symm hne), Bool.false_eq_true, if_false] at hp
        simp only [hother hne]
        omega

theorem SyncInv.step (hi : SyncInv s) {ev : SyncEv} (hc : KeepsNumbers s ev) : SyncInv (s.step ev) := by
  cases ev with
  | send key terminates env => exact hi.send hc
  | complete i => exact hi.complete hc

def syncAv (i : Nat) : SyncAvKey := ⟨0, i⟩

def syncOk : SyncEnv := ⟨true, true⟩

def earlyCompletion : SyncRun :=
  [.send (syncAv 0) false syncOk, .complete 0].foldl SyncRun.step .init

def failedPost : SyncRun :=
  [.send (syncAv 0) false syncOk, .send (syncAv 0) false ⟨true, false⟩].foldl SyncRun.step .init

/-- In both runs the number goes back to the allocator although no terminating message was
posted; in the first the destination goes on filling the group. -/
theorem number_returned_early :
    (earlyCompletion.ini.avs = [(syncAv 0, 0)] ∧ earlyCompletion.ini.cb.allocated 0 = false ∧
      earlyCompletion.groups 0 = ⟨0, 1, 1, false⟩) ∧
    (failedPost.ini.cb.allocated 0 = false ∧ failedPost.groups 0 = ⟨0, 1, 0, false⟩) ∧
    ¬∀ evs : List SyncEv, SyncNumbers (evs.foldl SyncRun.step .init) := by
  refine ⟨by decide +kernel, by decide +kernel, fun h => ?_⟩
  have hd : (earlyCompletion.groups 0).Done :=
    (h _).returned 0 (by decide +kernel) (by decide +kernel)
  exact absurd hd.1 (by decide +kernel)

/-- While no message completes before its group is terminated, no post fails in the middle of a
group and no group outgrows its counts, the numbers do what they are for. -/
theorem sync_numbers (evs : List SyncEv) (h : Guarded.Meets SyncRun.step KeepsNumbers .init evs) :
    SyncNumbers (evs.foldl SyncRun.step .init) :=
  (h.keep (P := SyncInv) (fun _ _ hi hc => hi.step hc) SyncInv.init).numbers

/-- Two groups that are filled at the same time; the first is terminated and its messages
complete, the terminating one first. -/
def twoGroups : List SyncEv :=
  [.send (syncAv 0) false syncOk, .send (syncAv 1) false syncOk, .send (syncAv 0) true syncOk,
    .complete 0, .complete 1]

theorem sync_numbers_twoGroups :
    Guarded.Meets SyncRun.step KeepsNumbers .init twoGroups ∧
      (twoGroups.foldl SyncRun.step .init).groups 0 = ⟨0, 2, 2, true⟩ ∧
      SyncNumbers (twoGroups.foldl SyncRun.step .init) := by
  have h : Guarded.Meets SyncRun.step KeepsNumbers .init twoGroups := by decide +kernel
  exact ⟨h, by decide +kernel, sync_numbers twoGroups h⟩

end Uet.Ses
