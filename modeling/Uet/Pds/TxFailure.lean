import Uet.Pds.Manager
import Uet.Pds.TxInvariant

/-!
# A transmit that fails

`uet_pds_tx_pkt` takes a PDC, tracks the packet in `tx_bm`, maps the message and hands the packet to the NIC; any of
these can fail. In every state that the calls reach, a failed call leaves the allocated PDCs and the message map as they
were. A PDC that it took from the free list stays allocated, with nothing on it.
-/

namespace Uet.Pds

open Function

/-! ## What a PDC keeps -/

variable (env : Env)

section

variable {p : Pdc} (r : TxReq)

theorem txEndOfMsg_calm (h : p.calm) : (txEndOfMsg env p r).calm := by
  unfold txEndOfMsg
  dsimp only
  split
  · split <;> split <;> first | exact h.ended | exact h.ended.request
  · exact h

theorem txLookup_som {r : TxReq} (h : txLookup p r = .ok) (hinfo : r.pdsInfo = false) (hsom : r.som = true) :
    p.isInitiator = true ∧ p.state ≠ .unalloc ∧ p.closeRequested = false ∧ p.activeMsgIdValid = false := by
  rw [txLookup, if_neg (by simp [hinfo]), if_pos hsom] at h
  split at h
  · cases h
  split at h
  · cases h
  · simp_all

theorem mapMsg_calm (h : p.calm) (hl : txLookup p r = .ok) : (mapMsg p r).calm := by
  unfold mapMsg
  split
  · rename_i hsom
    obtain ⟨hinfo, hsom⟩ := Bool.and_eq_true_iff.mp hsom
    obtain ⟨hini, hun, hreq, -⟩ := txLookup_som hl (by simpa using hinfo) hsom
    refine ⟨h.1, nofun, fun _ => ⟨hini, hun⟩, fun hi hc => ?_, h.pending⟩
    exact absurd (hreq.symm.trans (h.closes hi hc).1) (by decide)
  · exact h

theorem txPkt_calm (h : p.calm) : (txPkt env p r).1.calm := by
  have hsend : txLookup p r = .ok → (txSend env p r).1.calm := by
    intro hl
    unfold txSend
    dsimp only
    split
    · exact h
    split
    · unfold unmapMsg
      split
      · exact h.ended
      · exact h
    · apply ((worked_admits env).txClose _).calm
      apply txEndOfMsg_calm
      exact mapMsg_calm (p := sentReq env p r) r h hl
  unfold txPkt
  split
  · rename_i hl
    split
    · exact h
    split
    · exact h
    split
    · exact h
    · split
      · exact h
      · split
        · exact h
        · exact hsend hl
  · exact h

theorem step_calm (e : Event) (h : p.calm) : (step env p e).1.calm := by
  cases e with
  | rx => exact (work_worked env p (.rx ..)).calm h
  | progressTxPkt => exact (work_worked env p (.progressTxPkt ..)).calm h
  | reapPending => exact (work_worked env p .reapPending).calm h
  | closeReqTimer => exact (work_worked env p .closeReqTimer).calm h
  | txPkt r => exact txPkt_calm env r h
  | dropTxPkts hd =>
    simp only [step]
    split <;> exact h
  | msgCmplInd =>
    simp only [step, msgCmplInd]
    split
    · exact ((worked_admits env).initiatePdcClose _).calm h.ended
    · exact h.ended

theorem txPkt_fail (h : p.calm) (hrc : (txPkt env p r).2.2 ≠ .ok) : (txPkt env p r).1 = p := by
  have hsend : txLookup p r = .ok → (txSend env p r).2.2 ≠ .ok → (txSend env p r).1 = p := by
    intro hl
    unfold txSend
    dsimp only
    split
    · exact fun _ => rfl
    split
    · intro _
      unfold unmapMsg
      split
      · -- a start of message found the PDC without a message
        rename_i hsom
        obtain ⟨hinfo, hsom⟩ := Bool.and_eq_true_iff.mp hsom
        obtain ⟨-, -, -, hv⟩ := txLookup_som hl (by simpa using hinfo) hsom
        rw [← h.zero hv, ← hv]
      · rfl
    · exact fun hok => absurd rfl hok
  unfold txPkt at hrc ⊢
  split
  · rename_i hl
    rw [hl] at hrc
    split
    · rfl
    rename_i h1
    split
    · rfl
    rename_i h2
    split
    · rfl
    rename_i h3
    split
    · rfl
    rename_i h4
    split
    · rfl
    rename_i h5
    rw [if_neg h1, if_neg h2, if_neg h3, if_neg h4, if_neg h5] at hrc
    exact hsend hl hrc
  · rfl

end

/-! ## The pool of PDCs -/

structure Pool (s : Pdsm) : Prop where
  nodup : s.free.Nodup
  idle : ∀ i ∈ s.free, (s.pdc i).state = .unalloc
  each : ∀ i, (s.pdc i).released ∧ (s.pdc i).calm

namespace Pool

variable {s : Pdsm} {i : PdcId}

section

variable (h : Pool s)
include h

theorem update_each {p : Pdc} (hp : p.released ∧ p.calm) (j : PdcId) :
    (update s.pdc i p j).released ∧ (update s.pdc i p j).calm := by
  by_cases hj : j = i
  · rw [hj, update_self]
    exact hp
  · rw [update_of_ne hj]
    exact h.each j

theorem put {p : Pdc} (hstay : (s.pdc i).state = .unalloc → p.state = .unalloc)
    (hp : p.released ∧ p.calm) : Pool (s.put i p) := by
  have hidle : ∀ j ∈ s.free, (update s.pdc i p j).state = .unalloc := by
    intro j hj
    by_cases hji : j = i
    · subst hji
      rw [update_self]
      exact hstay (h.idle j hj)
    · rw [update_of_ne hji]
      exact h.idle j hj
  unfold Pdsm.put
  split
  · rename_i hfreed
    refine ⟨?_, fun j hj => ?_, h.update_each hp⟩
    · apply List.Nodup.append h.nodup (List.nodup_singleton i)
      intro j hj hji
      rw [List.mem_singleton.mp hji] at hj
      exact hfreed.2 (h.idle i hj)
    · rcases List.mem_append.mp hj with hj | hj
      · exact hidle j hj
      · rw [List.mem_singleton.mp hj]
        show (update s.pdc i p i).state = _
        rw [update_self]
        exact hfreed.1
  · exact ⟨h.nodup, hidle, h.update_each hp⟩

theorem put_step (e : Event) : Pool (s.put i (step env (s.pdc i) e).1) := by
  obtain ⟨hrel, hcalm⟩ := h.each i
  apply h.put
  · intro hu
    obtain ⟨outs, heq, -⟩ := step_unalloc env (s.pdc i) e hrel hu
    rw [heq]
    exact hu
  · exact ⟨step_released env _ e hrel, step_calm env e hcalm⟩

theorem alloc {free : List PdcId} (hf : s.free = i :: free) {p : Pdc} (hp : p.released ∧ p.calm)
    {iniHt : List (IniKey × PdcId)} : Pool { s with free, pdc := update s.pdc i p, iniHt } := by
  have hnd := h.nodup
  rw [hf, List.nodup_cons] at hnd
  refine ⟨hnd.2, fun j hj => ?_, h.update_each hp⟩
  have hne : j ≠ i := fun heq => hnd.1 (heq ▸ hj)
  show (update s.pdc i p j).state = _
  rw [update_of_ne hne]
  exact h.idle j (hf ▸ List.mem_cons_of_mem _ hj)

theorem resolve_cases (q : TxArgs) : (s.resolve q).1 = s ∨ ∃ i free, s.free = i :: free ∧
    (s.resolve q).1 = { s with
      free, pdc := update s.pdc i (newIniPdc (s.pdc i) q.sec q.localFa q.req.dstFa q.startPsn)
      iniHt := (q.key, i) :: s.iniHt } := by
  unfold Pdsm.resolve
  split
  · exact .inl rfl
  split
  · unfold Pdsm.assignIni
    split
    · split
      · rename_i i _ herr
        exact absurd herr (h.each i).2.1
      · split <;> exact .inl rfl
    · unfold Pdsm.allocIni
      split
      · exact .inl rfl
      · rename_i i free hf
        exact .inr ⟨i, free, hf, rfl⟩
  · exact .inl rfl

omit h in
theorem newIni (sec : Bool) (src dst : Fa) (psn : Psn) :
    (newIniPdc (s.pdc i) sec src dst psn).released ∧ (newIniPdc (s.pdc i) sec src dst psn).calm :=
  ⟨nofun, nofun, fun _ => rfl, nofun, fun _ hc => hc.elim nofun nofun, nofun⟩

theorem resolve (q : TxArgs) : Pool (s.resolve q).1 := by
  rcases h.resolve_cases q with heq | ⟨i, free, hf, heq⟩
  · rw [heq]
    exact h
  · rw [heq]
    exact h.alloc hf (newIni ..)

theorem txPkt (q : TxArgs) : Pool (s.txPkt env q).1 := by
  have hres := h.resolve q
  unfold Pdsm.txPkt
  split
  · exact h
  generalize s.resolve q = x at hres ⊢
  obtain ⟨s1, o⟩ := x
  cases o with
  | none => exact hres
  | some i =>
    have hput : Pool (s1.put i (Pds.txPkt env (s1.pdc i) q.req).1) := hres.put_step env (.txPkt q.req)
    dsimp only
    generalize Pds.txPkt env (s1.pdc i) q.req = y at hput ⊢
    obtain ⟨p, outs, rc⟩ := y
    cases rc with
    | ok =>
      unfold Pdsm.noteMsg
      dsimp only
      split
      · exact hput
      · split <;> split <;> exact ⟨hput.nodup, hput.idle, hput.each⟩
    | again => exact hput
    | err => exact hput

theorem call (c : PdsCall) : Pool (s.call c).1 := by
  cases c with
  | txPkt => exact h.txPkt ..
  | msgCmplInd env m =>
    simp only [Pdsm.call, Pdsm.msgCmplInd]
    split
    · exact h
    rename_i i _
    have hput : Pool (s.put i (Pds.msgCmplInd env (s.pdc i)).1) := h.put_step env .msgCmplInd
    exact ⟨hput.nodup, hput.idle, hput.each⟩
  | dropTxPkts hd =>
    have hsame : ∀ i, ((s.dropTxPkts hd).pdc i).state = (s.pdc i).state ∧
        ((s.dropTxPkts hd).pdc i).released ∧ ((s.dropTxPkts hd).pdc i).calm := by
      intro i
      simp only [Pdsm.dropTxPkts]
      split <;> exact ⟨rfl, h.each i⟩
    exact ⟨h.nodup, fun i hi => (hsame i).1.trans (h.idle i hi), fun i => (hsame i).2⟩
  | assignTgt sec syn base pending =>
    simp only [Pdsm.call, Pdsm.assignTgt]
    split
    · exact h
    rename_i i free hf
    apply h.alloc hf
    cases pending <;>
      refine ⟨fun h => ?_, fun h => ?_, fun _ => rfl, fun h => ?_, fun h => ?_, fun _ => rfl⟩ <;> cases h
  | work env i w => exact h.put_step env w.event

theorem history (cs : List PdsCall) : Pool (s.history cs).1 := by
  induction cs generalizing s with
  | nil => exact h
  | cons c cs ih => exact ih (h.call c)

end

theorem init : Pool Pdsm.init :=
  ⟨by decide, fun _ _ => rfl, fun _ => ⟨fun _ => ⟨rfl, rfl, rfl⟩, nofun, fun _ => rfl, nofun, nofun, fun _ => rfl⟩⟩

end Pool

/-! ## Failures -/

/-- The PDCs that were allocated and the message map are as they were; at most one PDC was taken from the free list,
and no packet is on it. -/
structure Untouched (s s' : Pdsm) : Prop where
  pdcs : ∀ i, (s.pdc i).state ≠ .unalloc → s'.pdc i = s.pdc i
  map : s'.msgidHt = s.msgidHt
  taken : ∃ i, ∀ j, s'.pdc j ≠ s.pdc j → j = i ∧ j ∈ s.free ∧ (s'.pdc j).tx.txPktList = [] ∧
    ∀ k, (s'.pdc j).tx.txBm.get k = none

theorem Untouched.refl (s : Pdsm) : Untouched s s := ⟨fun _ _ => rfl, rfl, 0, fun _ h => absurd rfl h⟩

theorem Pool.untouched {s : Pdsm} (h : Pool s) (q : TxArgs) : Untouched s (s.resolve q).1 := by
  rcases h.resolve_cases q with heq | ⟨i, free, hf, heq⟩
  · rw [heq]
    exact .refl s
  have hi : i ∈ s.free := hf ▸ List.mem_cons_self
  rw [heq]
  refine ⟨fun j hj => ?_, rfl, i, fun j hj => ?_⟩
  · have hji : j ≠ i := fun hji => hj (hji.symm ▸ h.idle i hi)
    exact update_of_ne hji ..
  · have hji : j = i := by
      by_contra hne
      exact hj (update_of_ne hne ..)
    subst hji
    refine ⟨rfl, hi, ?_⟩
    simp only [update_self]
    exact ⟨rfl, PtrBitmap.get_clear _⟩

/-- Whatever has happened before, a transmit that fails is as if it had not been made, but for a PDC that it took. -/
theorem tx_failure_atomic (cs : List PdsCall) (env : Env) (q : TxArgs) :
    let s := (Pdsm.init.history cs).1
    (s.txPkt env q).2 ≠ .ok → Untouched s (s.txPkt env q).1 := by
  intro s hrc
  have h : Pool s := Pool.init.history cs
  have hres := h.resolve q
  have hun := h.untouched q
  unfold Pdsm.txPkt at hrc ⊢
  split
  · exact .refl s
  rename_i hnext
  rw [if_neg hnext] at hrc
  generalize s.resolve q = x at hres hun hrc ⊢
  obtain ⟨s1, o⟩ := x
  cases o with
  | none => exact hun
  | some i =>
    have hfail := txPkt_fail env q.req (hres.each i).2
    dsimp only at hrc ⊢
    generalize Pds.txPkt env (s1.pdc i) q.req = y at hfail hrc ⊢
    obtain ⟨p, outs, rc⟩ := y
    have hput : rc ≠ .ok → Untouched s (s1.put i p) := by
      intro hne
      have hp : p = s1.pdc i := hfail hne
      rw [hp, Pdsm.put, if_neg fun hc => hc.2 hc.1, update_eq_self]
      exact hun
    cases rc with
    | ok => exact absurd rfl hrc
    | again => exact hput (by decide)
    | err => exact hput (by decide)

def aPacket (som : Bool) : TxArgs :=
  { req := { handle := some 1, mode := .rud, pdsInfo := false, som, eom := false, maintainPdc := false, msgId := 5
             nextHdr := .reqStd, dstFa := .v4 2, payloadLen := 64 }
    infoPdc := 0, jobId := 1, localFa := .v4 1, sec := false, startPsn := 1000 }

/-- The second packet of the message is refused by the NIC. -/
theorem tx_failure_atomic_refused :
    let env := calmEnv fun _ => .noBuf
    let s := (Pdsm.init.history [.txPkt env (aPacket true)]).1
    (s.pdc 1).tx.txPktList = [0] ∧ (s.txPkt { env with nic := fun _ => false } (aPacket false)).2 = .err ∧
    Untouched s (s.txPkt { env with nic := fun _ => false } (aPacket false)).1 := by
  intro env s
  have hrc : (s.txPkt { env with nic := fun _ => false } (aPacket false)).2 = .err := by decide +kernel
  refine ⟨by decide +kernel, hrc, tx_failure_atomic _ _ _ ?_⟩
  rw [hrc]
  decide

/-- Nobody has PDC `i` and nobody can get it. -/
def Pdsm.Lost (s : Pdsm) (i : PdcId) : Prop := (s.pdc i).state = .unalloc ∧ i ∉ s.free

namespace Pool

variable {s : Pdsm} {i j : PdcId} {p : Pdc}

theorem lost_put (h : (s.put i p).Lost j) : s.Lost j := by
  unfold Pdsm.put Pdsm.Lost at *
  by_cases hj : j = i <;> split at h <;> simp_all

theorem lost_alloc {free : List PdcId} (hf : s.free = i :: free) (hp : p.state ≠ .unalloc)
    {iniHt : List (IniKey × PdcId)} (h : Pdsm.Lost { s with free, pdc := update s.pdc i p, iniHt } j) : s.Lost j := by
  unfold Pdsm.Lost at *
  by_cases hj : j = i <;> simp_all

theorem lost_call (h : Pool s) (c : PdsCall) (hl : (s.call c).1.Lost j) : s.Lost j := by
  cases c with
  | txPkt env q =>
    have hres : (s.resolve q).1.Lost j → s.Lost j := by
      rcases h.resolve_cases q with heq | ⟨i, free, hf, heq⟩ <;> rw [heq]
      · exact id
      · exact lost_alloc hf (show PdcState.syn ≠ .unalloc by decide)
    simp only [Pdsm.call, Pdsm.txPkt] at hl
    split at hl
    · exact hl
    generalize s.resolve q = x at hl hres
    obtain ⟨s1, _ | i⟩ := x
    · exact hres hl
    refine hres (lost_put (i := i) (p := (Pds.txPkt env (s1.pdc i) q.req).1) ?_)
    dsimp only at hl
    generalize Pds.txPkt env (s1.pdc i) q.req = y at hl ⊢
    obtain ⟨p, outs, rc⟩ := y
    cases rc
    case ok =>
      unfold Pdsm.noteMsg at hl
      dsimp only at hl
      split_ifs at hl <;> exact hl
    all_goals exact hl
  | msgCmplInd env m =>
    simp only [Pdsm.call, Pdsm.msgCmplInd] at hl
    split at hl
    · exact hl
    · exact lost_put hl
  | dropTxPkts hd =>
    simp only [Pdsm.Lost, Pdsm.call, Pdsm.dropTxPkts] at hl ⊢
    split at hl <;> exact hl
  | assignTgt sec syn base pending =>
    simp only [Pdsm.call, Pdsm.assignTgt] at hl
    split at hl
    · exact hl
    · rename_i hf
      exact lost_alloc hf (by cases pending <;> (intro h; cases h)) hl
  | work env i w => exact lost_put hl

end Pool

/-- No PDC is lost or handed out twice: whatever has been called, the PDCs of the pool that are not allocated are on the
free list, each once. -/
theorem pool_integrity (cs : List PdsCall) :
    let s := (Pdsm.init.history cs).1
    s.free.Nodup ∧ ∀ i ∈ Pdsm.init.free, i ∈ s.free ↔ (s.pdc i).state = .unalloc := by
  have hlost : ∀ s : Pdsm, Pool s → ∀ i, (s.history cs).1.Lost i → s.Lost i := by
    induction cs with
    | nil => exact fun _ _ _ => id
    | cons c cs ih => exact fun s hs i hi => hs.lost_call c (ih _ (hs.call c) i hi)
  have hpool := Pool.init.history cs
  refine ⟨hpool.nodup, fun i hi => ⟨hpool.idle i, fun hu => ?_⟩⟩
  by_contra hn
  exact (hlost _ Pool.init i ⟨hu, hn⟩).2 hi

end Uet.Pds
