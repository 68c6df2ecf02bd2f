import Uet.Ses.TxPlaces

/-!
# Packets outstanding and the descriptors they name

PDS names a transmit descriptor with every packet it waits for, and `unack_pkts` of the
descriptor counts them. A descriptor is given back when its count is zero, so an answer finds
the message it is for; `Handled` is the invariant. A message that fails in the middle, or that
is timed out, is completed without looking at the count.
-/

namespace Uet.Ses

open List

variable {n m : Nat} {s s' : TxEp n m} {d e : Fin n}

/-- The packets PDS waits for that name `d`. -/
def TxEp.outstanding (s : TxEp n m) (d : Fin n) : Nat := s.pds.countP fun t => t.desc == d

def TxState.settled : TxState → Bool
  | .restartWait | .errComplete | .complete => true
  | _ => false

def TxDesc.Calm (v : TxDesc) : Prop :=
  v.state.settled = true → v.unackPkts = 0 ∧ v.cancelPending = false

structure Handled (s : TxEp n m) : Prop where
  unack : ∀ d, (s.desc d).unackPkts = s.outstanding d
  msgNo : ∀ t ∈ s.pds, (s.desc t.desc).msgNo = t.msgNo
  held : ∀ t ∈ s.pds, t.desc ∈ s.ring.entries
  calm : ∀ d, (s.desc d).Calm

variable {v : TxDesc} {t : TxHandle n} {as : List (Fin n)}

theorem calm_of_unsettled (h : v.state.settled = false) : v.Calm := fun hs => by
  rw [h] at hs
  cases hs

theorem Handled.mem_ring (h : Handled s) (hd : 0 < s.outstanding d) : d ∈ s.ring.entries := by
  obtain ⟨t, ht, hdesc⟩ := countP_pos_iff.1 hd
  rw [← beq_iff_eq.1 hdesc]
  exact h.held t ht

theorem outstanding_pos (ht : t ∈ s.pds) : 0 < s.outstanding t.desc :=
  countP_pos_iff.2 ⟨t, ht, beq_self_eq_true _⟩

section

variable (h : Handled s)
include h

theorem Handled.unsettled (hd : 0 < s.outstanding d) : (s.desc d).state.settled = false := by
  by_contra hs
  have := (h.calm d (by simpa using hs)).1
  rw [h.unack] at this
  omega

/-! ## Steps that send nothing -/

theorem Handled.frame (hpds : s'.pds = s.pds)
    (hring : ∀ e, 0 < s.outstanding e → e ∈ s.ring.entries → e ∈ s'.ring.entries)
    (hu : ∀ e, (s'.desc e).unackPkts = (s.desc e).unackPkts)
    (hm : ∀ e, 0 < s.outstanding e → (s'.desc e).msgNo = (s.desc e).msgNo)
    (hc : ∀ e, (s'.desc e).Calm) : Handled s' := by
  have hout : ∀ e, s'.outstanding e = s.outstanding e := by
    intro e
    rw [TxEp.outstanding, hpds, TxEp.outstanding]
  refine ⟨fun e => ?_, fun t ht => ?_, fun t ht => ?_, hc⟩
  · rw [hu, h.unack, hout]
  · rw [hpds] at ht
    rw [hm _ (outstanding_pos ht)]
    exact h.msgNo t ht
  · rw [hpds] at ht
    exact hring _ (outstanding_pos ht) (h.held t ht)

theorem Handled.frameAt (d : Fin n) (hpds : s'.pds = s.pds)
    (hring : ∀ e, 0 < s.outstanding e → e ∈ s.ring.entries → e ∈ s'.ring.entries)
    (hothers : ∀ e, e ≠ d → s'.desc e = s.desc e) (hu : (s'.desc d).unackPkts = (s.desc d).unackPkts)
    (hm : 0 < s.outstanding d → (s'.desc d).msgNo = (s.desc d).msgNo) (hc : (s'.desc d).Calm) :
    Handled s' := by
  refine h.frame hpds hring (fun e => ?_) (fun e he => ?_) fun e => ?_
  · rcases eq_or_ne e d with rfl | hne
    · exact hu
    · rw [hothers e hne]
  · rcases eq_or_ne e d with rfl | hne
    · exact hm he
    · rw [hothers e hne]
  · rcases eq_or_ne e d with rfl | hne
    · exact hc
    · rw [hothers e hne]
      exact h.calm e

structure SameBooks (s s' : TxEp n m) : Prop where
  desc : s'.desc = s.desc
  pds : s'.pds = s.pds
  ring : s'.ring = s.ring

theorem Handled.same (hs : SameBooks s s') : Handled s' :=
  h.frame hs.pds (fun _ _ he => hs.ring ▸ he) (fun _ => by rw [hs.desc]) (fun _ _ => by rw [hs.desc])
    fun e => hs.desc ▸ h.calm e

theorem Handled.set (hu : v.unackPkts = (s.desc d).unackPkts) (hm : v.msgNo = (s.desc d).msgNo)
    (hc : v.Calm) : Handled (s.setDesc d v) := by
  refine h.frameAt d rfl (fun _ _ he => he) (fun e he => setDesc_of_ne v he) ?_ (fun _ => ?_) ?_
  · rw [setDesc_self]
    exact hu
  · rw [setDesc_self]
    exact hm
  · rw [setDesc_self]
    exact hc

theorem Handled.mod {f : TxDesc → TxDesc} (hu : (f (s.desc d)).unackPkts = (s.desc d).unackPkts)
    (hm : (f (s.desc d)).msgNo = (s.desc d).msgNo) (hc : (f (s.desc d)).Calm) : Handled (s.modDesc d f) :=
  h.set hu hm hc

theorem Handled.beside (hb : Beside s s') : Handled s' := h.same ⟨hb.desc, hb.pds, hb.ring⟩

end

theorem bufRtrListInsert_books (d : Fin n) (s : TxEp n m) : SameBooks s (bufRtrListInsert d s) := by
  unfold bufRtrListInsert
  split_ifs <;> exact ⟨rfl, rfl, rfl⟩

theorem bufRtrListRemove_books (d : Fin n) (s : TxEp n m) : SameBooks s (bufRtrListRemove d s) := by
  unfold bufRtrListRemove
  split_ifs <;> exact ⟨rfl, rfl, rfl⟩

section

variable (h : Handled s)
include h

theorem txListInsert_handled : Handled (txListInsert d s) := by
  have h1 : Handled { s with free := d :: s.free } := h.same ⟨rfl, rfl, rfl⟩
  exact h1.mod rfl rfl (calm_of_unsettled rfl)

/-! ## The ring -/

theorem txRingRotate_handled (hr : s.ring.entries = d :: as) : Handled (txRingRotate d s) := by
  refine h.frame rfl (fun e _ he => ?_) (fun _ => rfl) (fun _ _ => rfl) h.calm
  rw [show (txRingRotate d s).ring.entries = as ++ [d] from RingBuf.entries_rotate hr]
  rw [hr] at he
  simpa [or_comm] using he

theorem txRingInsert_handled (hroom : s.ring.cnt < n) : Handled (txRingInsert d s) := by
  have h1 : Handled { s with ring := s.ring.insert d } := by
    refine h.frame rfl (fun e _ he => ?_) (fun _ => rfl) (fun _ _ => rfl) h.calm
    rw [RingBuf.entries_insert _ _ hroom]
    exact mem_append_left _ he
  exact h1.mod rfl rfl (calm_of_unsettled rfl)

section

variable (hr : s.ring.entries = d :: as) (h0 : s.outstanding d = 0)
include hr h0

theorem txDescRecycle_handled (avail : Bool) : Handled (txDescRecycle d avail s) := by
  have hout := txDescRecycle_out d s
  have h1 : Handled (txDescRecycle d false s) := by
    refine h.frameAt d hout.pds (fun e hpos he => ?_) hout.others hout.acct.unackPkts
      (fun _ => hout.acct.msgNo) fun hs => ?_
    · rw [hr, mem_cons] at he
      rw [hout.ring, (RingBuf.entries_tailAdvance hr).2]
      refine he.resolve_left fun hed => ?_
      rw [hed, h0] at hpos
      cases hpos
    · rw [hout.acct.state] at hs
      rw [hout.acct.unackPkts, hout.acct.cancelPending]
      exact h.calm d hs
  cases avail with
  | false => exact h1
  | true => exact txListInsert_handled h1

theorem txCqPostErr_handled (err : Nat) : Handled (txCqPostErr d err s) := by
  unfold txCqPostErr
  split_ifs
  · exact txDescRecycle_handled h hr h0 true
  have hb := incNextTxSeqNum_beside d s
  have h1 := txDescRecycle_handled (h.beside hb) (hb.ring ▸ hr)
    (by rw [TxEp.outstanding, hb.pds]; exact h0) false
  exact h1.same ⟨rfl, rfl, rfl⟩

theorem txCqPostEntry_handled : Handled (txCqPostEntry d s) := by
  unfold txCqPostEntry
  split_ifs
  · exact txDescRecycle_handled h hr h0 true
  have hb := incNextTxSeqNum_beside d s
  have h1 := txDescRecycle_handled (h.beside hb) (hb.ring ▸ hr)
    (by rw [TxEp.outstanding, hb.pds]; exact h0)
  dsimp only
  split_ifs
  · exact (h1 false).same ⟨rfl, rfl, rfl⟩
  · exact h1 true

end

/-! ## Sending -/

section

variable (hd : d ∈ s.ring.entries)
include hd

theorem Handled.track {k : Nat}
    (hu : v.unackPkts = if v.pdsMode = .uud then (s.desc d).unackPkts else (s.desc d).unackPkts + k)
    (hm : v.msgNo = (s.desc d).msgNo) (hc : v.Calm) : Handled (trackPkts d k (s.setDesc d v)) := by
  unfold trackPkts
  rw [setDesc_self]
  split_ifs with huud
  · rw [if_pos huud] at hu
    exact h.set hu hm hc
  rw [if_neg huud] at hu
  have hcount : ∀ e, (replicate k (⟨d, v.msgNo⟩ : TxHandle n)).countP (·.desc == e) =
      if d = e then k else 0 := by
    intro e
    rw [countP_replicate]
    simp only [beq_iff_eq]
  have hself : (s.setDesc d v).desc d = v := setDesc_self v
  have hothers : ∀ e, e ≠ d → (s.setDesc d v).desc e = s.desc e := fun e he => setDesc_of_ne v he
  refine ⟨fun e => ?_, fun t ht => ?_, fun t ht => ?_, fun e => ?_⟩
  · show ((s.setDesc d v).desc e).unackPkts = (s.pds ++ _).countP _
    rw [countP_append, hcount]
    rcases eq_or_ne e d with rfl | hne
    · rw [hself, if_pos rfl, hu, h.unack]
      rfl
    · rw [hothers e hne, if_neg (Ne.symm hne), h.unack]
      rfl
  · rcases mem_append.1 ht with ht | ht
    · rcases eq_or_ne t.desc d with hd' | hne
      · rw [hd', hself, hm, ← hd']
        exact h.msgNo t ht
      · rw [hothers _ hne]
        exact h.msgNo t ht
    · rw [(mem_replicate.1 ht).2]
      exact congrArg TxDesc.msgNo hself
  · rcases mem_append.1 ht with ht | ht
    · exact h.held t ht
    · rw [(mem_replicate.1 ht).2]
      exact hd
  · rcases eq_or_ne e d with rfl | hne
    · rw [hself]
      exact hc
    · rw [hothers e hne]
      exact h.calm e

def TxRc.isFail : TxRc → Bool
  | .fail _ => true
  | _ => false

/-- `uet_tx_msg` gives a message up only when none of its packets is outstanding. -/
def FailsClean (env : TxEnv) (c : TxCall) (d : Fin n) (s : TxEp n m) : Prop :=
  (txMsgOf env c d s).2.2.isFail = true → (txMsgOf env c d s).1.unackPkts = 0

instance (env : TxEnv) (c : TxCall) (d : Fin n) (s : TxEp n m) : Decidable (FailsClean env c d s) :=
  inferInstanceAs (Decidable (_ = true → _ = 0))

theorem txMsgAt_handled (hact : (s.desc d).state = .active)
    (hcancel : (s.desc d).cancelPending = false) {env : TxEnv} {c : TxCall}
    (hclean : FailsClean env c d s) : Handled (txMsgAt env c d s) := by
  have hsent : Sent (s.desc d) (txMsgOf env c d s).1 (txMsgOf env c d s).2.1.length
    (txMsgOf env c d s).2.2 := txMsg_sent _ _ _ _ _
  have hcalm : (txMsgOf env c d s).1.Calm := by
    intro hs
    rw [hsent.cancelPending]
    refine ⟨?_, hcancel⟩
    rcases hsent.state with ⟨⟨err, hrc⟩, -⟩ | ⟨-, hst⟩
    · exact hclean (by rw [hrc]; rfl)
    · rw [hst, hact] at hs
      cases hs
  have htrack := h.track hd (by rw [hsent.pdsMode]; exact hsent.unackPkts) hsent.msgNo hcalm
  unfold txMsgAt
  dsimp only
  split_ifs
  · exact htrack.same ⟨rfl, rfl, rfl⟩
  · exact htrack

theorem txCancel_handled (hcancel : (s.desc d).cancelPending = true) {rc : TxRc}
    (hclean : (s.desc d).remaining ≠ 0 → rc.isFail = true → (s.desc d).unackPkts = 0) :
    Handled (txCancel rc d s) := by
  have hun : (s.desc d).state.settled = false := by
    by_contra hs
    have := (h.calm d (by simpa using hs)).2
    rw [hcancel] at this
    cases this
  unfold txCancel
  split_ifs with hrem
  · exact h.mod rfl rfl (calm_of_unsettled hun)
  have h1 : Handled (s.modDesc d fun v => { v with pktCnt := v.pktCnt + 1 }) :=
    h.mod rfl rfl (calm_of_unsettled hun)
  have hself : (s.modDesc d fun v => { v with pktCnt := v.pktCnt + 1 }).desc d =
    { s.desc d with pktCnt := (s.desc d).pktCnt + 1 } := modDesc_self _
  cases rc with
  | eagain => exact h1
  | ok =>
    refine h1.track hd ?_ ?_ (calm_of_unsettled ?_)
    · rfl
    · rfl
    · rw [hself]
      exact hun
  | fail err =>
    refine h1.mod rfl rfl fun _ => ?_
    rw [hself]
    exact ⟨hclean hrem rfl, rfl⟩

theorem txRtr_handled (hact : (s.desc d).state = .active)
    (hcancel : (s.desc d).cancelPending = false) {rc : TxRc}
    (hclean : rc.isFail = true → (s.desc d).unackPkts = 0) : Handled (txRtr rc d s) := by
  have hun : (s.desc d).state.settled = false := by rw [hact]; rfl
  have h1 : Handled (s.modDesc d fun v => { v with pktCnt := v.pktCnt + 1 }) :=
    h.mod rfl rfl (calm_of_unsettled hun)
  have hself : (s.modDesc d fun v => { v with pktCnt := v.pktCnt + 1 }).desc d =
    { s.desc d with pktCnt := (s.desc d).pktCnt + 1 } := modDesc_self _
  unfold txRtr
  cases rc with
  | eagain => exact h1
  | ok => exact h1.track hd rfl rfl (calm_of_unsettled rfl)
  | fail err =>
    refine h1.mod rfl rfl fun _ => ?_
    rw [hself]
    exact ⟨hclean rfl, hcancel⟩

end

/-! ## Turns -/

theorem retxMsg_handled (h0 : (s.desc d).unackPkts = 0)
    (hcancel : (s.desc d).cancelPending = false) (now backoff : Nat) (delay : Bool) :
    Handled (retxMsg now backoff delay d s) := by
  have hv : ∀ v b, (s.desc d).retx s.maxMsgRetransmits now backoff delay = (v, b) →
      v.unackPkts = (s.desc d).unackPkts ∧ v.msgNo = (s.desc d).msgNo ∧ v.Calm := by
    intro v b hv
    unfold TxDesc.retx at hv
    dsimp only at hv
    split at hv
    · cases hv
      exact ⟨rfl, rfl, fun _ => ⟨h0, hcancel⟩⟩
    · cases hv
      exact ⟨rfl, rfl, calm_of_unsettled rfl⟩
  unfold retxMsg
  split
  · rename_i v hr
    obtain ⟨hu, hm, hc⟩ := hv v true hr
    exact (h.set hu hm hc).beside (setTxSeqNum_beside _ _)
  rename_i v hr
  obtain ⟨hu, hm, hc⟩ := hv v false hr
  exact h.set hu hm hc

theorem txStateTransition_handled (hcancel : (s.desc d).cancelPending = false)
    (now backoff : Nat) : Handled (txStateTransition now backoff d s) := by
  unfold txStateTransition
  dsimp only
  split
  · split_ifs with _ hw
    · exact h
    · exact h.mod rfl rfl (calm_of_unsettled rfl)
    · refine h.mod rfl rfl fun _ => ⟨?_, hcancel⟩
      simp only [Bool.or_eq_true, bne_iff_ne, not_or, not_not] at hw
      exact hw.1
  · split_ifs with hw
    · exact h
    · refine h.mod rfl rfl fun _ => ⟨?_, hcancel⟩
      simp only [Bool.or_eq_true, bne_iff_ne, not_or, not_not] at hw
      exact hw.1
  · split_ifs with hw
    · exact h
    · simp only [Bool.or_eq_true, bne_iff_ne, not_or, not_not] at hw
      exact retxMsg_handled h hw.1 hcancel _ _ _
  · split_ifs with hw
    · exact h
    · refine h.mod rfl rfl fun _ => ⟨?_, hcancel⟩
      simpa using hw
  · rename_i hst
    have h0 := h.calm d (by rw [hst]; rfl)
    split_ifs
    · exact h
    refine retxMsg_handled (h.mod rfl rfl fun _ => h0) ?_ ?_ _ _ _
    · rw [modDesc_self]
      exact h0.1
    · rw [modDesc_self]
      exact h0.2
  · split_ifs with hw
    · exact h
    · have h0 : (s.desc d).unackPkts = 0 := by simpa using hw
      unfold txErrComplete
      dsimp only
      split_ifs
      · have h1 : Handled { s with rdActive := s.rdActive.erase d } := h.same ⟨rfl, rfl, rfl⟩
        exact h1.mod rfl rfl fun _ => ⟨h0, hcancel⟩
      · exact h.mod rfl rfl fun _ => ⟨h0, hcancel⟩
  · exact h

end

def TurnClean (env : TxEnv) (t : TxTurn) (d : Fin n) (s : TxEp n m) : Prop :=
  if rodBlocked d s || env.now < (s.desc d).txTime then True
  else if (s.desc d).cancelPending then
    (s.desc d).remaining ≠ 0 → t.rc.isFail = true → (s.desc d).unackPkts = 0
  else if (s.desc d).op.isRtr && (s.desc d).state == .active then
    t.rc.isFail = true → (s.desc d).unackPkts = 0
  else (s.desc d).state = .active → (s.desc d).allSent = false → FailsClean env t.call d s

instance (env : TxEnv) (t : TxTurn) (d : Fin n) (s : TxEp n m) : Decidable (TurnClean env t d s) :=
  inferInstanceAs (Decidable (ite _ _ (ite _ (_ → _ → _) (ite _ (_ → _) (_ → _ → _)))))

theorem txStateTransition_active {now backoff : Nat} (hprev : (s.desc d).state = .active)
    (hst : ((txStateTransition now backoff d s).desc d).state = .active) :
    txStateTransition now backoff d s = s ∧ (s.desc d).allSent = false := by
  unfold txStateTransition at hst ⊢
  simp only [hprev] at hst ⊢
  split_ifs at hst ⊢ with hall hw
  · exact ⟨rfl, by simpa using hall⟩
  · rw [modDesc_self] at hst
    cases hst
  · rw [modDesc_self] at hst
    cases hst

theorem txTurn_handled (h : Handled s) (hr : s.ring.entries = d :: as) {env : TxEnv} {t : TxTurn}
    (hclean : TurnClean env t d s) : Handled (txTurn env t d s) := by
  have hd : d ∈ s.ring.entries := by rw [hr]; exact mem_cons_self
  unfold TurnClean at hclean
  unfold txTurn
  split_ifs at hclean ⊢ with hwait hcancel hrtr
  · exact txRingRotate_handled h hr
  · have hs := txCancel_stays (s := s) (d := d) t.rc
    exact txRingRotate_handled (txCancel_handled h hd hcancel hclean) (hs.ring ▸ hr)
  · have hs := txRtr_stays (s := s) (d := d) t.rc
    rw [Bool.and_eq_true, beq_iff_eq] at hrtr
    exact txRingRotate_handled (txRtr_handled h hd hrtr.2 (by simpa using hcancel) hclean)
      (hs.ring ▸ hr)
  · have hcancel' : (s.desc d).cancelPending = false := by simpa using hcancel
    have hs := txStateTransition_stays (s := s) (d := d) env.now t.backoff
    have h1 := txStateTransition_handled h hcancel' env.now t.backoff
    have hr1 := hs.ring ▸ hr
    have hact : (s.desc d).state = .active →
        ((txStateTransition env.now t.backoff d s).desc d).state = .active →
        txStateTransition env.now t.backoff d s = s ∧ (s.desc d).allSent = false :=
      fun hprev hst => txStateTransition_active hprev hst
    generalize txStateTransition env.now t.backoff d s = s1 at hs h1 hr1 hact
    have hzero : (s1.desc d).state.settled = true → s1.outstanding d = 0 := fun hset => by
      rw [← h1.unack]
      exact (h1.calm d hset).1
    unfold txAdvance
    split
    · rename_i hst
      split_ifs with hprev
      · obtain ⟨rfl, hall⟩ := hact hprev hst
        have h2 := txMsgAt_handled h hd hprev hcancel' (hclean hprev hall)
        rw [← txMsgAt_ring (s := s1) (d := d) env t.call] at hr
        have hring : (txMsgAt env t.call d s1).ring.entries = d :: as := hr
        unfold txActive
        dsimp only
        split
        · split_ifs with hec
          · refine txCqPostErr_handled h2 hring ?_ _
            rw [← h2.unack]
            exact (h2.calm d (by rw [hec]; rfl)).1
          · exact txRingRotate_handled h2 hring
        · exact txRingRotate_handled h2 hring
      · exact txRingRotate_handled h1 hr1
    · rename_i hst
      exact txCqPostErr_handled h1 hr1 (hzero (by rw [hst]; rfl)) _
    · rename_i hst
      exact txCqPostEntry_handled h1 hr1 (hzero (by rw [hst]; rfl))
    · exact txRingRotate_handled h1 hr1

/-- The turns of a call of `uet_tx_msg_try`. -/
def TurnsClean (env : TxEnv) (turns : Nat → TxTurn) :
    Nat → Nat → Option (Fin n) → TxEp n m → Prop
  | 0, _, _, _ => True
  | k + 1, i, start, s =>
    if s.ring.cnt = 0 || start == some s.ring.atTail then True
    else
      TurnClean env (turns i) s.ring.atTail s ∧
        TurnsClean env turns k (i + 1) (start.or (some s.ring.atTail))
          (txTurn env (turns i) s.ring.atTail s)

instance instDecidableTurnsClean (env : TxEnv) (turns : Nat → TxTurn) : (k i : Nat) →
    (start : Option (Fin n)) → (s : TxEp n m) → Decidable (TurnsClean env turns k i start s)
  | 0, _, _, _ => .isTrue trivial
  | k + 1, i, start, s =>
    have := instDecidableTurnsClean env turns k (i + 1) (start.or (some s.ring.atTail))
      (txTurn env (turns i) s.ring.atTail s)
    inferInstanceAs (Decidable (ite _ _ (_ ∧ _)))

theorem txMsgTryLoop_handled (env : TxEnv) (turns : Nat → TxTurn) (k i : Nat)
    (start : Option (Fin n)) (h : Handled s) (hclean : TurnsClean env turns k i start s) :
    Handled (txMsgTryLoop env turns k i start s) := by
  induction k generalizing i start s with
  | zero => exact h
  | succ k ih =>
    rw [txMsgTryLoop]
    rw [TurnsClean] at hclean
    split_ifs at hclean ⊢ with hstop
    · exact h
    simp only [Bool.or_eq_true, decide_eq_true_eq, not_or] at hstop
    have hr := s.ring.entries_eq_cons (Nat.pos_of_ne_zero hstop.1)
    exact ih _ _ (txTurn_handled h hr hclean.1) hclean.2

/-! ## Timers, flush and the completion queue -/

theorem dsendMsgAge_handled (hcq : n ≤ m) (now : Nat) (hp : Placed none s) (h : Handled s)
    (haged : s.deferList.takeWhile (dsendAged now s) <+: s.ring.entries)
    (hzero : ∀ d ∈ s.deferList.takeWhile (dsendAged now s), (s.desc d).unackPkts = 0) :
    Handled (dsendMsgAge now s) := by
  refine dsendMsgAgeLoop_rec (M := fun s l s' => Handled s → (∀ d ∈ l, (s.desc d).unackPkts = 0) → Handled s')
    hcq (fun _ _ h _ => h) (fun s d l as s' _ hr hd hothers ih h hzero => ?_) hp le_rfl haged h hzero
  have h0 : s.outstanding d = 0 := by
    rw [← h.unack]
    exact hzero d mem_cons_self
  refine ih (txCqPostErr_handled h hr h0 fiEio) fun e he => ?_
  rw [hothers e fun hed => hd (hed ▸ he)]
  exact hzero e (mem_cons_of_mem _ he)

theorem rtrMsgAgeLoop_handled (now k : Nat) (list : TxEp n m → List (Fin n)) (h : Handled s) :
    Handled (rtrMsgAgeLoop now list k s) := by
  refine rtrMsgAgeLoop_keep now (fun s d hs _ => txListInsert_handled ?_) k h
  exact (hs.same (bufRtrListRemove_books d s)).same ⟨rfl, rfl, rfl⟩

theorem flushOne_handled (h : Handled s) (hr : s.ring.entries = d :: as) : Handled (flushOne d s) := by
  have hdrop : ∀ e, (s.pds.filter (·.desc != d)).countP (·.desc == e) =
      if e = d then 0 else s.outstanding e := by
    intro e
    rw [countP_filter]
    split_ifs with he
    · rw [countP_eq_zero]
      rintro t -
      subst he
      simp
    · refine countP_congr fun t _ => ?_
      simp only [Bool.and_eq_true, beq_iff_eq, bne_iff_ne, and_iff_left_iff_imp]
      rintro rfl
      exact he
  unfold flushOne
  dsimp only
  generalize hs1 : TxEp.modDesc d (fun v =>
    ({ v with cancelPending := false, unackPkts := 0 }).setErr fiEcanceled .errComplete)
    ({ s with pds := s.pds.filter (·.desc != d) } : TxEp n m) = s1
  have hself : s1.desc d =
      ({ s.desc d with cancelPending := false, unackPkts := 0 }).setErr fiEcanceled .errComplete := by
    rw [← hs1, modDesc_self]
  have hothers : ∀ e, e ≠ d → s1.desc e = s.desc e := by
    intro e he
    rw [← hs1, modDesc_of_ne _ he]
  have hout : ∀ e, s1.outstanding e = if e = d then 0 else s.outstanding e := by
    intro e
    rw [← hdrop, ← hs1]
    rfl
  have hmem : ∀ t ∈ s1.pds, t ∈ s.pds ∧ t.desc ≠ d := by
    intro t ht
    rw [← hs1] at ht
    simpa using mem_filter.1 ht
  have hring : s1.ring = s.ring := by rw [← hs1]; rfl
  have h1 : Handled s1 := by
    refine ⟨fun e => ?_, fun t ht => ?_, fun t ht => ?_, fun e => ?_⟩
    · rw [hout]
      split_ifs with he
      · rw [he, hself]
        rfl
      · rw [hothers e he]
        exact h.unack e
    · rw [hothers _ (hmem t ht).2]
      exact h.msgNo t (hmem t ht).1
    · rw [hring]
      exact h.held t (hmem t ht).1
    · rcases eq_or_ne e d with rfl | hne
      · rw [hself]
        exact fun _ => ⟨rfl, rfl⟩
      · rw [hothers e hne]
        exact h.calm e
  exact txCqPostErr_handled h1 (hring ▸ hr) (by rw [hout, if_pos rfl]) _

theorem epFlush_handled (k : Nat) (h : Handled s) : Handled (epFlush k s) := by
  induction k generalizing s with
  | zero => exact h
  | succ k ih =>
    rw [epFlush]
    split_ifs with hc
    · exact h
    · exact ih (flushOne_handled h (s.ring.entries_eq_cons (Nat.pos_of_ne_zero hc)))

theorem txCqReadEntry_handled (h : Handled s) : Handled (txCqReadEntry s) := by
  have h1 : Handled { s with cq := s.cq.tailAdvance } := h.same ⟨rfl, rfl, rfl⟩
  unfold txCqReadEntry
  split
  · exact txListInsert_handled h1
  · exact h1

theorem txCqRead_handled (k : Nat) (h : Handled s) : Handled (txCqRead k s) :=
  txCqRead_keep (fun _ hs _ => txCqReadEntry_handled hs) k h

/-! ## Answers -/

theorem countP_eraseIdx {α : Type} {l : List α} {i : Nat} {a : α} (h : l[i]? = some a) (p : α → Bool) :
    l.countP p = (l.eraseIdx i).countP p + if p a then 1 else 0 := by
  induction l generalizing i with
  | nil => cases h
  | cons b l ih =>
    cases i with
    | zero =>
      cases h
      rw [eraseIdx_cons_zero, countP_cons]
    | succ i =>
      rw [eraseIdx_cons_succ, countP_cons, countP_cons, ih h]
      omega

theorem Handled.answer (h : Handled s) {i : Nat} (ht : s.pds[i]? = some t) {f : TxDesc → TxDesc}
    (hu : ∀ v, (f v).unackPkts = decr v.unackPkts) (hm : ∀ v, (f v).msgNo = v.msgNo)
    (hst : (f (s.desc t.desc)).state.settled = false) : Handled ((s.untrack i).modDesc t.desc f) := by
  have hself : ((s.untrack i).modDesc t.desc f).desc t.desc = f (s.desc t.desc) := modDesc_self _
  have hothers : ∀ e, e ≠ t.desc → ((s.untrack i).modDesc t.desc f).desc e = s.desc e :=
    fun e he => modDesc_of_ne _ he
  refine ⟨fun e => ?_, fun u hu' => ?_, fun u hu' => h.held u (mem_of_mem_eraseIdx hu'), fun e => ?_⟩
  · have hcount := countP_eraseIdx ht fun u => u.desc == e
    show _ = (s.pds.eraseIdx i).countP _
    rcases eq_or_ne e t.desc with rfl | hne
    · rw [if_pos (beq_self_eq_true _)] at hcount
      rw [hself, hu, h.unack, decr, TxEp.outstanding, if_neg (by rw [hcount]; omega), hcount,
        Nat.add_sub_cancel]
    · rw [if_neg (by simpa using Ne.symm hne), Nat.add_zero] at hcount
      rw [hothers e hne, h.unack, TxEp.outstanding, hcount]
  · have hu'' := mem_of_mem_eraseIdx hu'
    rcases eq_or_ne u.desc t.desc with heq | hne
    · rw [heq, hself, hm, ← heq]
      exact h.msgNo u hu''
    · rw [hothers _ hne]
      exact h.msgNo u hu''
  · rcases eq_or_ne e t.desc with rfl | hne
    · rw [hself]
      exact calm_of_unsettled hst
    · rw [hothers e hne]
      exact h.calm e

theorem rspExit_unsettled (h : v.state.settled = false) (a : RspAction) :
    (v.rspExit a).unackPkts = v.unackPkts ∧ (v.rspExit a).msgNo = v.msgNo ∧
      (v.rspExit a).state.settled = false := by
  cases a with
  | none => exact ⟨rfl, rfl, h⟩
  | defer => exact ⟨rfl, rfl, rfl⟩
  | err => exact ⟨rfl, rfl, rfl⟩
  | retx delay =>
    unfold TxDesc.rspExit
    dsimp only
    split_ifs <;> exact ⟨rfl, rfl, rfl⟩

theorem pdsToSesRxRsp_handled (h : Handled s) {i : Nat} (ht : s.pds[i]? = some t) (now : Nat) (r : Option SesRsp) :
    Handled (pdsToSesRxRsp now t.desc r (s.untrack i)) := by
  have hun := h.unsettled (outstanding_pos (mem_of_getElem? ht))
  have h1 : Handled ((s.untrack i).modDesc t.desc (·.uncount r)) :=
    h.answer ht (fun _ => rfl) (fun _ => rfl) hun
  have hst : (((s.untrack i).modDesc t.desc (·.uncount r)).desc t.desc).state.settled = false := by
    rw [modDesc_self]
    exact hun
  unfold pdsToSesRxRsp
  cases r with
  | none => exact h1
  | some r =>
    dsimp only
    generalize (s.untrack i).modDesc t.desc (·.uncount (some r)) = s1 at h1 hst
    generalize (s1.desc t.desc).rspAction (s1.rdModLen t.desc) r = a
    have hgen : Beside s1 (if a = .retx false then setGen t.desc r s1 else s1) := by
      split_ifs
      · exact setGen_beside _ _ _
      · constructor <;> rfl
    have h2 := h1.beside hgen
    rw [← hgen.desc] at hst
    generalize (if a = .retx false then setGen t.desc r s1 else s1) = s2 at h2 hst
    have h3 : Handled (if a = .defer then deferListInsert now t.desc s2 else s2) ∧
        ((if a = .defer then deferListInsert now t.desc s2 else s2).desc t.desc).state.settled =
          false := by
      split_ifs
      · refine ⟨?_, ?_⟩
        · have h4 : Handled { s2 with deferList := s2.deferList ++ [t.desc] } := h2.same ⟨rfl, rfl, rfl⟩
          exact h4.mod rfl rfl (calm_of_unsettled hst)
        · rw [deferListInsert, modDesc_self]
          exact hst
      · exact ⟨h2, hst⟩
    obtain ⟨hu, hm, hs⟩ := rspExit_unsettled h3.2 a
    exact h3.1.mod hu hm (calm_of_unsettled hs)

theorem deferListRemove_handled (h : Handled s) : Handled (deferListRemove d s) := by
  obtain ⟨hothers, -, hacct⟩ := deferListRemove_desc d s
  refine h.frameAt d ?_ (fun e _ he => ?_) hothers hacct.unackPkts (fun _ => hacct.msgNo) fun hs => ?_
  · unfold deferListRemove
    split_ifs <;> rfl
  · unfold deferListRemove
    split_ifs <;> exact he
  · rw [hacct.state] at hs
    rw [hacct.unackPkts, hacct.cancelPending]
    exact h.calm d hs

theorem rxRtrReqPkt_handled (h : Handled s) (token : BitVec 16) (remote : BitVec 32) :
    Handled (rxRtrReqPkt token remote s) := by
  unfold rxRtrReqPkt
  cases s.token token with
  | none => exact h
  | some d =>
    have h1 : Handled (s.modDesc d fun v => { v with remoteRtrToken := remote }) := h.mod rfl rfl (h.calm d)
    have h2 := deferListRemove_handled (d := d) h1
    dsimp only
    generalize deferListRemove d _ = s2 at h2 ⊢
    exact h2.mod rfl rfl (h2.calm d)

/-! ## New messages -/

theorem newMsg_handled (h : Handled s) (hd : d ∉ s.ring.entries) (hv : v.unackPkts = 0) (hc : v.Calm) :
    Handled (newMsg d v s) := by
  have h0 : s.outstanding d = 0 := by
    by_contra hne
    exact hd (h.mem_ring (Nat.pos_of_ne_zero hne))
  refine h.frameAt d rfl (fun _ _ he => he) (fun e he => setDesc_of_ne v he) ?_ (fun hpos => ?_) ?_
  · rw [newMsg, setDesc_self, hv, h.unack, h0]
  · rw [h0] at hpos
    cases hpos
  · rw [newMsg, setDesc_self]
    exact hc

section

variable (hp : Placed none s) (h : Handled s)
include hp h

theorem sendReqStart_handled (now : Nat) (r : SendReq) :
    Handled (sendReqStart now r s).1 ∧
      ∀ d ∈ (sendReqStart now r s).2, ((sendReqStart now r s).1.desc d).state = .active ∧
        ((sendReqStart now r s).1.desc d).cancelPending = false := by
  unfold sendReqStart
  cases hf : s.free with
  | nil => exact ⟨h, by simp⟩
  | cons d free =>
    dsimp only
    have hp1 := hp.take_free hf
    have h1 : Handled { s with free } := h.same ⟨rfl, rfl, rfl⟩
    split_ifs
    · exact ⟨txListInsert_handled h1, by simp⟩
    · exact ⟨h1, by simp⟩
    have hp2 := (hp1.stays (rdStart_beside d r _).stays).stays (allocSeqNum_beside r _).stays
    have h2 := (h1.beside (rdStart_beside d r _)).beside (allocSeqNum_beside r _)
    have h3 := newMsg_handled h2 hp2.not_mem_ring
      (v := r.desc now (s.av r.dst).seqNum s.nextMsgNo) rfl (calm_of_unsettled rfl)
    refine ⟨txRingInsert_handled h3 hp2.ring_room, fun e he => ?_⟩
    cases he
    rw [txRingInsert, modDesc_self]
    refine ⟨rfl, ?_⟩
    rw [newMsg, setDesc_self]
    rfl

theorem getRdTxDesc_handled (now : Nat) (r : RdReq) : Handled (getRdTxDesc now r s) := by
  unfold getRdTxDesc
  cases hf : s.free with
  | nil => exact h
  | cons d free =>
    have hp1 := hp.take_free hf
    have h1 : Handled { s with free } := h.same ⟨rfl, rfl, rfl⟩
    split_ifs
    · exact txListInsert_handled h1
    refine txRingInsert_handled ?_ hp1.ring_room
    refine (newMsg_handled h1 hp1.not_mem_ring ?_ ?_).same ⟨rfl, rfl, rfl⟩
    · rfl
    · exact calm_of_unsettled rfl

theorem rxDsend_handled (now : Nat) (r : DsendReq) : Handled (rxDsend now r s) := by
  unfold rxDsend
  split
  · exact h
  cases hf : s.free with
  | nil => exact h
  | cons d free =>
    have h1 : Handled { s with free } := h.same ⟨rfl, rfl, rfl⟩
    refine (newMsg_handled h1 (hp.take_free hf).not_mem_ring ?_ ?_).same (bufRtrListInsert_books _ _)
    · rfl
    · exact calm_of_unsettled rfl

theorem txRtrTry_handled (k : RtrFor) : Handled (txRtrTry k s) := by
  unfold txRtrTry
  cases hm : rtrMatch k s with
  | none => exact h
  | some d =>
    have hp1 := bufRtrListRemove_placed hp (rtrMatch_mem hm)
    exact txRingInsert_handled (h.same (bufRtrListRemove_books d s)) hp1.ring_room

end

/-- The events that keep packets and descriptors together: a message is given up after a
failed downcall, or by the timer of the deferral list, only when none of its packets is
outstanding, and PDS lets no packet go without saying so. -/
def HandlesClean (s : TxEp n m) : TxEvent n → Prop
  | .send env c r =>
    ∀ d ∈ (sendReqStart env.now r s).2, (sendReqStart env.now r s).1.ring.cnt = 1 →
      FailsClean env c d (sendReqStart env.now r s).1
  | .msgTry env turns => TurnsClean env turns n 0 none s
  | .dsendAge now => ∀ d ∈ s.deferList.takeWhile (dsendAged now s), (s.desc d).unackPkts = 0
  | .letGo i => s.pds.length ≤ i
  | _ => True

instance (s : TxEp n m) (ev : TxEvent n) : Decidable (HandlesClean s ev) := by
  induction ev using TxEvent.casesOn <;> dsimp only [HandlesClean] <;>
    first | exact decidableBAll _ _ | infer_instance

def KeepsHandles (s : TxEp n m) (ev : TxEvent n) : Prop := KeepsPlaces s ev ∧ HandlesClean s ev

instance (s : TxEp n m) (ev : TxEvent n) : Decidable (KeepsHandles s ev) :=
  inferInstanceAs (Decidable (_ ∧ _))

theorem txStep_handled (hcq : n ≤ m) (hp : Placed none s) (h : Handled s) (ev : TxEvent n)
    (hev : KeepsHandles s ev) : Handled (txStep s ev) := by
  obtain ⟨hplaces, hclean⟩ := hev
  cases ev with
  | send env c r =>
    obtain ⟨hp1, hmem⟩ := sendReqStart_placed hp env.now r hplaces
    obtain ⟨h1, hnew⟩ := sendReqStart_handled hp h env.now r
    have hclean' : ∀ d ∈ (sendReqStart env.now r s).2, (sendReqStart env.now r s).1.ring.cnt = 1 →
      FailsClean env c d (sendReqStart env.now r s).1 := hclean
    rw [txStep, sendReqApi]
    generalize sendReqStart env.now r s = p at h1 hmem hnew hclean'
    obtain ⟨s1, o⟩ := p
    cases o with
    | none => exact h1
    | some d =>
      dsimp only
      split_ifs with hone
      · exact txMsgAt_handled h1 (hmem d rfl) (hnew d rfl).1 (hnew d rfl).2 (hclean' d rfl hone)
      · exact h1
  | rdReq => exact getRdTxDesc_handled hp h ..
  | dsend => exact rxDsend_handled hp h ..
  | recv k => exact txRtrTry_handled hp h k
  | rtrReq => exact rxRtrReqPkt_handled h ..
  | rsp now i r =>
    rw [txStep]
    cases ht : s.pds[i]? with
    | none => exact h
    | some t => exact pdsToSesRxRsp_handled h ht now r
  | pdsErr i =>
    rw [txStep]
    cases ht : s.pds[i]? with
    | none => exact h
    | some t => exact h.answer ht (fun _ => rfl) (fun _ => rfl) rfl
  | letGo i =>
    have hnone : s.untrack i = s := by
      rw [TxEp.untrack, eraseIdx_of_length_le hclean]
    rw [txStep, hnone]
    exact h
  | rdRspData msgId =>
    rw [txStep, rdRspData]
    split
    · exact h
    · rename_i d _
      exact h.mod rfl rfl (h.calm d)
  | rdTimeout d =>
    rw [txStep, rdTimeout]
    split_ifs
    · have h1 : Handled { s with rdActive := s.rdActive.erase d } := h.same ⟨rfl, rfl, rfl⟩
      exact h1.mod rfl rfl (calm_of_unsettled rfl)
    · exact h
  | msgTry env turns => exact txMsgTryLoop_handled env turns n 0 none h hclean
  | dsendAge now => exact dsendMsgAge_handled hcq now hp h hplaces hclean
  | rtrAge now => exact rtrMsgAgeLoop_handled now _ _ (rtrMsgAgeLoop_handled now _ _ h)
  | flush max => exact epFlush_handled max h
  | cqRead count => exact txCqRead_handled count h
  | cqReaderr =>
    rw [txStep, txCqReaderr]
    split_ifs
    · exact txCqReadEntry_handled h
    · exact h

theorem init_handled [NeZero n] (cfg : TxCfg) (maxRetx : Option Nat) (idleDsend idleRtr maxRtr : Nat)
    (av : Nat → TxAv) : Handled (TxEp.init n m cfg maxRetx idleDsend idleRtr maxRtr av) :=
  ⟨fun _ => rfl, fun _ ht => (nomatch ht), fun _ ht => (nomatch ht), fun _ => calm_of_unsettled rfl⟩

/-- In every state a run reaches whose events keep packets and descriptors together, a packet
PDS waits for names a descriptor that is not free and still belongs to the message of the
packet, and whose count is the number of its packets PDS waits for. -/
theorem no_stale_handles (n cqSize : Nat) [NeZero n] (cfg : TxCfg) (maxRetx : Option Nat)
    (idleDsend idleRtr maxRtr : Nat) (av : Nat → TxAv) (evs : List (TxEvent n))
    (hrun : (TxEp.init n (max cqSize n) cfg maxRetx idleDsend idleRtr maxRtr av).RunMeets KeepsHandles evs) :
    let s := txRun (TxEp.init n (max cqSize n) cfg maxRetx idleDsend idleRtr maxRtr av) evs
    ∀ t ∈ s.pds, t.desc ∉ s.free ∧ (s.desc t.desc).msgNo = t.msgNo ∧
      (s.desc t.desc).unackPkts = s.pds.countP fun u => u.desc == t.desc := by
  intro s t ht
  have h : Placed none s ∧ Handled s :=
    txRun_keep (C := KeepsHandles) (P := fun s => Placed none s ∧ Handled s)
      (fun _ ev hs hev =>
        ⟨txStep_placed (le_max_right _ _) hs.1 ev hev.1,
          txStep_handled (le_max_right _ _) hs.1 hs.2 ev hev⟩)
      ⟨init_placed cfg maxRetx idleDsend idleRtr maxRtr av,
        init_handled cfg maxRetx idleDsend idleRtr maxRtr av⟩ hrun
  refine ⟨fun hfree => ?_, h.2.msgNo t ht, h.2.unack t.desc⟩
  have hone := h.1.once t.desc
  have hin := count_pos_iff.2 (h.2.held t ht)
  have hfr := count_pos_iff.2 hfree
  rw [if_neg (by simp), TxEp.places] at hone
  omega

def oneDesc : TxEp 1 1 := .init 1 1 fourByteSends none 10 10 4 fun _ => ⟨0, 0, 0, 0⟩

def takesOne : TxTurn := ⟨.ok, ⟨none, [⟨true, .ok⟩]⟩, 0⟩

/-- A message of two packets fails on the second; its completion is read. -/
def failsHalfway : List (TxEvent 1) :=
  [.send stillEnv ⟨none, [⟨true, .ok⟩, ⟨true, .fail 5⟩]⟩ (aSend 8), .msgTry stillEnv fun _ => takesOne,
    .cqReaderr]

/-- The next message; the first packet is acknowledged. -/
def lateAck : List (TxEvent 1) :=
  [.send stillEnv ⟨none, [⟨true, .ok⟩]⟩ (aSend 2), .rsp 0 0 none, .msgTry stillEnv fun _ => takesOne]

/-- PDS still waits for the first packet when its descriptor is free; the acknowledgement
completes the next message, whose own packet is outstanding. -/
theorem late_ack_completes_other :
    let s := txRun oneDesc failsHalfway
    s.pds = [⟨0, 0⟩] ∧ s.free = [0] ∧
      (txRun s lateAck).pds = [⟨0, 1⟩] ∧ (txRun s lateAck).cq.entries.map (·.err) = [false] := by
  decide +kernel

/-- A message of two packets, one of which is answered. -/
def oneAnswered : List (TxEvent 1) :=
  [.send stillEnv ⟨none, [⟨true, .ok⟩, ⟨true, .ok⟩]⟩ (aSend 8), .msgTry stillEnv fun _ => takesOne,
    .rsp 0 0 none]

theorem no_stale_handles_answered :
    oneDesc.RunMeets KeepsHandles oneAnswered ∧ (txRun oneDesc oneAnswered).pds = [⟨0, 0⟩] ∧
      ∀ t ∈ (txRun oneDesc oneAnswered).pds, t.desc ∉ (txRun oneDesc oneAnswered).free ∧
        ((txRun oneDesc oneAnswered).desc t.desc).msgNo = t.msgNo ∧
        ((txRun oneDesc oneAnswered).desc t.desc).unackPkts =
          (txRun oneDesc oneAnswered).pds.countP fun u => u.desc == t.desc := by
  have hrun : oneDesc.RunMeets KeepsHandles oneAnswered := by decide +kernel
  exact ⟨hrun, by decide +kernel, no_stale_handles 1 1 fourByteSends none 10 10 4 _ oneAnswered hrun⟩

end Uet.Ses
