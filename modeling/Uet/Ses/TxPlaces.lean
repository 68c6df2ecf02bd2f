import Uet.Ses.TxRing

/-!
# Where the transmit descriptors are

A descriptor is on the free list, on one of the two lists of buffered restart requests, in
the transmit ring or in the completion queue, and in one of them only. `Placed` says so,
with at most one descriptor in the hands of the code between two places. A removal from the
ring advances the tail; it takes out the descriptor it is meant for because the descriptor is
at the tail. `uet_dsend_msg_age` takes its descriptors from another list, and there it is not.
-/

namespace Uet.Ses

open List Option Function

variable {n m : Nat}

def TxEp.cqDescs (s : TxEp n m) : List (Fin n) := s.cq.entries.filterMap (·.desc)

def TxEp.places (s : TxEp n m) (d : Fin n) : Nat :=
  s.free.count d + s.bufRtr.count d + s.bufTagRtr.count d + s.ring.entries.count d +
    s.cqDescs.count d

/-- Every descriptor but `x` is in one place, and every removal was of the descriptor it was
meant for. -/
structure Placed (x : Option (Fin n)) (s : TxEp n m) : Prop where
  once : ∀ d, s.places d = if x = some d then 0 else 1
  cq : ∀ e ∈ s.cq.entries, e.desc ≠ none
  rtr : ∀ d, d ∈ s.bufRtr ∨ d ∈ s.bufTagRtr → (s.desc d).op.isRtr = true
  dsend : ∀ d, (s.desc d).dsend = true → d ∈ s.ring.entries ∧ (s.desc d).op.isSend = true
  defer : ∀ d ∈ s.deferList, (s.desc d).dsend = true ∧ (s.desc d).inDsendList = true
  deferNodup : s.deferList.Nodup
  own : ∀ p ∈ s.removed, p.1 = p.2

variable {s s' s'' : TxEp n m} {d e : Fin n} {x : Option (Fin n)}

/-! ## Steps that move nothing -/

structure SameFlags (v v' : TxDesc) : Prop where
  op : v'.op = v.op
  dsend : v'.dsend = v.dsend
  inDsendList : v'.inDsendList = v.inDsendList

variable {v' : TxDesc} {as : List (Fin n)} (now : Nat) (cfg : TxCfg) (v : TxDesc)

theorem SameFlags.refl : SameFlags v v := ⟨rfl, rfl, rfl⟩

theorem SameFlags.trans {v v'' : TxDesc} (h : SameFlags v v') (h' : SameFlags v' v'') : SameFlags v v'' :=
  ⟨h'.op.trans h.op, h'.dsend.trans h.dsend, h'.inDsendList.trans h.inDsendList⟩

structure Stays (s s' : TxEp n m) : Prop where
  free : s'.free = s.free
  bufRtr : s'.bufRtr = s.bufRtr
  bufTagRtr : s'.bufTagRtr = s.bufTagRtr
  ring : s'.ring = s.ring
  cq : s'.cq = s.cq
  deferList : s'.deferList = s.deferList
  removed : s'.removed = s.removed
  flags : ∀ d, SameFlags (s.desc d) (s'.desc d)

theorem Stays.refl (s : TxEp n m) : Stays s s :=
  ⟨rfl, rfl, rfl, rfl, rfl, rfl, rfl, fun _ => .refl _⟩

theorem Stays.trans (h : Stays s s') (h' : Stays s' s'') : Stays s s'' :=
  ⟨h'.free.trans h.free, h'.bufRtr.trans h.bufRtr, h'.bufTagRtr.trans h.bufTagRtr,
    h'.ring.trans h.ring, h'.cq.trans h.cq, h'.deferList.trans h.deferList,
    h'.removed.trans h.removed, fun d => (h.flags d).trans (h'.flags d)⟩

theorem Stays.places (h : Stays s s') (d : Fin n) : s'.places d = s.places d := by
  rw [TxEp.places, TxEp.places, TxEp.cqDescs, TxEp.cqDescs, h.free, h.bufRtr, h.bufTagRtr, h.ring, h.cq]

theorem Placed.stays (h : Placed x s) (hs : Stays s s') : Placed x s' := by
  refine ⟨fun d => (hs.places d).trans (h.once d), hs.cq ▸ h.cq, fun d hd => ?_, fun d hd => ?_,
    fun d hd => ?_, hs.deferList ▸ h.deferNodup, hs.removed ▸ h.own⟩
  · rw [(hs.flags d).op]
    exact h.rtr d (by rwa [hs.bufRtr, hs.bufTagRtr] at hd)
  · rw [(hs.flags d).op, hs.ring]
    exact h.dsend d ((hs.flags d).dsend ▸ hd)
  · rw [(hs.flags d).dsend, (hs.flags d).inDsendList]
    exact h.defer d (hs.deferList ▸ hd)

@[simp] theorem modDesc_self (f : TxDesc → TxDesc) : (s.modDesc d f).desc d = f (s.desc d) :=
  update_self _ _ _

theorem modDesc_of_ne (f : TxDesc → TxDesc) (h : e ≠ d) : (s.modDesc d f).desc e = s.desc e :=
  update_of_ne h _ _

@[simp] theorem setDesc_self : (s.setDesc d v).desc d = v := update_self _ _ _

theorem setDesc_of_ne (h : e ≠ d) : (s.setDesc d v).desc e = s.desc e :=
  update_of_ne h _ _

theorem Stays.set {v : TxDesc} (hv : SameFlags (s.desc d) v) : Stays s (s.setDesc d v) := by
  refine ⟨rfl, rfl, rfl, rfl, rfl, rfl, rfl, fun e => ?_⟩
  rcases eq_or_ne e d with rfl | he
  · rw [setDesc_self]
    exact hv
  · rw [setDesc_of_ne v he]
    exact .refl _

theorem Stays.mod {f : TxDesc → TxDesc} (hf : ∀ v, SameFlags v (f v)) : Stays s (s.modDesc d f) :=
  .set (hf _)

theorem trackPkts_stays (k : Nat) : Stays s (trackPkts d k s) := by
  unfold trackPkts
  split_ifs
  · exact .refl s
  · exact ⟨rfl, rfl, rfl, rfl, rfl, rfl, rfl, fun _ => .refl _⟩

theorem rdActive_stays (rdActive : List (Fin n)) : Stays s { s with rdActive } :=
  ⟨rfl, rfl, rfl, rfl, rfl, rfl, rfl, fun _ => .refl _⟩

theorem pktCnt_stays (d : Fin n) : Stays s (s.modDesc d fun v => { v with pktCnt := v.pktCnt + 1 }) :=
  .mod fun _ => ⟨rfl, rfl, rfl⟩

theorem deallocMsgId_stays (msgId : BitVec 16) : Stays s (deallocMsgId msgId s) :=
  ⟨rfl, rfl, rfl, rfl, rfl, rfl, rfl, fun _ => .refl _⟩

/-- Only the addresses change, or what is kept of reads. -/
structure Beside (s s' : TxEp n m) : Prop where
  desc : s'.desc = s.desc
  pds : s'.pds = s.pds
  free : s'.free = s.free
  bufRtr : s'.bufRtr = s.bufRtr
  bufTagRtr : s'.bufTagRtr = s.bufTagRtr
  ring : s'.ring = s.ring
  cq : s'.cq = s.cq
  deferList : s'.deferList = s.deferList
  removed : s'.removed = s.removed
  idle : s'.idleDsendMsgTimeout = s.idleDsendMsgTimeout

theorem Beside.stays (h : Beside s s') : Stays s s' :=
  ⟨h.free, h.bufRtr, h.bufTagRtr, h.ring, h.cq, h.deferList, h.removed, fun _ => h.desc ▸ .refl _⟩

theorem incNextTxSeqNum_beside (d : Fin n) (s : TxEp n m) : Beside s (incNextTxSeqNum d s) := by
  unfold incNextTxSeqNum
  split_ifs <;> constructor <;> rfl

theorem setTxSeqNum_beside (d : Fin n) (s : TxEp n m) : Beside s (setTxSeqNum d s) := by
  unfold setTxSeqNum
  split_ifs <;> constructor <;> rfl

theorem setGen_beside (d : Fin n) (r : SesRsp) (s : TxEp n m) : Beside s (setGen d r s) := by
  unfold setGen
  split_ifs <;> constructor <;> rfl

theorem rdStart_beside (d : Fin n) (r : SendReq) (s : TxEp n m) : Beside s (rdStart d r s) := by
  unfold rdStart
  split_ifs <;> constructor <;> rfl

theorem allocSeqNum_beside (r : SendReq) (s : TxEp n m) : Beside s (allocSeqNum r s) := by
  unfold allocSeqNum
  split_ifs <;> constructor <;> rfl

theorem retx_flags (maxRetx : Option Nat) (now backoff : Nat) (delay : Bool) (v : TxDesc) :
    SameFlags v (v.retx maxRetx now backoff delay).1 := by
  unfold TxDesc.retx
  dsimp only
  split <;> exact ⟨rfl, rfl, rfl⟩

theorem retxMsg_stays (backoff : Nat) (delay : Bool) : Stays s (retxMsg now backoff delay d s) := by
  have hflags := retx_flags s.maxMsgRetransmits now backoff delay (s.desc d)
  unfold retxMsg
  split
  · rename_i v hv
    rw [hv] at hflags
    exact (Stays.set hflags).trans (setTxSeqNum_beside d _).stays
  rename_i v hv
  rw [hv] at hflags
  exact .set hflags

theorem txErrComplete_stays : Stays s (txErrComplete d s) := by
  unfold txErrComplete
  dsimp only
  split_ifs
  · exact Stays.trans (rdActive_stays _) (.mod fun _ => ⟨rfl, rfl, rfl⟩)
  · exact .mod fun _ => ⟨rfl, rfl, rfl⟩

theorem txStateTransition_stays (backoff : Nat) : Stays s (txStateTransition now backoff d s) := by
  unfold txStateTransition
  dsimp only
  split
  · split_ifs
    · exact .refl s
    · exact .mod fun _ => ⟨rfl, rfl, rfl⟩
    · exact .mod fun _ => ⟨rfl, rfl, rfl⟩
  · split_ifs
    · exact .refl s
    · exact .mod fun _ => ⟨rfl, rfl, rfl⟩
  · split_ifs
    · exact .refl s
    · exact retxMsg_stays _ _ _
  · split_ifs
    · exact .refl s
    · exact .mod fun _ => ⟨rfl, rfl, rfl⟩
  · split_ifs
    · exact .refl s
    · refine Stays.trans ?_ (retxMsg_stays _ _ _)
      exact .mod fun _ => ⟨rfl, rfl, rfl⟩
  · split_ifs
    · exact .refl s
    · exact txErrComplete_stays
  · exact .refl s

theorem txCancel_stays (rc : TxRc) : Stays s (txCancel rc d s) := by
  unfold txCancel
  split_ifs
  · exact .mod fun _ => ⟨rfl, rfl, rfl⟩
  refine (pktCnt_stays d).trans ?_
  cases rc with
  | ok =>
    refine Stays.trans ?_ (trackPkts_stays 1)
    exact .mod fun _ => ⟨rfl, rfl, rfl⟩
  | eagain => exact .refl _
  | fail err => exact .mod fun _ => ⟨rfl, rfl, rfl⟩

theorem txRtr_stays (rc : TxRc) : Stays s (txRtr rc d s) := by
  unfold txRtr
  refine (pktCnt_stays d).trans ?_
  cases rc with
  | ok =>
    refine Stays.trans ?_ (trackPkts_stays 1)
    exact .mod fun _ => ⟨rfl, rfl, rfl⟩
  | eagain => exact .refl _
  | fail err => exact .mod fun _ => ⟨rfl, rfl, rfl⟩

theorem rspExit_flags (a : RspAction) (v : TxDesc) : SameFlags v (v.rspExit a) := by
  cases a with
  | none => exact .refl v
  | defer => exact ⟨rfl, rfl, rfl⟩
  | err => exact ⟨rfl, rfl, rfl⟩
  | retx delay =>
    unfold TxDesc.rspExit
    dsimp only
    split_ifs <;> exact ⟨rfl, rfl, rfl⟩

theorem uncount_flags (r : Option SesRsp) (v : TxDesc) : SameFlags v (v.uncount r) := ⟨rfl, rfl, rfl⟩

theorem setErr_flags (err : Nat) (st : TxState) (v : TxDesc) : SameFlags v (v.setErr err st) :=
  ⟨rfl, rfl, rfl⟩

theorem pdsToSesPdsErr_stays : Stays s (pdsToSesPdsErr d s) :=
  .mod fun v => (uncount_flags none v).trans (setErr_flags fiEio .err _)

theorem untrack_stays (i : Nat) : Stays s (s.untrack i) :=
  ⟨rfl, rfl, rfl, rfl, rfl, rfl, rfl, fun _ => .refl _⟩

theorem rdTimeout_stays : Stays s (rdTimeout d s) := by
  unfold rdTimeout
  split_ifs
  · exact Stays.trans (rdActive_stays _) (.mod fun _ => ⟨rfl, rfl, rfl⟩)
  · exact .refl s

theorem rdRspData_stays (msgId : BitVec 16) : Stays s (rdRspData msgId s) := by
  unfold rdRspData
  split
  · exact .refl s
  · exact .mod fun _ => ⟨rfl, rfl, rfl⟩

/-! ## Moving a descriptor -/

theorem Placed.count_ring_le (h : Placed x s) (e : Fin n) : s.ring.entries.count e ≤ 1 := by
  have := h.once e
  unfold TxEp.places at this
  split_ifs at this <;> omega

theorem Placed.ring_nodup (h : Placed x s) : s.ring.entries.Nodup :=
  nodup_iff_count_le_one.2 h.count_ring_le

theorem Placed.cqDescs_nodup (h : Placed x s) : s.cqDescs.Nodup := by
  refine nodup_iff_count_le_one.2 fun e => ?_
  have := h.once e
  unfold TxEp.places at this
  split_ifs at this <;> omega

section

variable (h : Placed (some d) s)
include h

theorem Placed.absent :
    s.free.count d = 0 ∧ s.bufRtr.count d = 0 ∧ s.bufTagRtr.count d = 0 ∧
      s.ring.entries.count d = 0 ∧ s.cqDescs.count d = 0 := by
  have := h.once d
  rw [if_pos rfl, TxEp.places] at this
  omega

theorem Placed.not_mem_ring : d ∉ s.ring.entries :=
  List.count_eq_zero.1 h.absent.2.2.2.1

theorem Placed.no_dsend : (s.desc d).dsend = false := by
  by_contra hne
  exact h.not_mem_ring (h.dsend d (by simpa using hne)).1

theorem Placed.not_deferred : d ∉ s.deferList := by
  intro hd
  have := (h.defer d hd).1
  rw [h.no_dsend] at this
  cases this

end

theorem length_lt_of_count_eq_zero {l : List (Fin n)} (hl : l.Nodup) (hd : l.count d = 0) : l.length < n := by
  have hcons : (d :: l).Nodup := nodup_cons.2 ⟨List.count_eq_zero.1 hd, hl⟩
  have := hcons.length_le_card
  rwa [Fintype.card_fin, length_cons] at this

theorem Placed.ring_room (h : Placed (some d) s) : s.ring.cnt < n := by
  rw [← RingBuf.length_entries]
  exact length_lt_of_count_eq_zero h.ring_nodup h.absent.2.2.2.1

theorem Placed.cq_room (h : Placed (some d) s) : s.cq.cnt < n := by
  have hlen : s.cqDescs.length = s.cq.cnt := by
    rw [← RingBuf.length_entries, TxEp.cqDescs, filterMap_length_eq_length]
    exact fun e he => isSome_iff_ne_none.2 (h.cq e he)
  rw [← hlen]
  exact length_lt_of_count_eq_zero h.cqDescs_nodup h.absent.2.2.2.2

/-- `uet_tx_desc_list_pop`. -/
theorem Placed.take_free (h : Placed none s) {free : List (Fin n)} (hf : s.free = d :: free) :
    Placed (some d) { s with free } := by
  refine ⟨fun e => ?_, h.cq, h.rtr, h.dsend, h.defer, h.deferNodup, h.own⟩
  have hold := h.once e
  simp only [TxEp.places, hf, count_cons, reduceCtorEq, if_false, some.injEq, beq_iff_eq] at hold ⊢
  have hcq : ({ s with free } : TxEp n m).cqDescs = s.cqDescs := rfl
  rw [hcq]
  split_ifs at hold ⊢ <;> omega

/-- The descriptor `d` is written where it is. -/
theorem Placed.write (h : Placed x s) {v : TxDesc} {deferList : List (Fin n)}
    (hrtr : d ∈ s.bufRtr ∨ d ∈ s.bufTagRtr → v.op.isRtr = true)
    (hds : v.dsend = true → d ∈ s.ring.entries ∧ v.op.isSend = true)
    (hdefer : d ∈ deferList → v.dsend = true ∧ v.inDsendList = true)
    (hsub : ∀ e ∈ deferList, e ≠ d → e ∈ s.deferList) (hnd : deferList.Nodup) :
    Placed x { s.setDesc d v with deferList } := by
  refine ⟨h.once, h.cq, fun e he => ?_, fun e he => ?_, fun e he => ?_, hnd, h.own⟩
  all_goals rcases eq_or_ne e d with rfl | hne
  · exact (setDesc_self v).symm ▸ hrtr he
  · exact (setDesc_of_ne v hne).symm ▸ h.rtr e he
  · exact (setDesc_self v).symm ▸ hds (setDesc_self v ▸ he)
  · exact (setDesc_of_ne v hne).symm ▸ h.dsend e (setDesc_of_ne v hne ▸ he)
  · exact (setDesc_self v).symm ▸ hdefer he
  · exact (setDesc_of_ne v hne).symm ▸ h.defer e (hsub e he hne)

section

variable (h : Placed (some d) s)
include h

theorem Placed.newMsg {v : TxDesc} (hv : v.dsend = false) : Placed (some d) (newMsg d v s) := by
  have hab := h.absent
  have hw := h.write (d := d) (v := v)
    (fun hd => (hd.elim (List.count_eq_zero.1 hab.2.1) (List.count_eq_zero.1 hab.2.2.1)).elim)
    (fun hds => absurd (hv.symm.trans hds) nofun) (fun hd => absurd hd h.not_deferred) (fun _ he _ => he) h.deferNodup
  exact ⟨hw.once, hw.cq, hw.rtr, hw.dsend, hw.defer, hw.deferNodup, hw.own⟩

theorem txListInsert_placed : Placed none (txListInsert d s) := by
  have hnew := h.newMsg (v := (s.desc d).release) rfl
  refine ⟨fun e => ?_, h.cq, hnew.rtr, hnew.dsend, hnew.defer, h.deferNodup, h.own⟩
  have hold := h.once e
  have hfree : (txListInsert d s).places e = s.places e + if d = e then 1 else 0 := by
    simp only [TxEp.places, txListInsert, TxEp.modDesc, TxEp.setDesc, TxEp.cqDescs, count_cons, beq_iff_eq]
    omega
  rw [hfree, hold]
  simp only [some.injEq, reduceCtorEq, if_false]
  split_ifs <;> rfl

theorem txRingInsert_mem : d ∈ (txRingInsert d s).ring.entries := by
  have hring : (txRingInsert d s).ring.entries = s.ring.entries ++ [d] :=
    RingBuf.entries_insert _ _ h.ring_room
  rw [hring]
  exact mem_append_right _ (mem_singleton_self d)

theorem txRingInsert_placed : Placed none (txRingInsert d s) := by
  have hnew := h.newMsg (v := { s.desc d with state := .active }) h.no_dsend
  have hring : (txRingInsert d s).ring.entries = s.ring.entries ++ [d] :=
    RingBuf.entries_insert _ _ h.ring_room
  refine ⟨fun e => ?_, h.cq, hnew.rtr, fun e he => ?_, hnew.defer, h.deferNodup, h.own⟩
  · have hold := h.once e
    have hplaces : (txRingInsert d s).places e = s.places e + if d = e then 1 else 0 := by
      rw [TxEp.places, hring, count_append, count_singleton, TxEp.places]
      simp only [txRingInsert, TxEp.modDesc, TxEp.setDesc, TxEp.cqDescs, beq_iff_eq]
      omega
    rw [hplaces, hold]
    simp only [some.injEq, reduceCtorEq, if_false]
    split_ifs <;> rfl
  · obtain ⟨hm, hs⟩ := hnew.dsend e he
    refine ⟨?_, hs⟩
    rw [hring]
    exact mem_append_left _ hm

theorem bufRtrListInsert_placed (hop : (s.desc d).op.isRtr = true) : Placed none (bufRtrListInsert d s) := by
  have hplaces : ∀ e, (bufRtrListInsert d s).places e = s.places e + if d = e then 1 else 0 := by
    intro e
    unfold bufRtrListInsert
    split_ifs <;>
      simp only [TxEp.places, TxEp.cqDescs, count_append, count_singleton, beq_iff_eq] <;>
      split_ifs <;> omega
  have hdesc : (bufRtrListInsert d s).desc = s.desc := by
    unfold bufRtrListInsert
    split_ifs <;> rfl
  refine ⟨fun e => ?_, ?_, fun e he => ?_, ?_, ?_, ?_, ?_⟩
  · rw [hplaces, h.once]
    simp only [some.injEq, reduceCtorEq, if_false]
    split_ifs <;> rfl
  · unfold bufRtrListInsert
    split_ifs <;> exact h.cq
  · rw [hdesc]
    rcases eq_or_ne e d with rfl | hne
    · exact hop
    refine h.rtr e ?_
    unfold bufRtrListInsert at he
    split_ifs at he <;> simpa [hne] using he
  all_goals
    unfold bufRtrListInsert
    split_ifs
  · exact h.dsend
  · exact h.dsend
  · exact h.defer
  · exact h.defer
  · exact h.deferNodup
  · exact h.deferNodup
  · exact h.own
  · exact h.own

end

theorem bufRtrListRemove_placed (h : Placed none s) (hd : d ∈ s.bufRtr ∨ d ∈ s.bufTagRtr) :
    Placed (some d) (bufRtrListRemove d s) := by
  have hrm : bufRtrListRemove d s =
      { s with bufRtr := s.bufRtr.erase d, bufTagRtr := s.bufTagRtr.erase d } := if_pos (h.rtr d hd)
  rw [hrm]
  refine ⟨fun e => ?_, h.cq, fun e he => h.rtr e ?_, h.dsend, h.defer, h.deferNodup, h.own⟩
  · have hold := h.once e
    have hin : 0 < s.bufRtr.count d ∨ 0 < s.bufTagRtr.count d := by
      simpa only [count_pos_iff] using hd
    simp only [TxEp.places, count_erase, reduceCtorEq, if_false, some.injEq, beq_iff_eq] at hold ⊢
    have hcq : TxEp.cqDescs { s with bufRtr := s.bufRtr.erase d, bufTagRtr := s.bufTagRtr.erase d } =
      s.cqDescs := rfl
    rw [hcq]
    split_ifs with he
    · subst he
      omega
    · omega
  · exact he.imp mem_of_mem_erase mem_of_mem_erase

theorem txRingRotate_placed (h : Placed x s) (hr : s.ring.entries = d :: as) : Placed x (txRingRotate d s) := by
  have hring : (txRingRotate d s).ring.entries = as ++ [d] := RingBuf.entries_rotate hr
  refine ⟨fun e => ?_, h.cq, h.rtr, fun e he => ?_, h.defer, h.deferNodup, h.own⟩
  · rw [← h.once e, TxEp.places, TxEp.places, hring, hr, count_append, count_singleton, count_cons]
    rfl
  · obtain ⟨hm, hs⟩ := h.dsend e he
    refine ⟨?_, hs⟩
    rw [hring]
    rw [hr] at hm
    simpa [or_comm] using hm

/-! ## Taking a descriptor out of the ring -/

structure SameAcct (v v' : TxDesc) : Prop where
  state : v'.state = v.state
  unackPkts : v'.unackPkts = v.unackPkts
  cancelPending : v'.cancelPending = v.cancelPending
  msgNo : v'.msgNo = v.msgNo

/-- What `uet_tx_desc_recycle` leaves when the descriptor is not made available. -/
structure Recycled (d : Fin n) (s s' : TxEp n m) : Prop where
  pds : s'.pds = s.pds
  acct : SameAcct (s.desc d) (s'.desc d)
  free : s'.free = s.free
  bufRtr : s'.bufRtr = s.bufRtr
  bufTagRtr : s'.bufTagRtr = s.bufTagRtr
  cq : s'.cq = s.cq
  ring : s'.ring = s.ring.tailAdvance
  removed : s'.removed = s.removed ++ [(d, s.ring.atTail)]
  others : ∀ e, e ≠ d → s'.desc e = s.desc e
  op : (s'.desc d).op = (s.desc d).op
  dsend : (s'.desc d).dsend = false
  deferList : s'.deferList =
    if (s.desc d).dsend && (s.desc d).inDsendList then s.deferList.erase d else s.deferList
  idle : s'.idleDsendMsgTimeout = s.idleDsendMsgTimeout

theorem txRingRemove_out (d : Fin n) (s : TxEp n m) :
    ∃ rdActive rdMsgId, txMsgIdRelease d (txRingRemove d (rdRecycle d s)) = { s with
        ring := s.ring.tailAdvance, removed := s.removed ++ [(d, s.ring.atTail)], rdActive, rdMsgId } := by
  unfold txMsgIdRelease rdRecycle
  split_ifs <;> exact ⟨_, _, rfl⟩

theorem deferListRemove_desc (d : Fin n) (s : TxEp n m) :
    (∀ e, e ≠ d → (deferListRemove d s).desc e = s.desc e) ∧
      ((deferListRemove d s).desc d).op = (s.desc d).op ∧
      SameAcct (s.desc d) ((deferListRemove d s).desc d) := by
  unfold deferListRemove
  split_ifs
  · refine ⟨fun e he => modDesc_of_ne _ he, ?_⟩
    rw [modDesc_self]
    exact ⟨rfl, rfl, rfl, rfl, rfl⟩
  · exact ⟨fun _ _ => rfl, rfl, rfl, rfl, rfl, rfl⟩

theorem txDescRecycle_out (d : Fin n) (s : TxEp n m) : Recycled d s (txDescRecycle d false s) := by
  obtain ⟨rdActive, rdMsgId, hout⟩ := txRingRemove_out d s
  simp only [txDescRecycle, hout, Bool.false_eq_true, if_false, deallocTxRtrToken]
  generalize hs1 : ({ s with
    ring := s.ring.tailAdvance, removed := s.removed ++ [(d, s.ring.atTail)], rdActive, rdMsgId } :
    TxEp n m) = s1
  have hdesc : s1.desc = s.desc := by rw [← hs1]
  obtain ⟨hothers, hop, hacct⟩ := deferListRemove_desc d s1
  split_ifs with hds
  · have hdefer : (deferListRemove d s1).deferList =
        if (s.desc d).dsend && (s.desc d).inDsendList then s.deferList.erase d else s.deferList := by
      rw [hds, Bool.true_and, ← hdesc]
      subst hs1
      unfold deferListRemove
      split_ifs <;> rfl
    refine ⟨?_, ?_, ?_, ?_, ?_, ?_, ?_, ?_, fun e he => ?_, ?_, ?_, hdefer, ?_⟩
    case refine_2 =>
      rw [modDesc_self, ← hdesc]
      exact ⟨hacct.state, hacct.unackPkts, hacct.cancelPending, hacct.msgNo⟩
    case refine_9 =>
      rw [modDesc_of_ne _ he, ← hdesc]
      exact hothers e he
    case refine_10 =>
      rw [modDesc_self, ← hdesc]
      exact hop
    case refine_11 => rw [modDesc_self]
    all_goals
      rw [← hs1]
      unfold deferListRemove
      split_ifs <;> rfl
  · have hds' : (s.desc d).dsend = false := by simpa using hds
    rw [← hs1]
    refine ⟨rfl, ⟨rfl, rfl, rfl, rfl⟩, rfl, rfl, rfl, rfl, rfl, rfl, fun _ _ => rfl, rfl, hds', ?_, rfl⟩
    rw [hds']
    rfl

theorem Recycled.placed (h : Placed none s) (hr : s.ring.entries = d :: as) (hs : Recycled d s s') :
    Placed (some d) s' := by
  obtain ⟨htail, hadv⟩ := RingBuf.entries_tailAdvance hr
  have hring : s'.ring.entries = as := by rw [hs.ring, hadv]
  have hnot : d ∉ s'.deferList := by
    rw [hs.deferList]
    split_ifs with hc
    · exact fun hd => h.deferNodup.not_mem_erase hd
    intro hd
    obtain ⟨h1, h2⟩ := h.defer d hd
    exact hc (by rw [h1, h2]; rfl)
  have hsub : ∀ e ∈ s'.deferList, e ∈ s.deferList := by
    intro e he
    rw [hs.deferList] at he
    split_ifs at he
    · exact mem_of_mem_erase he
    · exact he
  refine ⟨fun e => ?_, hs.cq ▸ h.cq, fun e he => ?_, fun e he => ?_, fun e he => ?_, ?_, ?_⟩
  · have hold := h.once e
    rw [TxEp.places, TxEp.cqDescs, hr, count_cons] at hold
    rw [TxEp.places, TxEp.cqDescs, hs.free, hs.bufRtr, hs.bufTagRtr, hs.cq, hring]
    simp only [reduceCtorEq, if_false, beq_iff_eq, some.injEq] at hold ⊢
    split_ifs at hold ⊢ <;> omega
  · rw [hs.bufRtr, hs.bufTagRtr] at he
    rcases eq_or_ne e d with rfl | hne
    · rw [hs.op]
      exact h.rtr e he
    · rw [hs.others e hne]
      exact h.rtr e he
  · rcases eq_or_ne e d with rfl | hne
    · rw [hs.dsend] at he
      cases he
    · rw [hs.others e hne] at he ⊢
      obtain ⟨hm, hsend⟩ := h.dsend e he
      rw [hr, mem_cons, or_iff_right hne] at hm
      rw [hring]
      exact ⟨hm, hsend⟩
  · have hne : e ≠ d := by
      rintro rfl
      exact hnot he
    rw [hs.others e hne]
    exact h.defer e (hsub e he)
  · rw [hs.deferList]
    split_ifs
    · exact h.deferNodup.erase d
    · exact h.deferNodup
  · rw [hs.removed]
    intro p hp
    rcases mem_append.1 hp with hp | hp
    · exact h.own p hp
    rw [mem_singleton] at hp
    rw [hp]
    exact htail.symm

theorem txDescRecycle_placed (h : Placed none s) (hr : s.ring.entries = d :: as) :
    Placed none (txDescRecycle d true s) :=
  txListInsert_placed ((txDescRecycle_out d s).placed h hr)

theorem Placed.post (h : Placed (some d) s) (hcq : n ≤ m) {c : TxCqEntry n} (hc : c.desc = some d) :
    Placed none { s with cq := s.cq.insert c } := by
  have hent : (s.cq.insert c).entries = s.cq.entries ++ [c] :=
    RingBuf.entries_insert _ _ (lt_of_lt_of_le h.cq_room hcq)
  refine ⟨fun e => ?_, fun e he => ?_, h.rtr, h.dsend, h.defer, h.deferNodup, h.own⟩
  · have hold := h.once e
    rw [TxEp.places, TxEp.cqDescs] at hold ⊢
    rw [hent, filterMap_append, count_append]
    simp only [filterMap_cons, hc, filterMap_nil, count_singleton, beq_iff_eq,
      some.injEq, reduceCtorEq, if_false] at hold ⊢
    split_ifs at hold ⊢ <;> omega
  · rw [show ({ s with cq := s.cq.insert c } : TxEp n m).cq = s.cq.insert c from rfl, hent,
      mem_append, mem_singleton] at he
    rcases he with he | rfl
    · exact h.cq e he
    · rw [hc]
      exact some_ne_none _

theorem txCqPostErr_placed (h : Placed none s) (hcq : n ≤ m) (hr : s.ring.entries = d :: as) (err : Nat) :
    Placed none (txCqPostErr d err s) := by
  unfold txCqPostErr
  split_ifs
  · exact txDescRecycle_placed h hr
  have hinc := incNextTxSeqNum_beside d s
  have h' := h.stays hinc.stays
  rw [← hinc.ring] at hr
  have hout := txDescRecycle_out d (incNextTxSeqNum d s)
  have hpost := (hout.placed h' hr).post hcq (c := ⟨true, some d, ((incNextTxSeqNum d s).desc d).context,
    ((incNextTxSeqNum d s).desc d).op, err⟩) rfl
  rwa [hout.cq] at hpost

theorem txCqPostEntry_placed (h : Placed none s) (hcq : n ≤ m) (hr : s.ring.entries = d :: as) :
    Placed none (txCqPostEntry d s) := by
  unfold txCqPostEntry
  split_ifs with hp
  · exact txDescRecycle_placed h hr
  have hinc := incNextTxSeqNum_beside d s
  have h' := h.stays hinc.stays
  rw [← hinc.ring] at hr
  have hout := txDescRecycle_out d (incNextTxSeqNum d s)
  dsimp only
  split_ifs
  · have hpost := (hout.placed h' hr).post hcq
      (c := ⟨false, some d, ((incNextTxSeqNum d s).desc d).context, ((incNextTxSeqNum d s).desc d).op, 0⟩) rfl
    rwa [hout.cq] at hpost
  · exact txDescRecycle_placed h' hr

/-! ## Transmission -/

/-- What `uet_tx_msg` does to a descriptor, with `k` packets taken. -/
structure Sent (v v' : TxDesc) (k : Nat) (rc : TxRc) : Prop where
  op : v'.op = v.op
  inDsendList : v'.inDsendList = v.inDsendList
  dsend_keep : v.dsend = true → v'.dsend = true
  dsend_new : v'.dsend = true → v.dsend = true ∨ v.op.isSend = true
  pdsMode : v'.pdsMode = v.pdsMode
  msgNo : v'.msgNo = v.msgNo
  cancelPending : v'.cancelPending = v.cancelPending
  unackPkts : v'.unackPkts = if v.pdsMode = .uud then v.unackPkts else v.unackPkts + k
  state : (∃ err, rc = .fail err) ∧ v'.state = .errComplete ∨
    (∀ err, rc ≠ .fail err) ∧ v'.state = v.state

theorem Sent.idle {v : TxDesc} (hop : v'.op = v.op) (hin : v'.inDsendList = v.inDsendList) (hds : v'.dsend = v.dsend)
    (hpds : v'.pdsMode = v.pdsMode) (hno : v'.msgNo = v.msgNo) (hc : v'.cancelPending = v.cancelPending)
    (hu : v'.unackPkts = v.unackPkts) {rc : TxRc} (hst : (∃ err, rc = .fail err) ∧ v'.state = .errComplete ∨
      (∀ err, rc ≠ .fail err) ∧ v'.state = v.state) {k : Nat} (hk : k = 0) : Sent v v' k rc :=
  ⟨hop, hin, fun h => hds.trans h, fun h => .inl (hds ▸ h), hpds, hno, hc,
    hu.trans (by rw [hk]; split_ifs <;> rfl), hst⟩

theorem Sent.next {v : TxDesc} {k : Nat} {rc : TxRc} {len : Nat}
    (h : Sent (({ v with pktCnt := v.pktCnt + 1 } : TxDesc).sent len) v' k rc) : Sent v v' (k + 1) rc := by
  refine ⟨h.op, h.inDsendList, h.dsend_keep, h.dsend_new, h.pdsMode, h.msgNo, h.cancelPending, ?_, h.state⟩
  have hu := h.unackPkts
  simp only [TxDesc.sent] at hu
  rw [hu]
  split_ifs
  · rfl
  · omega

theorem txMsgLoop_sent (mrs : Nat → Region) (mem : Mem) (ts : List TxTry) (v : TxDesc) :
    Sent v (txMsgLoop cfg mrs mem ts v).1 (txMsgLoop cfg mrs mem ts v).2.1.length
      (txMsgLoop cfg mrs mem ts v).2.2 := by
  induction ts generalizing v with
  | nil =>
    refine .idle rfl rfl rfl rfl rfl rfl rfl (.inr ⟨fun err => ?_, rfl⟩) rfl
    show (if v.allSent then TxRc.ok else TxRc.eagain) ≠ _
    split_ifs <;> exact TxRc.noConfusion
  | cons t ts ih =>
    cases hall : v.allSent with
    | true =>
      simp only [txMsgLoop, hall, if_true]
      apply Sent.idle <;> first | rfl | exact .inr ⟨fun _ => TxRc.noConfusion, rfl⟩
    | false =>
      simp only [txMsgLoop, hall, Bool.false_eq_true, if_false]
      cases txPayload mrs mem t.alloc v (min v.remaining cfg.maxPayloadLen) with
      | none =>
        apply Sent.idle <;> first | rfl | exact .inl ⟨⟨_, rfl⟩, rfl⟩
      | some bytes =>
        cases t.rc with
        | ok => exact (ih _).next
        | eagain =>
          apply Sent.idle <;> first | rfl | exact .inr ⟨fun _ => TxRc.noConfusion, rfl⟩
        | fail err =>
          apply Sent.idle <;> first | rfl | exact .inl ⟨⟨_, rfl⟩, rfl⟩

theorem dsendInit_cases (token : Option (BitVec 16)) (v : TxDesc) : dsendInit cfg token v = v ∨ v.op.isSend = true ∧
      ∃ t, dsendInit cfg token v = { v with dsend := true, localRtrToken := t } := by
  unfold dsendInit
  generalize (if v.op = .send then cfg.msgRndzSize else cfg.tagRndzSize) = limit
  split_ifs with h1
  · exact .inl rfl
  · exact .inl rfl
  cases token with
  | none => exact .inl rfl
  | some t =>
    refine .inr ⟨?_, t, rfl⟩
    simp only [Bool.or_eq_true, Bool.not_eq_true', not_or] at h1
    simpa using h1.2

theorem txMsg_sent (mrs : Nat → Region) (mem : Mem) (c : TxCall) (v : TxDesc) :
    Sent v (txMsg cfg mrs mem c v).1 (txMsg cfg mrs mem c v).2.1.length (txMsg cfg mrs mem c v).2.2 := by
  unfold txMsg
  split_ifs
  · rcases dsendInit_cases cfg c.token v with h | ⟨hop, t, h⟩
    · rw [h]
      exact txMsgLoop_sent _ _ _ _ _
    · rw [h]
      have hs := txMsgLoop_sent cfg mrs mem c.tries { v with dsend := true, localRtrToken := t }
      exact ⟨hs.op, hs.inDsendList, fun _ => hs.dsend_keep rfl, fun _ => .inr hop, hs.pdsMode, hs.msgNo,
        hs.cancelPending, hs.unackPkts, hs.state⟩
  · exact txMsgLoop_sent _ _ _ _ _

theorem Placed.sent (h : Placed none s) (hd : d ∈ s.ring.entries) {v : TxDesc} {k : Nat} {rc : TxRc}
    (hv : Sent (s.desc d) v k rc) : Placed none (s.setDesc d v) := by
  refine h.write (fun hd => hv.op ▸ h.rtr d hd) (fun hds => ⟨hd, hv.op ▸ ?_⟩) (fun hd => ?_)
    (fun _ he _ => he) h.deferNodup
  · exact (hv.dsend_new hds).elim (fun hds => (h.dsend d hds).2) id
  · exact (h.defer d hd).imp hv.dsend_keep hv.inDsendList.trans

theorem txMsgAt_stays (env : TxEnv) (c : TxCall) :
    Stays (s.setDesc d (txMsgOf env c d s).1) (txMsgAt env c d s) := by
  unfold txMsgAt
  dsimp only
  refine Stays.trans (trackPkts_stays (d := d) (txMsgOf env c d s).2.1.length) ?_
  split_ifs
  · exact ⟨rfl, rfl, rfl, rfl, rfl, rfl, rfl, fun _ => .refl _⟩
  · exact .refl _

theorem txMsgAt_placed (h : Placed none s) (hd : d ∈ s.ring.entries) (env : TxEnv) (c : TxCall) :
    Placed none (txMsgAt env c d s) := (h.sent hd (txMsg_sent _ _ _ _ _)).stays (txMsgAt_stays env c)

theorem txMsgAt_ring (env : TxEnv) (c : TxCall) : (txMsgAt env c d s).ring = s.ring :=
  (txMsgAt_stays env c).ring

section

variable (h : Placed none s) (hcq : n ≤ m) (hr : s.ring.entries = d :: as) (env : TxEnv)
include h hcq hr env

theorem txActive_placed (c : TxCall) : Placed none (txActive env c d s) := by
  have hd : d ∈ s.ring.entries := by rw [hr]; exact mem_cons_self
  have h' := txMsgAt_placed h hd env c
  rw [← txMsgAt_ring (s := s) (d := d) env c] at hr
  unfold txActive
  dsimp only
  split
  · split_ifs
    · exact txCqPostErr_placed h' hcq hr _
    · exact txRingRotate_placed h' hr
  · exact txRingRotate_placed h' hr

theorem txAdvance_placed (t : TxTurn) (prev : TxState) : Placed none (txAdvance env t prev d s) := by
  unfold txAdvance
  split
  · split_ifs
    · exact txActive_placed h hcq hr _ _
    · exact txRingRotate_placed h hr
  · exact txCqPostErr_placed h hcq hr _
  · exact txCqPostEntry_placed h hcq hr
  · exact txRingRotate_placed h hr

theorem txTurn_placed (t : TxTurn) : Placed none (txTurn env t d s) := by
  unfold txTurn
  split_ifs
  · exact txRingRotate_placed h hr
  · have hs := txCancel_stays (s := s) (d := d) t.rc
    exact txRingRotate_placed (h.stays hs) (hs.ring ▸ hr)
  · have hs := txRtr_stays (s := s) (d := d) t.rc
    exact txRingRotate_placed (h.stays hs) (hs.ring ▸ hr)
  · have hs := txStateTransition_stays (s := s) (d := d) env.now t.backoff
    exact txAdvance_placed (h.stays hs) hcq (hs.ring ▸ hr) _ _ _

end

theorem txMsgTryLoop_placed (hcq : n ≤ m) (env : TxEnv) (turns : Nat → TxTurn) (k i : Nat)
    (start : Option (Fin n)) (h : Placed none s) : Placed none (txMsgTryLoop env turns k i start s) := by
  induction k generalizing i start s with
  | zero => exact h
  | succ k ih =>
    rw [txMsgTryLoop]
    split_ifs with hstop
    · exact h
    simp only [Bool.or_eq_true, decide_eq_true_eq, not_or] at hstop
    have hr := s.ring.entries_eq_cons (Nat.pos_of_ne_zero hstop.1)
    exact ih _ _ (txTurn_placed h hcq hr _ _)

/-! ## Timers, flush and the completion queue -/

theorem txCqPostErr_dsend (h : Placed none s) (hds : (s.desc d).dsend = true) (err : Nat) :
    (txCqPostErr d err s).deferList =
        (if (s.desc d).inDsendList then s.deferList.erase d else s.deferList) ∧
      (txCqPostErr d err s).ring = s.ring.tailAdvance ∧
      (∀ e, e ≠ d → (txCqPostErr d err s).desc e = s.desc e) ∧
      (txCqPostErr d err s).idleDsendMsgTimeout = s.idleDsendMsgTimeout := by
  have hpeer : (s.desc d).op.forPeer = false := by
    have := (h.dsend d hds).2
    cases hop : (s.desc d).op <;> rw [hop] at this <;> first | rfl | cases this
  unfold txCqPostErr
  rw [if_neg (by rw [hpeer]; exact Bool.false_ne_true)]
  have hinc := incNextTxSeqNum_beside d s
  have hout := txDescRecycle_out d (incNextTxSeqNum d s)
  refine ⟨?_, ?_, fun e he => ?_, ?_⟩
  · have := hout.deferList
    rw [hinc.desc, hinc.deferList, hds, Bool.true_and] at this
    exact this
  · rw [← hinc.ring]
    exact hout.ring
  · rw [← hinc.desc]
    exact hout.others e he
  · rw [← hinc.idle]
    exact hout.idle

theorem takeWhile_congr {α : Type} {p q : α → Bool} {l : List α} (h : ∀ a ∈ l, p a = q a) :
    l.takeWhile p = l.takeWhile q := by
  induction l with
  | nil => rfl
  | cons a l ih =>
    rw [takeWhile_cons, takeWhile_cons, h a mem_cons_self, ih fun b hb => h b (mem_cons_of_mem _ hb)]

theorem dsendMsgAgeLoop_rec (hcq : n ≤ m) {now k : Nat} {M : TxEp n m → List (Fin n) → TxEp n m → Prop}
    (hnil : ∀ s, Placed none s → M s [] s)
    (hcons : ∀ s d l as s', Placed none s → s.ring.entries = d :: as → d ∉ l →
      (∀ e, e ≠ d → (txCqPostErr d fiEio s).desc e = s.desc e) → M (txCqPostErr d fiEio s) l s' → M s (d :: l) s')
    (h : Placed none s) (hk : s.deferList.length ≤ k)
    (haged : s.deferList.takeWhile (dsendAged now s) <+: s.ring.entries) :
    M s (s.deferList.takeWhile (dsendAged now s)) (dsendMsgAgeLoop now k s) := by
  induction k generalizing s with
  | zero =>
    rw [eq_nil_of_length_eq_zero (Nat.le_zero.1 hk)]
    exact hnil s h
  | succ k ih =>
    rw [dsendMsgAgeLoop]
    cases hl : s.deferList with
    | nil => exact hnil s h
    | cons d rest =>
      rw [hl] at hk haged
      rw [takeWhile_cons] at haged ⊢
      dsimp only
      split_ifs at haged ⊢ with ha
      · obtain ⟨as, has⟩ := haged
        have hr : s.ring.entries = d :: (rest.takeWhile (dsendAged now s) ++ as) := has.symm
        obtain ⟨hds, hin⟩ := h.defer d (by rw [hl]; exact mem_cons_self)
        obtain ⟨hdefer, hring, hothers, hidle⟩ := txCqPostErr_dsend h hds fiEio
        have hnd : d ∉ rest := by
          have := h.deferNodup
          rw [hl] at this
          exact (nodup_cons.1 this).1
        rw [hin, if_pos rfl, hl, erase_cons_head] at hdefer
        have htake : rest.takeWhile (dsendAged now (txCqPostErr d fiEio s)) = rest.takeWhile (dsendAged now s) := by
          refine takeWhile_congr fun e he => ?_
          have hne : e ≠ d := fun hed => hnd (hed ▸ he)
          rw [dsendAged, dsendAged, hothers e hne, hidle]
        refine hcons s d _ _ _ h hr (fun hd => hnd ((List.takeWhile_prefix _).subset hd)) hothers ?_
        have hnext := ih (txCqPostErr_placed h hcq hr fiEio) (by rw [hdefer]; exact Nat.le_of_succ_le_succ hk)
        rw [hdefer, htake, hring, (RingBuf.entries_tailAdvance hr).2] at hnext
        exact hnext (prefix_append _ _)
      · exact hnil s h

theorem dsendMsgAge_placed (hcq : n ≤ m) {now : Nat} (h : Placed none s)
    (haged : s.deferList.takeWhile (dsendAged now s) <+: s.ring.entries) : Placed none (dsendMsgAge now s) :=
  dsendMsgAgeLoop_rec (M := fun _ _ s' => Placed none s') hcq (fun _ h => h)
    (fun _ _ _ _ _ _ _ _ _ h => h) h le_rfl haged

theorem rtrMsgDrop_placed (h : Placed none s) (hd : d ∈ s.bufRtr ∨ d ∈ s.bufTagRtr) :
    Placed none (rtrMsgDrop d s) :=
  txListInsert_placed ((bufRtrListRemove_placed h hd).stays (deallocMsgId_stays _))

variable {P : TxEp n m → Prop}

theorem rtrMsgAgeLoop_keep {list : TxEp n m → List (Fin n)}
    (hdrop : ∀ s d, P s → d ∈ list s → P (rtrMsgDrop d s)) (k : Nat) (h : P s) : P (rtrMsgAgeLoop now list k s) := by
  induction k generalizing s with
  | zero => exact h
  | succ k ih =>
    rw [rtrMsgAgeLoop]
    cases hl : list s with
    | nil => exact h
    | cons d rest =>
      dsimp only
      split_ifs
      · exact ih (hdrop s d h (by rw [hl]; exact mem_cons_self))
      · exact h

theorem rtrMsgAgeLoop_placed (k : Nat) {list : TxEp n m → List (Fin n)}
    (hlist : ∀ s d, d ∈ list s → d ∈ s.bufRtr ∨ d ∈ s.bufTagRtr) (h : Placed none s) :
    Placed none (rtrMsgAgeLoop now list k s) :=
  rtrMsgAgeLoop_keep now (fun s d hs hd => rtrMsgDrop_placed hs (hlist s d hd)) k h

theorem flushed_stays (d : Fin n) (s : TxEp n m) : Stays s (TxEp.modDesc d
    (fun v => ({ v with cancelPending := false, unackPkts := 0 }).setErr fiEcanceled .errComplete)
    { s with pds := s.pds.filter (·.desc != d) }) := by
  have hpds : Stays s { s with pds := s.pds.filter (·.desc != d) } :=
    ⟨rfl, rfl, rfl, rfl, rfl, rfl, rfl, fun _ => .refl _⟩
  exact hpds.trans (.mod fun _ => ⟨rfl, rfl, rfl⟩)

theorem flushOne_placed (h : Placed none s) (hcq : n ≤ m) (hr : s.ring.entries = d :: as) :
    Placed none (flushOne d s) := by
  have hs := flushed_stays d s
  exact txCqPostErr_placed (h.stays hs) hcq (hs.ring ▸ hr) _

theorem epFlush_placed (hcq : n ≤ m) (k : Nat) (h : Placed none s) : Placed none (epFlush k s) := by
  induction k generalizing s with
  | zero => exact h
  | succ k ih =>
    rw [epFlush]
    split_ifs with hc
    · exact h
    · exact ih (flushOne_placed h hcq (s.ring.entries_eq_cons (Nat.pos_of_ne_zero hc)))

theorem txCqReadEntry_placed (h : Placed none s) (hc : 0 < s.cq.cnt) : Placed none (txCqReadEntry s) := by
  have hent := s.cq.entries_eq_cons hc
  obtain ⟨d, hd⟩ : ∃ d, s.cq.atTail.desc = some d :=
    ne_none_iff_exists'.1 (h.cq _ (by rw [hent]; exact mem_cons_self))
  have htake : Placed (some d) { s with cq := s.cq.tailAdvance } := by
    refine ⟨fun e => ?_, fun e he => h.cq e ?_, h.rtr, h.dsend, h.defer, h.deferNodup, h.own⟩
    · have hold := h.once e
      rw [TxEp.places, TxEp.cqDescs, hent] at hold
      rw [TxEp.places, TxEp.cqDescs]
      simp only [filterMap_cons, hd, count_cons, beq_iff_eq, some.injEq, reduceCtorEq, if_false] at hold ⊢
      split_ifs at hold ⊢ <;> omega
    · rw [hent]
      exact mem_cons_of_mem _ he
  unfold txCqReadEntry
  rw [hd]
  exact txListInsert_placed htake

theorem txCqRead_keep (hread : ∀ s, P s → 0 < s.cq.cnt → P (txCqReadEntry s)) (k : Nat)
    (h : P s) : P (txCqRead k s) := by
  induction k generalizing s with
  | zero => exact h
  | succ k ih =>
    rw [txCqRead]
    split_ifs with hstop
    · exact h
    · simp only [Bool.or_eq_true, decide_eq_true_eq, not_or] at hstop
      exact ih (hread s h (Nat.pos_of_ne_zero hstop.1))

theorem txCqRead_placed (k : Nat) (h : Placed none s) : Placed none (txCqRead k s) :=
  txCqRead_keep (fun _ => txCqReadEntry_placed) k h

/-! ## Responses and new descriptors -/

theorem rspAction_defer {v : TxDesc} {rdModLen : Nat} {r : SesRsp}
    (h : v.rspAction rdModLen r = .defer) : v.dsend = true := by
  have hrc : ∀ modLen, v.rcAction rdModLen modLen r = .defer → v.dsend = true := by
    intro modLen h
    by_contra hds
    rw [Bool.not_eq_true] at hds
    unfold TxDesc.rcAction at h
    simp only [hds, Bool.false_and, Bool.false_eq_true, if_false] at h
    split at h
    · split_ifs at h
    all_goals cases h
  unfold TxDesc.rspAction at h
  split at h
  · cases h
  split at h
  · cases h
  split at h
  · cases h
  · exact hrc _ h
  · cases h
  · cases h
  · cases h
  · exact hrc _ h

theorem deferListInsert_placed (h : Placed x s) (hds : (s.desc d).dsend = true) (hd : d ∉ s.deferList)
    (now : Nat) : Placed x (deferListInsert now d s) := by
  refine h.write (h.rtr d) (fun _ => h.dsend d hds) (fun _ => ⟨hds, rfl⟩)
    (fun e he hne => by simpa [hne] using he) (nodup_append.2 ⟨h.deferNodup, nodup_singleton d, ?_⟩)
  intro a ha b hb
  rw [mem_singleton] at hb
  rintro rfl
  exact hd (hb ▸ ha)

def TxEp.rspActionFor (s : TxEp n m) (d : Fin n) (r : SesRsp) : RspAction :=
  ((s.desc d).uncount (some r)).rspAction (s.rdModLen d) r

theorem pdsToSesRxRsp_placed (h : Placed x s) (now : Nat) {r : Option SesRsp}
    (hr : ∀ r', r = some r' → s.rspActionFor d r' = .defer → (s.desc d).inDsendList = false) :
    Placed x (pdsToSesRxRsp now d r s) := by
  have hmod : Stays s (s.modDesc d (·.uncount r)) := .mod (uncount_flags r)
  have h1 := h.stays hmod
  unfold pdsToSesRxRsp
  cases r with
  | none => exact h1
  | some r =>
    dsimp only
    have hact : ((s.modDesc d (·.uncount (some r))).desc d).rspAction (s.rdModLen d) r =
        s.rspActionFor d r := by rw [modDesc_self]; rfl
    rw [show (s.modDesc d (·.uncount (some r))).rdModLen = s.rdModLen from rfl, hact]
    generalize hs1 : s.modDesc d (·.uncount (some r)) = s1 at hmod h1
    have hgen : Stays s1 (if s.rspActionFor d r = .retx false then setGen d r s1 else s1) := by
      split_ifs
      · exact (setGen_beside d r s1).stays
      · exact .refl s1
    have h2 := h1.stays hgen
    have hflags := (hmod.trans hgen).flags d
    generalize (if s.rspActionFor d r = .retx false then setGen d r s1 else s1) = s2 at hgen h2 hflags
    refine Placed.stays ?_ (.mod (rspExit_flags _))
    split_ifs with ha
    · have hds : (s2.desc d).dsend = true := by
        rw [hflags.dsend]
        exact rspAction_defer ha
      refine deferListInsert_placed h2 hds (fun hd => ?_) now
      have := (h2.defer d hd).2
      rw [hflags.inDsendList, hr r rfl ha] at this
      cases this
    · exact h2

theorem deferListRemove_placed (h : Placed x s) : Placed x (deferListRemove d s) := by
  unfold deferListRemove
  split_ifs
  · exact h.write (h.rtr d) (h.dsend d) (fun he => absurd he h.deferNodup.not_mem_erase)
      (fun e he _ => mem_of_mem_erase he) (h.deferNodup.erase d)
  · exact h

theorem rxRtrReqPkt_placed (h : Placed x s) (token : BitVec 16) (remote : BitVec 32) :
    Placed x (rxRtrReqPkt token remote s) := by
  unfold rxRtrReqPkt
  cases s.token token with
  | none => exact h
  | some d =>
    have h1 : Placed x (s.modDesc d fun v => { v with remoteRtrToken := remote }) :=
      h.stays (.mod fun _ => ⟨rfl, rfl, rfl⟩)
    have h2 := deferListRemove_placed (d := d) h1
    dsimp only
    generalize deferListRemove d _ = s2 at h2 ⊢
    exact h2.stays (.mod fun _ => ⟨rfl, rfl, rfl⟩)

theorem rtrMatch_mem {k : RtrFor} (h : rtrMatch k s = some d) : d ∈ s.bufRtr ∨ d ∈ s.bufTagRtr := by
  unfold rtrMatch at h
  cases k with
  | recv => exact .inl (mem_of_mem_head? h)
  | trecv initiator tag => exact .inr (mem_of_find?_eq_some h)

section

variable (h : Placed none s)
include h

theorem txRtrTry_placed (k : RtrFor) : Placed none (txRtrTry k s) := by
  unfold txRtrTry
  cases hm : rtrMatch k s with
  | none => exact h
  | some d => exact txRingInsert_placed (bufRtrListRemove_placed h (rtrMatch_mem hm))

theorem sendReqStart_placed (now : Nat) (r : SendReq)
    (hr : s.free ≠ [] → r.api = .read → r.rxDesc = true → r.hasSeg = true → r.rxSeg = true) :
    Placed none (sendReqStart now r s).1 ∧
      ∀ d ∈ (sendReqStart now r s).2, d ∈ (sendReqStart now r s).1.ring.entries := by
  unfold sendReqStart
  cases hf : s.free with
  | nil => exact ⟨h, by simp⟩
  | cons d free =>
    have h1 := h.take_free hf
    split_ifs with hrx hseg
    · exact ⟨txListInsert_placed h1, by simp⟩
    · have hrx' : r.rxDesc = true := by
        by_contra hne
        exact hrx ⟨hseg.1, by simpa using hne⟩
      have := hr (by rw [hf]; exact cons_ne_nil _ _) hseg.1 hrx' hseg.2.1
      simp [this] at hseg
    · have h2 := ((h1.stays (rdStart_beside d r _).stays).stays (allocSeqNum_beside r _).stays).newMsg
        (v := r.desc now (s.av r.dst).seqNum s.nextMsgNo) rfl
      refine ⟨txRingInsert_placed h2, fun e he => ?_⟩
      cases he
      exact txRingInsert_mem h2

theorem sendReqApi_placed (env : TxEnv) (c : TxCall) (r : SendReq)
    (hr : s.free ≠ [] → r.api = .read → r.rxDesc = true → r.hasSeg = true → r.rxSeg = true) :
    Placed none (sendReqApi env c r s) := by
  obtain ⟨h1, hmem⟩ := sendReqStart_placed h env.now r hr
  unfold sendReqApi
  generalize sendReqStart env.now r s = p at h1 hmem
  obtain ⟨s1, o⟩ := p
  cases o with
  | none => exact h1
  | some d =>
    dsimp only
    split_ifs
    · exact txMsgAt_placed h1 (hmem d rfl) env c
    · exact h1

theorem getRdTxDesc_placed (now : Nat) (r : RdReq) : Placed none (getRdTxDesc now r s) := by
  unfold getRdTxDesc
  cases hf : s.free with
  | nil => exact h
  | cons d free =>
    have h1 := h.take_free hf
    split_ifs
    · exact txListInsert_placed h1
    refine txRingInsert_placed (Placed.stays (h1.newMsg ?_)
      ⟨rfl, rfl, rfl, rfl, rfl, rfl, rfl, fun _ => .refl _⟩)
    rfl

theorem rxDsend_placed (now : Nat) (r : DsendReq) : Placed none (rxDsend now r s) := by
  unfold rxDsend
  split
  · exact h
  cases hf : s.free with
  | nil => exact h
  | cons d free =>
    refine bufRtrListInsert_placed ((h.take_free hf).newMsg ?_) ?_
    · rfl
    · rw [newMsg, setDesc_self]
      rfl

end

/-- The events that leave every descriptor in its place: a deferred send is failed while it
stands at the tail of the ring, an error is not read from an empty queue, a read gets the copy
of its segment list, and a send that is on the deferral list is not deferred again. -/
def KeepsPlaces (s : TxEp n m) : TxEvent n → Prop
  | .send _ _ r =>
    s.free ≠ [] → r.api = .read → r.rxDesc = true → r.hasSeg = true → r.rxSeg = true
  | .rsp _ i (some r) =>
    ∀ t ∈ s.pds[i]?, s.rspActionFor t.desc r = .defer → (s.desc t.desc).inDsendList = false
  | .dsendAge now => s.deferList.takeWhile (dsendAged now s) <+: s.ring.entries
  | .cqReaderr => s.cq.cnt = 0 → s.cq.atTail.err = false
  | _ => True

instance (s : TxEp n m) (ev : TxEvent n) : Decidable (KeepsPlaces s ev) := by
  unfold KeepsPlaces
  split <;> infer_instance

theorem txStep_placed (hcq : n ≤ m) (h : Placed none s) (ev : TxEvent n) (hev : KeepsPlaces s ev) :
    Placed none (txStep s ev) := by
  cases ev with
  | send env c r => exact sendReqApi_placed h env c r hev
  | rdReq => exact getRdTxDesc_placed h ..
  | dsend => exact rxDsend_placed h ..
  | recv k => exact txRtrTry_placed h k
  | rtrReq => exact rxRtrReqPkt_placed h ..
  | rsp now i r =>
    rw [txStep]
    cases ht : s.pds[i]? with
    | none => exact h
    | some t =>
      refine pdsToSesRxRsp_placed (h.stays (untrack_stays i)) now fun r' hr' ha => ?_
      subst hr'
      exact hev t ht ha
  | pdsErr i =>
    rw [txStep]
    cases s.pds[i]? with
    | none => exact h
    | some t => exact (h.stays (untrack_stays i)).stays pdsToSesPdsErr_stays
  | letGo => exact h.stays (untrack_stays ..)
  | rdRspData => exact h.stays (rdRspData_stays ..)
  | rdTimeout d => exact h.stays rdTimeout_stays
  | msgTry env turns => exact txMsgTryLoop_placed hcq env turns n 0 none h
  | dsendAge now => exact dsendMsgAge_placed hcq h hev
  | rtrAge now =>
    exact rtrMsgAgeLoop_placed now _ (fun _ _ hd => .inr hd)
      (rtrMsgAgeLoop_placed now _ (fun _ _ hd => .inl hd) h)
  | flush max => exact epFlush_placed hcq max h
  | cqRead count => exact txCqRead_placed count h
  | cqReaderr =>
    rw [txStep, txCqReaderr]
    split_ifs with herr
    · refine txCqReadEntry_placed h (Nat.pos_of_ne_zero fun h0 => ?_)
      rw [hev h0] at herr
      cases herr
    · exact h

def TxEp.RunMeets (C : TxEp n m → TxEvent n → Prop) (s : TxEp n m) : List (TxEvent n) → Prop
  | [] => True
  | ev :: evs => C s ev ∧ (txStep s ev).RunMeets C evs

instance instDecidableRunMeets (C : TxEp n m → TxEvent n → Prop) [∀ s ev, Decidable (C s ev)] :
    (s : TxEp n m) → (evs : List (TxEvent n)) → Decidable (s.RunMeets C evs)
  | _, [] => .isTrue trivial
  | s, ev :: evs => @instDecidableAnd _ _ _ (instDecidableRunMeets C (txStep s ev) evs)

theorem txRun_keep {C : TxEp n m → TxEvent n → Prop}
    (hstep : ∀ s ev, P s → C s ev → P (txStep s ev)) {evs : List (TxEvent n)} (h : P s)
    (hrun : s.RunMeets C evs) : P (txRun s evs) := by
  induction evs generalizing s with
  | nil => exact h
  | cons ev evs ih => exact ih (hstep s ev h hrun.1) hrun.2

theorem init_placed [NeZero n] (maxRetx : Option Nat) (idleDsend idleRtr maxRtr : Nat) (av : Nat → TxAv) :
    Placed none (TxEp.init n m cfg maxRetx idleDsend idleRtr maxRtr av) := by
  refine ⟨fun d => ?_, ?_, ?_, ?_, ?_, nodup_nil, ?_⟩
  · have hfree : (finRange n).reverse.count d = 1 :=
      count_eq_one_of_mem (nodup_reverse.2 (nodup_finRange n)) (by simp)
    show (finRange n).reverse.count d + 0 + 0 + 0 + 0 = _
    rw [hfree]
    rfl
  · intro e he
    cases he
  · rintro d (hd | hd) <;> cases hd
  · intro d hd
    cases hd
  · intro d hd
    cases hd
  · intro p hp
    cases hp

/-- In every state a run reaches whose events keep the places, the ring has every descriptor
that is not on the free list, on a list of buffered restart requests or in the completion
queue, once, and no other; and every removal from the ring was of the descriptor it was meant
for. The completion queue has room for as many entries as there are descriptors. -/
theorem tx_ring_integrity (n cqSize : Nat) [NeZero n] (cfg : TxCfg) (maxRetx : Option Nat)
    (idleDsend idleRtr maxRtr : Nat) (av : Nat → TxAv) (evs : List (TxEvent n))
    (hrun : (TxEp.init n (max cqSize n) cfg maxRetx idleDsend idleRtr maxRtr av).RunMeets KeepsPlaces evs) :
    let s := txRun (TxEp.init n (max cqSize n) cfg maxRetx idleDsend idleRtr maxRtr av) evs
    (∀ d, s.ring.entries.count d =
      if d ∈ s.free ∨ d ∈ s.bufRtr ∨ d ∈ s.bufTagRtr ∨ d ∈ s.cqDescs then 0 else 1) ∧
      ∀ p ∈ s.removed, p.2 = p.1 := by
  intro s
  have h : Placed none s := txRun_keep (C := KeepsPlaces) (P := Placed none)
      (fun _ ev hs hev => txStep_placed (le_max_right _ _) hs ev hev)
      (init_placed cfg maxRetx idleDsend idleRtr maxRtr av) hrun
  refine ⟨fun d => ?_, fun p hp => (h.own p hp).symm⟩
  have hone := h.once d
  rw [if_neg (by simp), TxEp.places] at hone
  simp only [← count_pos_iff]
  split_ifs <;> omega

def fourByteSends : TxCfg := ⟨4, 1, 0, 0, true, 4, 4, 0⟩

def twoDescs : TxEp 2 2 := .init 2 2 fourByteSends none 10 10 4 fun _ => ⟨0, 0, 0, 0⟩

def stillEnv : TxEnv := ⟨0, fun _ => MrDesc.zero.region, fun _ => 0⟩

/-- A send of `len` bytes. -/
def aSend (len : Nat) : SendReq :=
  { api := .send, kind := .contig, buf := 100, len, dst := 0, jobId := 1, msgId := 0, tag := 0
    imm := none, remoteMemAddr := 0, remoteKey := 0, syncGrp := 0, context := 0, pdsMode := .rud
    rxDesc := true, rxSeg := true }

def deferring : SesRsp := ⟨true, .rsp, .ok, 0, 0, false⟩

/-- A send that is taken at once, and one behind it that is sent in its turn and deferred. -/
def deferredBehind : List (TxEvent 2) :=
  [.send stillEnv ⟨none, [⟨true, .ok⟩]⟩ (aSend 2), .send stillEnv ⟨none, []⟩ (aSend 4),
    .msgTry stillEnv fun _ => ⟨.ok, ⟨some 7, [⟨true, .ok⟩]⟩, 0⟩, .rsp 0 1 (some deferring)]

/-- The deferred send has descriptor 0 and times out while descriptor 1 is at the tail of the
ring: descriptor 1 leaves the ring and is nowhere, and descriptor 0 stays in the ring with its
completion posted. -/
theorem dsend_age_removes_other :
    let s := txRun twoDescs (deferredBehind ++ [.dsendAge 10])
    s.removed = [(0, 1)] ∧ s.ring.entries = [0] ∧ s.cqDescs = [0] ∧ s.places 1 = 0 := by
  decide +kernel

/-- A deferred send that is alone in the ring times out, and its completion is read. -/
def deferredAlone : List (TxEvent 2) :=
  [.send stillEnv ⟨some 7, [⟨true, .ok⟩]⟩ (aSend 4), .rsp 0 0 (some deferring), .dsendAge 10,
    .cqReaderr]

theorem tx_ring_integrity_alone :
    twoDescs.RunMeets KeepsPlaces deferredAlone ∧
      (∀ d, (txRun twoDescs deferredAlone).ring.entries.count d =
        if d ∈ (txRun twoDescs deferredAlone).free ∨ d ∈ (txRun twoDescs deferredAlone).bufRtr ∨
          d ∈ (txRun twoDescs deferredAlone).bufTagRtr ∨ d ∈ (txRun twoDescs deferredAlone).cqDescs
        then 0 else 1) ∧ ∀ p ∈ (txRun twoDescs deferredAlone).removed, p.2 = p.1 := by
  have hrun : twoDescs.RunMeets KeepsPlaces deferredAlone := by decide +kernel
  exact ⟨hrun, tx_ring_integrity 2 2 fourByteSends none 10 10 4 _ deferredAlone hrun⟩

end Uet.Ses
