import Uet.Pds.TxFailure
import Uet.Assoc

/-!
# The message map

`uet_pds_tx_pkt`, the end of a message, `uet_pds_msg_cmpl_ind`, the closes and the release of a PDC each write a part of
what says which message is on which PDC. Whatever they have done, a message is mapped to a PDC only while the PDC has it as its
active one. A target PDC has none, so the packets that a target sends are messages of their own.
-/

namespace Uet.Pds

open List

section

variable {env : Env} {p : Pdc} {r : TxReq}

theorem txPkt_ok (hok : (txPkt env p r).2.2 = .ok) :
    txLookup p r = .ok ∧ (r.som = false → p.msg = some r.msgId) ∧ txPkt env p r = txSend env p r := by
  unfold txPkt at hok ⊢
  cases hl : txLookup p r with
  | again | err =>
    rw [hl] at hok
    cases hok
  | ok =>
    rw [hl] at hok
    split_ifs at hok ⊢ with h1 h2 h3 h4 h5
    refine ⟨rfl, fun hsom => ?_, rfl⟩
    simp only [hsom, Bool.not_false, Bool.true_and, Bool.or_eq_true, Bool.not_eq_true', bne_iff_ne, ne_eq, not_or,
      Bool.not_eq_false, not_not] at h4
    rw [Pdc.msg, if_pos h4.1, h4.2]

/-- The message of a PDC after a packet that was sent on it. -/
theorem txPkt_active (hc : p.calm) (hok : (txPkt env p r).2.2 = .ok) : (txPkt env p r).1.msg =
    if !r.pdsInfo && r.eom && !r.maintainPdc then none else if !r.pdsInfo && r.som then some r.msgId else p.msg := by
  obtain ⟨hl, -, heq⟩ := txPkt_ok hok
  have hmap : (mapMsg (sentReq env p r) r).msg = if !r.pdsInfo && r.som then some r.msgId else p.msg := by
    unfold mapMsg
    split <;> rfl
  have hend := txEndOfMsg_msg env (mapMsg (sentReq env p r) r) r
  have hcalm := txEndOfMsg_calm env r (mapMsg_calm (p := sentReq env p r) r hc hl)
  have hclose := (worked_admits env).txClose (txEndOfMsg env (mapMsg (sentReq env p r) r) r)
  rw [← hmap, ← hend]
  rw [heq] at hok ⊢
  unfold txSend at hok ⊢
  dsimp only at hok ⊢
  split_ifs at hok ⊢ with h1 h2
  cases hm : (txEndOfMsg env (mapMsg (sentReq env p r) r) r).msg with
  | none => exact hclose.msg.none hm
  | some m => exact hclose.msg_eq hcalm hm

theorem msg_none_of_target (hc : p.calm) (h : p.isInitiator = false) : p.msg = none := by
  refine if_neg fun hv => ?_
  exact absurd (h.symm.trans (hc.carries hv).1) (by decide)

theorem txLookup_msg (hc : p.calm) (hl : txLookup p r = .ok) (h : r.pdsInfo = true ∨ r.som = true) : p.msg = none := by
  cases hinfo : r.pdsInfo with
  | true =>
    apply msg_none_of_target hc
    rw [txLookup, if_pos hinfo] at hl
    split at hl
    · cases hl
    · simp_all
  | false =>
    have hsom := h.resolve_left (by rw [hinfo]; decide)
    exact if_neg (by rw [(txLookup_som hl hinfo hsom).2.2.2]; decide)

end

/-- Each entry of the map is for the active message of its PDC. -/
structure Held (s : Pdsm) : Prop where
  pool : Pool s
  once : (s.msgidHt.map (·.2)).Nodup
  msg : ∀ m i, (m, i) ∈ s.msgidHt → (s.pdc i).msg = some m

namespace Held

variable {s : Pdsm} {i : PdcId}

section

variable (h : Held s)
include h

theorem not_mem (hi : (s.pdc i).msg = none) (m : MsgId) : (m, i) ∉ s.msgidHt :=
  fun hm => by cases hi.symm.trans (h.msg m i hm)

theorem not_mem_free (hi : i ∈ s.free) : ∀ m, (m, i) ∉ s.msgidHt := by
  apply h.not_mem
  refine if_neg fun hv => ?_
  exact ((h.pool.each i).2.carries hv).2 (h.pool.idle i hi)

/-- A PDC changes, and the map only where it is about that PDC. -/
theorem update {s' : Pdsm} (hpool : Pool s') {p : Pdc} (hpdc : s'.pdc = Function.update s.pdc i p)
    (hsub : s'.msgidHt.Sublist s.msgidHt) (hp : ∀ m, (m, i) ∈ s'.msgidHt → p.msg = some m) : Held s' := by
  refine ⟨hpool, (hsub.map _).nodup h.once, fun m j hm => ?_⟩
  rw [hpdc]
  by_cases hj : j = i
  · subst hj
    rw [Function.update_self]
    exact hp m hm
  · rw [Function.update_of_ne hj]
    exact h.msg m j (hsub.subset hm)

theorem put {p : Pdc} (hpool : Pool (s.put i p)) (hp : ∀ m, (s.pdc i).msg = some m → p.msg = some m) :
    Held (s.put i p) := by
  have hht := Mapped.msgidHt_put i p s
  refine h.update hpool (Mapped.pdc_put i p s) (hht ▸ .refl _) fun m hm => hp m (h.msg m i (hht ▸ hm))

theorem alloc {s' : Pdsm} (hpool : Pool s') (hi : i ∈ s.free) {p : Pdc}
    (hpdc : s'.pdc = Function.update s.pdc i p) (hht : s'.msgidHt = s.msgidHt) : Held s' :=
  h.update hpool hpdc (hht ▸ .refl _) fun m hm => absurd (hht ▸ hm) (h.not_mem_free hi m)

theorem resolve (q : TxArgs) : Held (s.resolve q).1 ∧ (s.resolve q).1.msgidHt = s.msgidHt := by
  have hpool := h.pool.resolve q
  rcases h.pool.resolve_cases q with heq | ⟨i, free, hf, heq⟩
  · rw [heq]
    exact ⟨h, rfl⟩
  · rw [heq] at hpool ⊢
    exact ⟨h.alloc hpool (hf ▸ mem_cons_self) rfl rfl, rfl⟩

theorem unmap {m : MsgId} (hl : s.getMsgidPdc m = some i) (m' : MsgId) :
    (m', i) ∉ (s.unmapMsgid m).msgidHt := by
  obtain ⟨l₁, l₂, heq, hne⟩ := lookup_eq_some_iff.mp hl
  have hnd := h.once
  have herase : (s.unmapMsgid m).msgidHt = l₁ ++ l₂ := by
    unfold Pdsm.unmapMsgid
    rw [heq, eraseP_append_right _ fun e he hk => ?_, eraseP_cons_of_pos (by simp)]
    have hk' := hne e he
    rw [beq_iff_eq.mp hk] at hk'
    simp at hk'
  rw [heq, map_append, map_cons, nodup_middle, nodup_cons, ← map_append] at hnd
  rw [herase]
  exact fun hm => hnd.1 (mem_map.mpr ⟨_, hm, rfl⟩)

/-- A packet was sent on the PDC that `resolve` found. -/
theorem sent {q : TxArgs} {p : Pdc} (hpool : Pool ((s.put i p).noteMsg q.req i))
    (hp : p.msg = if !q.req.pdsInfo && q.req.eom && !q.req.maintainPdc then none
      else if !q.req.pdsInfo && q.req.som then some q.req.msgId else (s.pdc i).msg)
    (hlook : q.req.pdsInfo = false → q.req.som = false → s.getMsgidPdc q.req.msgId = some i)
    (hnone : q.req.som = true → (s.pdc i).msg = none) : Held ((s.put i p).noteMsg q.req i) := by
  have hht := Mapped.msgidHt_put i p s
  have hpdc := Mapped.pdc_put i p s
  unfold Pdsm.noteMsg at hpool ⊢
  cases hinfo : q.req.pdsInfo with
  | true =>
    simp only [hinfo, if_true, Bool.not_true, Bool.false_and, Bool.false_eq_true, if_false] at hpool hp ⊢
    exact h.put hpool fun m hm => hp.trans hm
  | false =>
    simp only [hinfo, Bool.false_eq_true, if_false, Bool.not_false, Bool.true_and] at hpool hp ⊢
    cases hsom : q.req.som <;> cases hend : (q.req.eom && !q.req.maintainPdc) <;>
      simp only [hsom, hend, Bool.false_eq_true, if_false, if_true] at hpool hp ⊢
    · exact h.put hpool fun m hm => hp.trans hm
    · -- the end of the message that is mapped to the PDC
      have herase : ((s.put i p).unmapMsgid q.req.msgId).msgidHt = (s.unmapMsgid q.req.msgId).msgidHt := by
        rw [Pdsm.unmapMsgid, hht, Pdsm.unmapMsgid]
      refine h.update hpool hpdc (herase ▸ eraseP_sublist) fun m hm => ?_
      rw [herase] at hm
      exact absurd hm (h.unmap (hlook hinfo hsom) m)
    · have hno := h.not_mem (hnone hsom)
      refine ⟨hpool, ?_, fun m j hm => ?_⟩
      · show (((q.req.msgId, i) :: (s.put i p).msgidHt).map (·.2)).Nodup
        rw [hht, map_cons, nodup_cons]
        refine ⟨fun hi => ?_, h.once⟩
        obtain ⟨⟨m, j⟩, hm, rfl⟩ := mem_map.mp hi
        exact hno m hm
      · change (m, j) ∈ (q.req.msgId, i) :: (s.put i p).msgidHt at hm
        show ((s.put i p).pdc j).msg = some m
        rw [hht, mem_cons] at hm
        rw [hpdc]
        rcases hm with hm | hm
        · cases hm
          rw [Function.update_self]
          exact hp
        have hj : j ≠ i := fun hj => hno m (hj ▸ hm)
        rw [Function.update_of_ne hj]
        exact h.msg m j hm
    · have herase : (((s.put i p).mapMsgid q.req.msgId i).unmapMsgid q.req.msgId).msgidHt = s.msgidHt := by
        rw [Pdsm.unmapMsgid, Pdsm.mapMsgid]
        rw [eraseP_cons_of_pos (by simp), hht]
      refine h.update hpool hpdc (herase ▸ .refl _) fun m hm => ?_
      exact absurd (herase ▸ hm) (h.not_mem (hnone hsom) m)

theorem txPkt (env : Env) (q : TxArgs) : Held (s.txPkt env q).1 := by
  obtain ⟨hres, hht⟩ := h.resolve q
  have hpool := h.pool.txPkt env q
  have hlook := @Pdsm.resolve_lookup s q
  unfold Pdsm.txPkt at hpool ⊢
  split
  · exact h
  rename_i hnext
  rw [if_neg hnext] at hpool
  generalize s.resolve q = x at hres hlook hpool ⊢
  obtain ⟨s1, o⟩ := x
  cases o with
  | none => exact hres
  | some i =>
    have hc := (hres.pool.each i).2
    have hactive := @txPkt_active env _ q.req hc
    have hok := @txPkt_ok env (s1.pdc i) q.req
    have hfail := txPkt_fail env q.req hc
    dsimp only at hres hactive hok hfail hpool ⊢
    generalize Pds.txPkt env (s1.pdc i) q.req = y at hactive hok hfail hpool ⊢
    obtain ⟨p, outs, rc⟩ := y
    cases rc with
    | ok =>
      exact hres.sent hpool (hactive rfl) (fun h1 h2 => hlook h1 h2 i rfl)
        fun hsom => txLookup_msg hc (hok rfl).1 (.inr hsom)
    | again | err =>
      obtain rfl : p = s1.pdc i := hfail nofun
      exact hres.put hpool fun m hm => hm

theorem call (c : PdsCall) : Held (s.call c).1 := by
  have hpool := h.pool.call c
  cases c with
  | txPkt => exact h.txPkt ..
  | msgCmplInd env m =>
    simp only [Pdsm.call, Pdsm.msgCmplInd] at hpool ⊢
    cases hl : s.getMsgidPdc m with
    | none => exact h
    | some i =>
      rw [hl] at hpool
      have hht := Mapped.msgidHt_put i (Pds.msgCmplInd env (s.pdc i)).1 s
      have herase : ((s.put i (Pds.msgCmplInd env (s.pdc i)).1).unmapMsgid m).msgidHt = (s.unmapMsgid m).msgidHt := by
        rw [Pdsm.unmapMsgid, hht, Pdsm.unmapMsgid]
      refine h.update hpool (Mapped.pdc_put i _ s) (herase ▸ eraseP_sublist) fun m' hm => ?_
      exact absurd (herase ▸ hm) (h.unmap hl m')
  | dropTxPkts hd =>
    refine ⟨hpool, h.once, fun m i hm => ?_⟩
    have hmsg := h.msg m i hm
    simp only [Pdsm.call, Pdsm.dropTxPkts]
    split <;> exact hmsg
  | assignTgt sec syn base pending =>
    simp only [Pdsm.call, Pdsm.assignTgt] at hpool ⊢
    cases hf : s.free with
    | nil => exact h
    | cons i free =>
      rw [hf] at hpool
      exact h.alloc hpool (hf ▸ mem_cons_self) rfl rfl
  | work env _ w => exact h.put hpool fun m hm => (work_worked env (s.pdc ..) w).msg_eq (h.pool.each ..).2 hm

theorem history (cs : List PdsCall) : Held (s.history cs).1 := by
  induction cs generalizing s with
  | nil => exact h
  | cons c cs ih => exact ih (h.call c)

end

theorem init : Held Pdsm.init := ⟨Pool.init, nodup_nil, nofun⟩

end Held

/-- Whatever has been called: an allocated PDC has the message that is mapped to it as its active one, no PDC has two, none is
left when the PDC has been released, and what goes out on a PDC is the start of a message where none is
mapped to it, or a packet of the one that is. -/
theorem message_map_consistent (cs : List PdsCall) :
    let s := (Pdsm.init.history cs).1
    (∀ m i, (m, i) ∈ s.msgidHt →
      (s.pdc i).state ≠ .unalloc ∧ (s.pdc i).activeMsgIdValid = true ∧ (s.pdc i).activeMsgId = m) ∧
    (s.msgidHt.map (·.2)).Nodup ∧ (∀ i, (s.pdc i).state = .unalloc → ∀ m, (m, i) ∉ s.msgidHt) ∧
    ∀ env q i, (s.resolve q).2 = some i → (s.txPkt env q).2 = .ok →
      if q.req.som then ∀ m, (m, i) ∉ s.msgidHt else (q.req.msgId, i) ∈ s.msgidHt := by
  intro s
  have h : Held s := Held.init.history cs
  have hmapped : ∀ m i, (m, i) ∈ s.msgidHt →
      (s.pdc i).state ≠ .unalloc ∧ (s.pdc i).activeMsgIdValid = true ∧ (s.pdc i).activeMsgId = m := by
    intro m i hm
    have hmsg := h.msg m i hm
    unfold Pdc.msg at hmsg
    split at hmsg
    · rename_i hv
      exact ⟨((h.pool.each i).2.carries hv).2, hv, Option.some.inj hmsg⟩
    · cases hmsg
  refine ⟨hmapped, h.once, fun i hi m hm => (hmapped m i hm).1 hi, fun env q i hi hrc => ?_⟩
  obtain ⟨hres, hht⟩ := h.resolve q
  have hlook : q.req.pdsInfo = false → q.req.som = false → s.getMsgidPdc q.req.msgId = some i := by
    intro hinfo hsom
    simpa [Pdsm.resolve, hinfo, hsom] using hi
  have hok : (txPkt env ((s.resolve q).1.pdc i) q.req).2.2 = .ok := by
    unfold Pdsm.txPkt at hrc
    split at hrc
    · cases hrc
    generalize s.resolve q = x at hi hrc ⊢
    obtain ⟨s1, o⟩ := x
    cases hi
    dsimp only at hrc ⊢
    generalize txPkt env (s1.pdc i) q.req = y at hrc ⊢
    obtain ⟨p, outs, rc⟩ := y
    cases rc with
    | ok => rfl
    | again | err => cases hrc
  obtain ⟨hl, hmid, -⟩ := txPkt_ok hok
  have hc := (hres.pool.each i).2
  split
  · rename_i hsom
    rw [← hht]
    exact hres.not_mem (txLookup_msg hc hl (.inr hsom))
  rename_i hsom
  rw [Bool.not_eq_true] at hsom
  cases hinfo : q.req.pdsInfo with
  | false => exact Assoc.mem_of_lookup (hlook hinfo hsom)
  | true => cases (hmid hsom).symm.trans (txLookup_msg hc hl (.inl hinfo))

end Uet.Pds
