import Uet.Dev.Datapath
import Uet.Guarded

/-!
# Completions and the queue they are meant for

A record holds the handle of a completion queue, and a handle can be given to another queue
later. What keeps a completion from that other queue is the count of queue pairs that a
completion queue has: it cannot be destroyed while the count is not zero. `uet_dev_qp_destroy` counts a
queue pair out at once, also where the library keeps the endpoint and the queue pair stays to
be drained. So the count is right as long as the library closes endpoints at once (`ClosesAtOnce`).
-/

namespace Uet.Dev

open HandleTable Guarded Function

/-! ## One queue pair -/

def WorkOk (qp : Qp) : Prop := ∀ ctx, (qp.work ctx).busy = true → (qp.work ctx).cq = qp.cqOf ctx.send

def Qp.queues (qp : Qp) : Nat × Nat × Nat × Nat × Bool :=
  (qp.sendCq, qp.recvCq, qp.sendSerial, qp.recvSerial, qp.closing)

def PostOk (qp : Qp) : Option PostReq → Prop
  | none => True
  | some p => ∃ send, p.cq = qp.cqOf send ∧ p.meant = qp.serialOf send

structure QpKeeps (qp : Qp) (r : Qp × Option PostReq) : Prop where
  queues : r.1.queues = qp.queues
  work : WorkOk r.1
  post : PostOk qp r.2

variable {r : Qp × Option PostReq}

section

variable {qp : Qp}

theorem cqOf_eq {qp' : Qp} (h : qp'.queues = qp.queues) (send : Bool) : qp'.cqOf send = qp.cqOf send := by
  simp only [Qp.queues, Prod.mk.injEq] at h
  cases send
  · exact h.2.1
  · exact h.1

theorem serialOf_eq {qp' : Qp} (h : qp'.queues = qp.queues) (send : Bool) :
    qp'.serialOf send = qp.serialOf send := by
  simp only [Qp.queues, Prod.mk.injEq] at h
  cases send
  · exact h.2.2.2.1
  · exact h.2.2.1

theorem setWork_queues (ctx : Ctx) (w : Work) : (qp.setWork ctx w).queues = qp.queues := by
  unfold Qp.setWork
  split <;> rfl

theorem work_setWork (ctx ctx' : Ctx) (w : Work) :
    (qp.setWork ctx w).work ctx' = if ctx' = ctx then w else qp.work ctx' := by
  obtain ⟨send, slot⟩ := ctx
  obtain ⟨send', slot'⟩ := ctx'
  unfold Qp.setWork Qp.work
  by_cases hs : slot' = slot
  · subst hs
    cases send <;> cases send' <;> simp
  · cases send <;> cases send' <;> simp [hs]

variable {ctx : Ctx} {w : Work}

theorem WorkOk.setWork (h : WorkOk qp) (hw : w.busy = true → w.cq = qp.cqOf ctx.send) : WorkOk (qp.setWork ctx w) := by
  intro ctx' hbusy
  rw [cqOf_eq (setWork_queues ctx w)]
  rw [work_setWork] at hbusy ⊢
  split at hbusy
  · rename_i heq
    rw [if_pos heq, heq]
    exact hw hbusy
  rename_i hne
  rw [if_neg hne]
  exact h ctx' hbusy

theorem keeps_refl (h : WorkOk qp) : QpKeeps qp (qp, none) := ⟨rfl, h, trivial⟩

theorem QpKeeps.rqAdvance (h : QpKeeps qp r) : QpKeeps qp (r.1.rqAdvance, r.2) :=
  ⟨h.queues, h.work, h.post⟩

theorem QpKeeps.sqAdvance (h : QpKeeps qp r) : QpKeeps qp (r.1.sqAdvance, r.2) :=
  ⟨h.queues, h.work, h.post⟩

theorem keeps_idle (h : WorkOk qp) {p : Option PostReq} (hbusy : w.busy = false) (hp : PostOk qp p) :
    QpKeeps qp (qp.setWork ctx w, p) := by
  refine ⟨setWork_queues ctx w, h.setWork fun hb => ?_, hp⟩
  rw [hbusy] at hb
  cases hb

theorem keeps_busy (h : WorkOk qp) (hcq : w.cq = qp.cqOf ctx.send) : QpKeeps qp (qp.setWork ctx w, none) :=
  ⟨setWork_queues ctx w, h.setWork fun _ => hcq, trivial⟩

theorem errorPost_ok {send : Bool} (hcq : w.cq = qp.cqOf send) (st : WcStatus) :
    PostOk qp (some (errorPost qp send w st)) :=
  ⟨send, hcq, rfl⟩

section

variable (h : WorkOk qp)
include h

theorem rqStep_keeps {dev : Device} {wqe : Option Wqe} {t : Turn} (ht : RqStep dev qp wqe t) :
    QpKeeps qp (t.qp, t.post) := by
  cases ht with
  | rest => exact keeps_refl h
  | pass => exact (keeps_refl h).rqAdvance
  | refuse => exact (keeps_idle h rfl (errorPost_ok rfl _)).rqAdvance
  | hand => exact (keeps_busy h rfl).rqAdvance
  | wait =>
    dsimp only
    exact keeps_idle h rfl trivial
  | fail => exact (keeps_idle h rfl (errorPost_ok rfl _)).rqAdvance

theorem sqFail_keeps (hbusy : w.busy = false) (hcq : w.cq = qp.sendCq) (st : WcStatus)
    (call : Option LibCall) : QpKeeps qp ((sqFail qp ctx w st call).qp, (sqFail qp ctx w st call).post) := by
  unfold sqFail
  refine (keeps_idle h hbusy ?_).sqAdvance
  split
  · exact errorPost_ok hcq st
  · trivial

theorem sqStep_keeps {dev : Device} {wqe : Option Wqe} {t : Turn} (ht : SqStep dev qp wqe t) :
    QpKeeps qp (t.qp, t.post) := by
  cases ht with
  | rest => exact keeps_refl h
  | unread => exact sqFail_keeps h rfl rfl _ _
  | refuse => exact sqFail_keeps h rfl rfl _ _
  | hand => exact (keeps_busy h rfl).sqAdvance
  | wait =>
    dsimp only
    exact keeps_idle h rfl trivial
  | fail => exact sqFail_keeps h rfl rfl _ _

theorem drainEntry_keeps (dev : Device) (rx : Bool) (e : LibEntry) : QpKeeps qp (drainEntry dev rx qp e) := by
  unfold drainEntry
  split
  · split
    · exact ⟨rfl, h, false, rfl, rfl⟩
    · exact keeps_refl h
  rename_i ctx _
  dsimp only
  split
  · exact keeps_refl h
  rename_i hbusy
  rw [Bool.not_eq_true, Bool.not_eq_false'] at hbusy
  refine keeps_idle h rfl ?_
  split
  · exact ⟨ctx.send, h ctx hbusy, rfl⟩
  · trivial

theorem drainErr_keeps (e : LibErr) : QpKeeps qp (drainErr qp e) := by
  unfold drainErr
  split
  · exact keeps_refl h
  rename_i ctx _
  dsimp only
  split
  · exact keeps_refl h
  rename_i hbusy
  rw [Bool.not_eq_true, Bool.not_eq_false'] at hbusy
  exact keeps_idle h rfl (errorPost_ok (h ctx hbusy) _)

end

end

/-! ## The loops -/

theorem insertAv_keeps (dev : Device) (qp : Qp) (wqe : Wqe) : (insertAv dev qp wqe).cqs = dev.cqs ∧
    (insertAv dev qp wqe).qps = dev.qps ∧ (insertAv dev qp wqe).posted = dev.posted := by
  unfold insertAv
  split
  · exact ⟨rfl, rfl, rfl⟩
  split
  · exact ⟨rfl, rfl, rfl⟩
  · split <;> exact ⟨rfl, rfl, rfl⟩

theorem withAv_keeps (dev : Device) (qp : Qp) (wqe : Option Wqe) (call : Option LibCall) :
    (withAv dev qp wqe call).cqs = dev.cqs ∧ (withAv dev qp wqe call).qps = dev.qps ∧
      (withAv dev qp wqe call).posted = dev.posted := by
  unfold withAv
  split
  · exact insertAv_keeps dev qp _
  · exact ⟨rfl, rfl, rfl⟩

/-- What holds across a step of a queue pair and across the insertion of an address holds across
the loops of the device. -/
structure Carried (R : Device → Device → Prop) : Prop where
  refl : ∀ dev, R dev dev
  trans : ∀ {a b c}, R a b → R b c → R a c
  apply : ∀ {dev i} {qp : Qp} {r : Qp × Option PostReq}, dev.qps i = some qp → (WorkOk qp → QpKeeps qp r) →
    ∀ writes, R dev (applyAt dev i writes r)
  av : ∀ dev qp wqe call, R dev (withAv dev qp wqe call)

namespace Carried

variable {R : Device → Device → Prop} (hR : Carried R) {dev : Device} (i : Nat)

include hR

theorem cqDrain (dev : Device) (rx : Bool) (d : Drained) : R dev (cqDrain dev i rx d) := by
  cases d with
  | entries es =>
    refine foldl_rel hR.refl hR.trans (fun dev e => ?_) _ dev
    unfold drainStep
    split
    · exact hR.refl dev
    · rename_i qp hget
      exact hR.apply hget (fun h => drainEntry_keeps h dev rx e.1) e.2
  | errors es =>
    refine foldl_rel hR.refl hR.trans (fun dev e => ?_) _ dev
    unfold drainErrStep
    split
    · exact hR.refl dev
    · rename_i qp hget
      exact hR.apply hget (fun h => drainErr_keeps h e.1) e.2

theorem drainBoth (dev : Device) (d : Drained × Drained) : R dev (drainBoth dev i d) :=
  hR.trans (hR.cqDrain i dev false d.1) (hR.cqDrain i _ true d.2)

theorem rqRun (inputs : List TurnInput) (dev : Device) : R dev (rqRun i inputs dev) := by
  induction inputs generalizing dev with
  | nil => exact hR.refl dev
  | cons inp rest ih =>
    unfold Dev.rqRun
    split
    · exact hR.refl dev
    rename_i qp hget
    have hturn := hR.apply hget (fun h => rqStep_keeps h (rqTurn_step dev qp inp.wqe inp.rc)) inp.writes
    dsimp only
    split
    · exact hR.trans hturn (ih _)
    · exact hturn

theorem sqRun (inputs : List TurnInput) (dev : Device) : R dev (sqRun i inputs dev) := by
  induction inputs generalizing dev with
  | nil => exact hR.refl dev
  | cons inp rest ih =>
    unfold Dev.sqRun
    split
    · exact hR.refl dev
    rename_i qp hget
    dsimp only
    have hqps := (withAv_keeps dev qp inp.wqe (sqTurn dev qp inp.wqe inp.inserted inp.rc).call).2.1
    have hturn := hR.trans (hR.av dev qp inp.wqe (sqTurn dev qp inp.wqe inp.inserted inp.rc).call)
      (hR.apply ((congrFun hqps i).trans hget)
        (fun h => sqStep_keeps h (sqTurn_step dev qp inp.wqe inp.inserted inp.rc)) inp.writes)
    split
    · exact hR.trans hturn (ih _)
    · exact hturn

theorem pollRecv (dev : Device) (inputs : List TurnInput) : R dev (pollRecv dev i inputs) := by
  unfold Dev.pollRecv
  split
  · exact hR.refl dev
  split
  · exact hR.rqRun i inputs dev
  · exact hR.refl dev

theorem pollSend (dev : Device) (inputs : List TurnInput) (d : Drained × Drained) (send : Bool) :
    R dev (Dev.drainBoth (if send then Dev.sqRun i inputs dev else dev) i d) := by
  refine hR.trans ?_ (hR.drainBoth i _ d)
  split
  · exact hR.sqRun i inputs dev
  · exact hR.refl dev

variable {i} in
theorem setQp {qp qp' : Qp} (hget : dev.qps i = some qp) (hq : qp'.queues = qp.queues)
    (hw : qp'.work = qp.work) : R dev { dev with qps := update dev.qps i (some qp') } :=
  hR.apply hget (r := (qp', none)) (fun h => ⟨hq, fun ctx hb => by
    rw [hw] at hb ⊢
    rw [cqOf_eq hq]
    exact h ctx hb, trivial⟩) true

theorem mapQp (dev : Device) {f : Qp → Qp} (hq : ∀ qp, (f qp).queues = qp.queues)
    (hw : ∀ qp, (f qp).work = qp.work) :
    R dev { dev with qps := update dev.qps i ((dev.qps i).map f) } := by
  cases hget : dev.qps i with
  | none =>
    have hsame : update dev.qps i none = dev.qps := by rw [← hget, update_eq_self]
    rw [Option.map_none, hsame]
    exact hR.refl dev
  | some => exact hR.setQp hget (hq ..) (hw ..)

theorem ringDoorbell (dev : Device) (page handle : Nat) (send : Bool) (prod : BitVec 32) :
    R dev (ringDoorbell dev page handle send prod) := by
  unfold Dev.ringDoorbell
  split
  · exact hR.refl dev
  rename_i qp hget
  split
  · exact hR.refl dev
  · have hslot := (get_some hget).2.2
    cases send <;> exact hR.setQp hslot rfl rfl

theorem qpModify (dev : Device) (handle : Nat) (next : Option QpState) (pathMtu : Nat)
    (inp : ModifyInput) : R dev (qpModify dev handle next pathMtu inp).1 := by
  have henter : ∀ (dev : Device) (st : QpState) (mtu : Nat), R dev { dev with
      qps := update dev.qps (handle - 1) ((dev.qps (handle - 1)).map fun qp =>
        { qp with state := st, pathMtu := mtu }) } :=
    fun dev st mtu => hR.mapQp (handle - 1) dev (fun _ => rfl) fun _ => rfl
  unfold Dev.qpModify
  split
  · exact hR.refl dev
  dsimp only
  split
  · exact hR.refl dev
  split
  · exact hR.refl dev
  · split
    · split
      · exact hR.refl dev
      · exact henter dev _ _
    · exact hR.refl dev
    · split
      · exact hR.refl dev
      · split <;> exact henter dev _ _
  · split
    · exact henter dev _ _
    · exact hR.trans (foldl_rel hR.refl hR.trans (fun dev d => hR.drainBoth (handle - 1) dev d) inp.batches dev)
        (henter _ _ _)
  · split
    · exact henter dev _ _
    · exact hR.refl dev
    · split
      · exact hR.refl dev
      · exact henter dev _ _

end Carried

/-! ## The tables -/

def Cq.refs (cq : Cq) : Nat × Nat := (cq.serial, cq.boundQps)

def refersTo (handle : Nat) (qp : Qp) : Bool := qp.sendCq == handle || qp.recvCq == handle

/-- The queues of every queue pair are those it was created with, and what has been written was
written to the queue it was meant for. -/
structure Wired (dev : Device) : Prop where
  slot : ∀ i qp, dev.qps i = some qp → i < maxQps
  cq : ∀ i qp, dev.qps i = some qp → ∀ send, ∃ c, cqGet dev (qp.cqOf send) = some c ∧
    c.serial = qp.serialOf send
  work : ∀ i qp, dev.qps i = some qp → WorkOk qp
  posted : ∀ p ∈ dev.posted, p.target = p.meant

structure Counted (dev : Device) : Prop where
  bound : ∀ h c, cqGet dev h = some c → c.boundQps = count maxQps dev.qps (refersTo h)
  live : ∀ i qp, dev.qps i = some qp → qp.closing = false

structure SameRefs (dev dev' : Device) : Prop where
  cqs : ∀ h, (cqGet dev' h).map Cq.refs = (cqGet dev h).map Cq.refs
  qps : ∀ i, (dev'.qps i).map Qp.queues = (dev.qps i).map Qp.queues

def Moves (dev dev' : Device) : Prop := Wired dev → SameRefs dev dev' ∧ Wired dev'

section

variable {dev dev' dev'' : Device}

theorem SameRefs.trans (h : SameRefs dev dev') (h' : SameRefs dev' dev'') : SameRefs dev dev'' :=
  ⟨fun k => (h'.cqs k).trans (h.cqs k), fun i => (h'.qps i).trans (h.qps i)⟩

theorem Moves.refl (dev : Device) : Moves dev dev := fun h => ⟨⟨fun _ => rfl, fun _ => rfl⟩, h⟩

theorem Moves.trans (h : Moves dev dev') (h' : Moves dev' dev'') : Moves dev dev'' := by
  intro hw
  obtain ⟨hs, hw'⟩ := h hw
  obtain ⟨hs', hw''⟩ := h' hw'
  exact ⟨hs.trans hs', hw''⟩

theorem moves_of_eq (hc : dev'.cqs = dev.cqs) (hq : dev'.qps = dev.qps) (hp : dev'.posted = dev.posted) :
    Moves dev dev' := by
  intro h
  refine ⟨⟨fun k => by rw [cqGet, hc, cqGet], fun i => by rw [hq]⟩, ?_⟩
  constructor
  case slot =>
    rw [hq]
    exact h.slot
  case cq =>
    intro i qp hget send
    rw [hq] at hget
    rw [cqGet, hc]
    exact h.cq i qp hget send
  case work =>
    rw [hq]
    exact h.work
  case posted =>
    rw [hp]
    exact h.posted

theorem SameRefs.qp (h : SameRefs dev dev') {i : Nat} {qp' : Qp} (hget : dev'.qps i = some qp') :
    ∃ qp, dev.qps i = some qp ∧ qp'.queues = qp.queues := by
  have hq := h.qps i
  rw [hget] at hq
  cases hold : dev.qps i with
  | none =>
    rw [hold] at hq
    cases hq
  | some qp =>
    rw [hold] at hq
    exact ⟨qp, rfl, Option.some.inj hq⟩

variable {c : Cq} {h : Nat} {cqs : Table Cq} (i : Nat)

theorem SameRefs.cq_some (h : SameRefs dev dev') {k : Nat} (hget : cqGet dev k = some c) :
    ∃ c', cqGet dev' k = some c' ∧ c'.refs = c.refs := by
  have hc := h.cqs k
  rw [hget] at hc
  cases hnew : cqGet dev' k with
  | none =>
    rw [hnew] at hc
    cases hc
  | some c' =>
    rw [hnew] at hc
    exact ⟨c', rfl, Option.some.inj hc⟩

theorem SameRefs.symm (h : SameRefs dev dev') : SameRefs dev' dev :=
  ⟨fun k => (h.cqs k).symm, fun i => (h.qps i).symm⟩

theorem Wired.of_same (h : Wired dev) (hs : SameRefs dev dev')
    (hwork : ∀ i qp, dev'.qps i = some qp → WorkOk qp) (hposted : ∀ p ∈ dev'.posted, p.target = p.meant) :
    Wired dev' := by
  constructor
  case slot =>
    intro i qp' hget
    obtain ⟨qp, hold, -⟩ := hs.qp hget
    exact h.slot i qp hold
  case cq =>
    intro i qp' hget send
    obtain ⟨qp, hold, hq⟩ := hs.qp hget
    obtain ⟨c, hc, hserial⟩ := h.cq i qp hold send
    obtain ⟨c', hc', hrefs⟩ := hs.cq_some hc
    rw [cqOf_eq hq, serialOf_eq hq]
    exact ⟨c', hc', (congrArg Prod.fst hrefs).trans hserial⟩
  case work => exact hwork
  case posted => exact hposted

theorem count_same (hs : SameRefs dev dev') (k : Nat) :
    count maxQps dev'.qps (refersTo k) = count maxQps dev.qps (refersTo k) := by
  have hany : ∀ o : Option Qp, o.any (refersTo k) =
      (o.map Qp.queues).any fun q => q.1 == k || q.2.1 == k := by
    intro o
    cases o <;> rfl
  refine List.countP_congr fun i _ => ?_
  rw [hany, hany, hs.qps i]

theorem Counted.of_same (h : Counted dev) (hs : SameRefs dev dev') : Counted dev' := by
  constructor
  case bound =>
    intro k c' hc'
    obtain ⟨c, hc, hrefs⟩ := hs.symm.cq_some hc'
    rw [count_same hs, ← h.bound k c hc]
    exact (congrArg Prod.snd hrefs).symm
  case live =>
    intro i qp' hget
    obtain ⟨qp, hold, hq⟩ := hs.qp hget
    have hlive := h.live i qp hold
    simp only [Qp.queues, Prod.mk.injEq] at hq
    rw [hq.2.2.2.2, hlive]

theorem cqPost_refs (cq : Cq) (p : PostReq) (writes : Bool) : (cqPost cq p writes).1.refs = cq.refs := by
  unfold cqPost
  split
  · rfl
  split
  · rfl
  · split <;> rfl

theorem moves_post {i : Nat} {qp : Qp} (hget : dev.qps i = some qp) {p : Option PostReq}
    (hp : PostOk qp p) (writes : Bool) : Moves dev (post dev writes p) := by
  unfold post
  split
  · exact Moves.refl dev
  rename_i p
  obtain ⟨send, hcq, hmeant⟩ := hp
  split
  · exact Moves.refl dev
  rename_i c hc
  split
  · rename_i c' cqe hpost
    obtain ⟨hpos, hle, -⟩ := get_some hc
    have hrefs : c'.refs = c.refs := by
      have hr := cqPost_refs c p writes
      rw [hpost] at hr
      exact hr
    have hs : SameRefs dev { dev with
        cqs := update dev.cqs (p.cq - 1) (some c')
        posted := dev.posted ++ [⟨c.serial, p.meant⟩] } := by
      refine ⟨fun k => ?_, fun _ => rfl⟩
      rw [cqGet, get_update hpos hle]
      split
      · rename_i heq
        rw [heq, hc, Option.map_some, Option.map_some, hrefs]
      · rfl
    intro hw
    refine ⟨hs, hw.of_same hs hw.work fun q hq => ?_⟩
    rcases List.mem_append.mp hq with hq | hq
    · exact hw.posted q hq
    -- the queue of the handle is the one that the queue pair was created with
    obtain ⟨c₀, hc₀, hserial⟩ := hw.cq i qp hget send
    rw [← hcq, hc] at hc₀
    cases hc₀
    rw [List.mem_singleton.mp hq]
    exact hserial.trans hmeant.symm
  · exact Moves.refl dev

theorem moves_applyAt {i : Nat} {qp : Qp} (hget : dev.qps i = some qp)
    (hr : WorkOk qp → QpKeeps qp r) (writes : Bool) : Moves dev (applyAt dev i writes r) := by
  intro hw
  have hk := hr (hw.work i qp hget)
  have hset : SameRefs dev { dev with qps := update dev.qps i (some r.1) } := by
    refine ⟨fun _ => rfl, fun j => ?_⟩
    dsimp only
    by_cases hj : j = i
    · subst hj
      rw [update_self, hget, Option.map_some, Option.map_some, hk.queues]
    · rw [update_of_ne hj]
  have hwork : ∀ j qp', update dev.qps i (some r.1) j = some qp' → WorkOk qp' := by
    intro j qp' hj
    by_cases hij : j = i
    · subst hij
      rw [update_self] at hj
      cases hj
      exact hk.work
    · rw [update_of_ne hij] at hj
      exact hw.work j qp' hj
  have hmid := hw.of_same hset hwork hw.posted
  have hpost : PostOk r.1 r.2 := by
    have hp := hk.post
    cases h2 : r.2 with
    | none => trivial
    | some p =>
      rw [h2] at hp
      obtain ⟨send, hcq, hmeant⟩ := hp
      exact ⟨send, hcq.trans (cqOf_eq hk.queues send).symm, hmeant.trans (serialOf_eq hk.queues send).symm⟩
  have hget' : ({ dev with qps := update dev.qps i (some r.1) } : Device).qps i = some r.1 :=
    update_self i (some r.1) dev.qps
  obtain ⟨hs, hw'⟩ := moves_post hget' hpost writes hmid
  exact ⟨hset.trans hs, hw'⟩

theorem moves_carried : Carried Moves :=
  ⟨Moves.refl, Moves.trans, fun hget hr => moves_applyAt hget hr, fun dev qp wqe call => by
    obtain ⟨hc, hq, hp⟩ := withAv_keeps dev qp wqe call
    exact moves_of_eq hc hq hp⟩

def Untouched (dev dev' : Device) : Prop :=
  dev'.cqs = dev.cqs ∧ dev'.qps = dev.qps ∧ dev'.posted = dev.posted

theorem Untouched.moves (h : Untouched dev dev') : Moves dev dev' := moves_of_eq h.1 h.2.1 h.2.2

variable (handle : Nat)

section

variable (dev)

theorem Untouched.refl : Untouched dev dev := ⟨rfl, rfl, rfl⟩

theorem jobAlloc_untouched (jobId maxAddrs : Nat) (memory : Bool) :
    Untouched dev (jobAlloc dev jobId maxAddrs memory).1 := by
  unfold jobAlloc
  split
  · exact .refl dev
  split
  · exact .refl dev
  · split
    · exact .refl dev
    · split <;> exact .refl dev

theorem jobFree_untouched (removed : Nat → Bool) :
    Untouched dev (jobFree dev handle removed).1 := by
  unfold jobFree
  split <;> exact .refl dev

theorem jobRetire_untouched (i : Nat) (removed : Nat → Bool) : Untouched dev (jobRetire dev i removed) := by
  unfold jobRetire
  split
  · exact .refl dev
  · split <;> exact .refl dev

theorem jkeyCreate_untouched (jobHandle pdn : Nat) : Untouched dev (jkeyCreate dev jobHandle pdn).1 := by
  unfold jkeyCreate
  split
  · exact .refl dev
  · split <;> exact .refl dev

theorem jkeyDestroy_untouched : Untouched dev (jkeyDestroy dev handle).1 := by
  unfold jkeyDestroy
  split <;> exact .refl dev

theorem addrInsert_untouched (jobHandle index : Nat) (addr : AdminAddr) :
    Untouched dev (addrInsert dev jobHandle index addr).1 := by
  unfold addrInsert
  split
  · exact .refl dev
  · split <;> exact .refl dev

theorem addrRemove_untouched (jobHandle index : Nat) (removed : Bool) :
    Untouched dev (addrRemove dev jobHandle index removed).1 := by
  unfold addrRemove
  split
  · exact .refl dev
  dsimp only
  split
  · exact .refl dev
  · split <;> exact .refl dev

theorem addrRetire_untouched (i index : Nat) (removed : Bool) :
    Untouched dev (addrRetire dev i index removed) := by
  unfold addrRetire
  split
  · exact .refl dev
  · dsimp only
    split <;> exact .refl dev

theorem ahCreate_untouched (pd : Nat) (addr : AdminAddr) : Untouched dev (ahCreate dev pd addr).1 := by
  unfold ahCreate
  split <;> exact .refl dev

theorem ahDestroy_untouched : Untouched dev (ahDestroy dev handle).1 := by
  unfold ahDestroy
  split <;> exact .refl dev

end

def MrsOnly (dev dev' : Device) : Prop := ∃ mrs, dev' = { dev with mrs }

theorem MrsOnly.untouched (h : MrsOnly dev dev') : Untouched dev dev' := by
  obtain ⟨mrs, rfl⟩ := h
  exact ⟨rfl, rfl, rfl⟩

section

variable (dev)

theorem mrReg_mrsOnly (args : MrRegArgs) (lib : Option MrLib) : MrsOnly dev (mrReg dev args lib).1 := by
  unfold mrReg
  split
  · exact ⟨_, rfl⟩
  split
  · exact ⟨_, rfl⟩
  split
  · exact ⟨_, rfl⟩
  split
  · exact ⟨_, rfl⟩
  split
  · exact ⟨_, rfl⟩
  split <;> exact ⟨_, rfl⟩

theorem mrDereg_mrsOnly (disabled closed : Bool) :
    MrsOnly dev (mrDereg dev handle disabled closed).1 := by
  unfold mrDereg
  split
  · exact ⟨_, rfl⟩
  split
  · exact ⟨_, rfl⟩
  split <;> exact ⟨_, rfl⟩

theorem mrAttach_mrsOnly (mrHandle qpHandle : Nat) (disabled bound : Bool) :
    MrsOnly dev (mrAttach dev mrHandle qpHandle disabled bound).1 := by
  unfold mrAttach
  split
  · split
    · exact ⟨_, rfl⟩
    split
    · exact ⟨_, rfl⟩
    split
    · exact ⟨_, rfl⟩
    split <;> exact ⟨_, rfl⟩
  · exact ⟨_, rfl⟩

theorem mrDetach_mrsOnly (mrHandle : Nat) (disabled : Bool) :
    MrsOnly dev (mrDetach dev mrHandle disabled).1 := by
  unfold mrDetach
  split
  · exact ⟨_, rfl⟩
  split
  · exact ⟨_, rfl⟩
  split <;> exact ⟨_, rfl⟩

theorem moves_cqDoorbell (page handle : Nat) (cons : BitVec 32) (arm : Bool) :
    Moves dev (cqDoorbell dev page handle cons arm) := by
  unfold cqDoorbell
  split
  · exact Moves.refl dev
  rename_i cq hget
  split
  · exact Moves.refl dev
  intro hw
  obtain ⟨hpos, hle, -⟩ := get_some hget
  refine ⟨?_, hw.of_same ?_ hw.work hw.posted⟩
  all_goals
    refine ⟨fun k => ?_, fun _ => rfl⟩
    rw [cqGet, get_update hpos hle]
    split
    · rename_i heq
      rw [heq, hget]
      rfl
    · rfl

end

theorem Wired.cq_ne (h : Wired dev) {i : Nat} {qp : Qp} (hget : dev.qps i = some qp) {j : Nat}
    (hfree : dev.cqs j = none) (send : Bool) : qp.cqOf send ≠ j + 1 := by
  intro heq
  obtain ⟨c, hc, -⟩ := h.cq i qp hget send
  have hslot := (get_some hc).2.2
  rw [heq, Nat.add_sub_cancel, hfree] at hslot
  cases hslot

theorem not_refers {qp : Qp} (hne : ∀ send, qp.cqOf send ≠ h) : refersTo h qp = false := by
  have hs := hne true
  have hr := hne false
  rw [refersTo, Bool.or_eq_false_iff]
  exact ⟨beq_eq_false_iff_ne.mpr hs, beq_eq_false_iff_ne.mpr hr⟩

theorem not_refers_of_unbound (hw : Wired dev) (hc : Counted dev) (hget : cqGet dev h = some c)
    (hzero : c.boundQps = 0) {i : Nat} {qp : Qp} (hqp : dev.qps i = some qp) : refersTo h qp = false := by
  cases hr : refersTo h qp with
  | false => rfl
  | true =>
    have hpos := count_pos (hw.slot i qp hqp) hqp hr
    rw [← hc.bound h c hget, hzero] at hpos
    exact absurd hpos (lt_irrefl 0)

theorem refersTo_cqOf (qp : Qp) (send : Bool) : refersTo (qp.cqOf send) qp = true := by
  cases send
  · exact Bool.or_eq_true_iff.mpr (.inr (beq_self_eq_true _))
  · exact Bool.or_eq_true_iff.mpr (.inl (beq_self_eq_true _))

theorem cqCreate_keeps (hw : Wired dev) (hc : Counted dev) (args : CqCreateArgs) :
    Wired (cqCreate dev args).1 ∧ Counted (cqCreate dev args).1 := by
  unfold cqCreate
  dsimp only
  split
  · exact ⟨hw, hc⟩
  split
  · exact ⟨hw, hc⟩
  split
  · exact ⟨hw, hc⟩
  split
  · exact ⟨hw, hc⟩
  split
  · exact ⟨hw, hc⟩
  rename_i j hj
  obtain ⟨hlt, hfree⟩ := firstFree_some hj
  have hget : ∀ (c : Cq) k, get maxCqs (update dev.cqs j (some c)) k =
      if k = j + 1 then some c else cqGet dev k :=
    fun c k => get_update (t := dev.cqs) (Nat.succ_pos j) hlt (some c) k
  refine ⟨?_, ?_⟩
  · constructor
    case slot => exact hw.slot
    case cq =>
      intro i qp hqp send
      rw [cqGet, hget, if_neg (hw.cq_ne hqp hfree send)]
      exact hw.cq i qp hqp send
    case work => exact hw.work
    case posted => exact hw.posted
  · refine ⟨fun h c hcq => ?_, hc.live⟩
    rw [cqGet, hget] at hcq
    split at hcq
    · rename_i heq
      cases hcq
      symm
      refine List.countP_eq_zero.mpr fun i hi => ?_
      cases hqp : dev.qps i with
      | none =>
        rw [Option.any_none]
        exact Bool.false_ne_true
      | some qp =>
        rw [Option.any_some, heq, not_refers fun send => hw.cq_ne hqp hfree send]
        exact Bool.false_ne_true
    · exact hc.bound h c hcq

theorem cqDestroy_keeps (hw : Wired dev) (hc : Counted dev) (handle : Nat) :
    Wired (cqDestroy dev handle).1 ∧ Counted (cqDestroy dev handle).1 := by
  unfold cqDestroy
  split
  · exact ⟨hw, hc⟩
  rename_i cq hget
  split
  · exact ⟨hw, hc⟩
  rename_i hzero
  rw [not_not] at hzero
  obtain ⟨hpos, hle, -⟩ := get_some hget
  have hnew : ∀ k, get maxCqs (update dev.cqs (handle - 1) none) k =
      if k = handle then none else cqGet dev k := fun k => get_update hpos hle none k
  refine ⟨?_, ?_⟩
  · constructor
    case slot => exact hw.slot
    case cq =>
      intro i qp hqp send
      have hne : qp.cqOf send ≠ handle := by
        intro heq
        have hr := refersTo_cqOf qp send
        rw [heq, not_refers_of_unbound hw hc hget hzero hqp] at hr
        cases hr
      rw [cqGet, hnew, if_neg hne]
      exact hw.cq i qp hqp send
    case work => exact hw.work
    case posted => exact hw.posted
  · refine ⟨fun h c hcq => ?_, hc.live⟩
    rw [cqGet, hnew] at hcq
    split at hcq
    · cases hcq
    · exact hc.bound h c hcq

theorem bindCq_get (hget : get maxCqs cqs h = some c) (k : Nat) : get maxCqs (bindCq cqs h) k =
      (get maxCqs cqs k).map fun c => { c with boundQps := c.boundQps + if k = h then 1 else 0 } := by
  obtain ⟨hpos, hle, hslot⟩ := get_some hget
  rw [bindCq, get_update hpos hle]
  split
  · rename_i heq
    rw [heq, hget, hslot]
  · cases get maxCqs cqs k <;> rfl

theorem unbindCq_get (hget : get maxCqs cqs h = some c) (k : Nat) : get maxCqs (unbindCq cqs h) k =
      (get maxCqs cqs k).map fun c => { c with boundQps := c.boundQps - if k = h then 1 else 0 } := by
  obtain ⟨hpos, hle, -⟩ := get_some hget
  simp only [unbindCq, hget]
  rw [get_update hpos hle]
  split
  · rename_i heq
    rw [heq, hget]
    rfl
  · cases get maxCqs cqs k <;> rfl

def countsFor (sendCq recvCq k : Nat) : Nat := if k = sendCq ∨ k = recvCq then 1 else 0

theorem bindCqs_get {s r : Nat} {cs cr : Cq} (hs : get maxCqs cqs s = some cs) (hr : get maxCqs cqs r = some cr)
    (k : Nat) : get maxCqs (bindCqs cqs s r) k =
      (get maxCqs cqs k).map fun c => { c with boundQps := c.boundQps + countsFor s r k } := by
  unfold bindCqs countsFor
  split
  · rename_i heq
    rw [bindCq_get hs, heq]
    simp only [or_self]
  rename_i hne
  have hr' : get maxCqs (bindCq cqs s) r = some cr := by
    rw [bindCq_get hs, hr, Option.map_some, if_neg hne]
    rfl
  rw [bindCq_get hr', bindCq_get hs, Option.map_map]
  congr 1
  funext c
  dsimp only [comp]
  by_cases h1 : k = s
  · have h2 : k ≠ r := fun h => hne (h.symm.trans h1)
    simp only [h1, if_true, true_or, if_neg (fun h => h2 (h1.trans h))]
  · simp only [h1, if_false, false_or, Nat.add_zero]

theorem unbindCqs_get {s r : Nat} {cs cr : Cq} (hs : get maxCqs cqs s = some cs) (hr : get maxCqs cqs r = some cr)
    (k : Nat) : get maxCqs (unbindCqs cqs s r) k =
      (get maxCqs cqs k).map fun c => { c with boundQps := c.boundQps - countsFor s r k } := by
  unfold unbindCqs countsFor
  split
  · rename_i heq
    rw [unbindCq_get hs, heq]
    simp only [or_self]
  rename_i hne
  have hr' : get maxCqs (unbindCq cqs s) r = some cr := by
    rw [unbindCq_get hs, hr, Option.map_some, if_neg hne]
    rfl
  rw [unbindCq_get hr', unbindCq_get hs, Option.map_map]
  congr 1
  funext c
  dsimp only [comp]
  by_cases h1 : k = s
  · have h2 : k ≠ r := fun h => hne (h.symm.trans h1)
    simp only [h1, if_true, true_or, if_neg (fun h => h2 (h1.trans h))]
    rfl
  · simp only [h1, if_false, false_or, Nat.sub_zero]

theorem countsFor_eq (qp : Qp) (k : Nat) :
    countsFor qp.sendCq qp.recvCq k = if refersTo k qp then 1 else 0 := by
  have hiff : refersTo k qp = true ↔ k = qp.sendCq ∨ k = qp.recvCq := by
    rw [refersTo, Bool.or_eq_true, beq_iff_eq, beq_iff_eq, eq_comm, @eq_comm _ qp.recvCq]
  unfold countsFor
  split
  · rename_i h
    rw [if_pos (hiff.mpr h)]
  · rename_i h
    rw [if_neg fun hr => h (hiff.mp hr)]

theorem qpCreate_keeps (hw : Wired dev) (hc : Counted dev) (args : QpCreateArgs) (library memory : Bool) :
    Wired (qpCreate dev args library memory).1 ∧ Counted (qpCreate dev args library memory).1 := by
  unfold qpCreate
  split
  · rename_i scq rcq hscq hrcq
    split
    · exact ⟨hw, hc⟩
    split
    · exact ⟨hw, hc⟩
    split
    · exact ⟨hw, hc⟩
    rename_i i hi
    split
    · exact ⟨hw, hc⟩
    obtain ⟨hlt, hfree⟩ := firstFree_some hi
    have hbind := bindCqs_get hscq hrcq
    -- every queue is still there, under the same serial number
    have hcq : ∀ k (c : Cq), cqGet dev k = some c → ∃ c', get maxCqs (bindCqs dev.cqs args.sendCq args.recvCq) k = some c' ∧
        c'.serial = c.serial := by
      intro k c hk
      rw [hbind, show get maxCqs dev.cqs k = some c from hk]
      exact ⟨_, rfl, rfl⟩
    refine ⟨?_, ?_⟩
    · constructor
      case slot =>
        intro j qp hj
        by_cases hji : j = i
        · rw [hji]
          exact hlt
        · exact hw.slot j qp ((update_of_ne hji _ _).symm.trans hj)
      case cq =>
        intro j qp hj send
        by_cases hji : j = i
        · subst hji
          cases (update_self j _ _).symm.trans hj
          cases send
          · exact hcq args.recvCq rcq hrcq
          · exact hcq args.sendCq scq hscq
        · obtain ⟨c, hget, hserial⟩ := hw.cq j qp ((update_of_ne hji _ _).symm.trans hj) send
          obtain ⟨c', hget', hserial'⟩ := hcq _ c hget
          exact ⟨c', hget', hserial'.trans hserial⟩
      case work =>
        intro j qp hj
        by_cases hji : j = i
        · subst hji
          cases (update_self j _ _).symm.trans hj
          intro ctx hbusy
          unfold Qp.work at hbusy
          split at hbusy <;> cases hbusy
        · exact hw.work j qp ((update_of_ne hji _ _).symm.trans hj)
      case posted => exact hw.posted
    · refine ⟨fun k c' hk => ?_, fun j qp hj => ?_⟩
      · have hk' : get maxCqs (bindCqs dev.cqs args.sendCq args.recvCq) k = some c' := hk
        rw [hbind] at hk'
        obtain ⟨c, hget, hc'⟩ := Option.map_eq_some_iff.mp hk'
        have hcount := fun qp : Qp => count_update dev.qps hlt (some qp) (refersTo k)
        simp only [hfree, Option.any_none, Option.any_some, Bool.false_eq_true, if_false, Nat.add_zero,
          ← countsFor_eq] at hcount
        rw [hcount, ← hc']
        rw [hc.bound k c hget]
      · by_cases hji : j = i
        · subst hji
          cases (update_self j _ _).symm.trans hj
          rfl
        · exact hc.live j qp ((update_of_ne hji _ _).symm.trans hj)
  · exact ⟨hw, hc⟩

theorem wired_unbind (hw : Wired dev) {i : Nat} {qp : Qp} (hget : dev.qps i = some qp) (mrs : Table Mr) :
    Wired { dev with mrs, cqs := unbindCqs dev.cqs qp.sendCq qp.recvCq } := by
  obtain ⟨cs, hcs, -⟩ := hw.cq i qp hget true
  obtain ⟨cr, hcr, -⟩ := hw.cq i qp hget false
  have hunbind : ∀ k, get maxCqs (unbindCqs dev.cqs qp.sendCq qp.recvCq) k = _ := unbindCqs_get hcs hcr
  refine ⟨hw.slot, fun j qp' hj send => ?_, hw.work, hw.posted⟩
  obtain ⟨c, hc, hserial⟩ := hw.cq j qp' hj send
  rw [cqGet, hunbind, show get maxCqs dev.cqs (qp'.cqOf send) = some c from hc]
  exact ⟨_, rfl, hserial⟩

theorem qpDestroy_keeps (hw : Wired dev) (hc : Counted dev) (handle : Nat) (d : Drained × Drained) :
    Wired (qpDestroy dev handle d true).1 ∧ Counted (qpDestroy dev handle d true).1 := by
  unfold qpDestroy
  split
  · exact ⟨hw, hc⟩
  rename_i qp hget
  obtain ⟨hpos, hle, hslot⟩ := get_some hget
  obtain ⟨cs, hcs, -⟩ := hw.cq _ qp hslot true
  obtain ⟨cr, hcr, -⟩ := hw.cq _ qp hslot false
  have hunbind : ∀ k, get maxCqs (unbindCqs dev.cqs qp.sendCq qp.recvCq) k = _ := unbindCqs_get hcs hcr
  have hw₁ := wired_unbind hw hslot (detachMrs dev.mrs handle)
  obtain ⟨hs, hw₂⟩ := moves_carried.drainBoth (handle - 1) _ d hw₁
  dsimp only
  rw [qpClose, if_pos rfl]
  generalize drainBoth _ (handle - 1) d = dev₂ at hs hw₂
  have hkeep : ∀ j qp', update dev₂.qps (handle - 1) none j = some qp' → dev₂.qps j = some qp' := by
    intro j qp' hj
    by_cases hji : j = handle - 1
    · subst hji
      rw [update_self] at hj
      cases hj
    · exact (update_of_ne hji _ _).symm.trans hj
  refine ⟨⟨fun j q hj => hw₂.slot j q (hkeep j q hj), fun j q hj => hw₂.cq j q (hkeep j q hj),
    fun j q hj => hw₂.work j q (hkeep j q hj), hw₂.posted⟩, fun k c₂ hk => ?_, fun j q hj => ?_⟩
  · -- the count without the queue pair is the count before it less its own reference
    obtain ⟨c₁, hc₁, hrefs⟩ := hs.symm.cq_some (show cqGet dev₂ k = some c₂ from hk)
    rw [cqGet, hunbind] at hc₁
    obtain ⟨c, hcget, rfl⟩ := Option.map_eq_some_iff.mp hc₁
    have hcount := count_update dev₂.qps (by omega : handle - 1 < maxQps) none (refersTo k)
    have hqps : count maxQps dev₂.qps (refersTo k) = count maxQps dev.qps (refersTo k) := count_same hs k
    have hown : (dev₂.qps (handle - 1)).any (refersTo k) = refersTo k qp := by
      obtain ⟨qp₂, hqp₂, hq⟩ := hs.symm.qp (show dev.qps (handle - 1) = some qp from hslot)
      rw [hqp₂, Option.any_some, refersTo, refersTo]
      simp only [Qp.queues, Prod.mk.injEq] at hq
      rw [hq.1, hq.2.1]
    rw [hown, hqps, ← hc.bound k c hcget, ← countsFor_eq, Option.any_none] at hcount
    have hbound : c₂.boundQps = c.boundQps - countsFor qp.sendCq qp.recvCq k := (congrArg Prod.snd hrefs).symm
    rw [hbound]
    exact (Nat.eq_sub_of_add_eq hcount).symm
  · obtain ⟨qp₁, hold, hq⟩ := hs.qp (hkeep j q hj)
    have hlive := hc.live j qp₁ hold
    simp only [Qp.queues, Prod.mk.injEq] at hq
    rw [hq.2.2.2.2, hlive]

end

/-! ## Histories -/

def DevEv.closes : DevEv → Bool
  | .qpDestroy _ _ closed => closed
  | _ => true

def ClosesAtOnce (_ : Device) (ev : DevEv) : Prop := ev.closes = true

instance (dev : Device) (ev : DevEv) : Decidable (ClosesAtOnce dev ev) :=
  inferInstanceAs (Decidable (_ = _))

theorem Moves.keeps {dev dev' : Device} (h : Moves dev dev') (hi : Wired dev ∧ Counted dev) :
    Wired dev' ∧ Counted dev' := by
  obtain ⟨hs, hw⟩ := h hi.1
  exact ⟨hw, hi.2.of_same hs⟩

theorem pollProgress_keeps {dev : Device} (hi : Wired dev ∧ Counted dev) (i : Nat) (inputs : List TurnInput)
    (d : Drained × Drained) (flushed closed : Bool) :
    Wired (pollProgress dev i inputs d flushed closed) ∧ Counted (pollProgress dev i inputs d flushed closed) := by
  unfold pollProgress
  split
  · exact hi
  rename_i qp hget
  rw [hi.2.live i qp hget, if_neg Bool.false_ne_true]
  split
  · exact (moves_carried.pollSend i dev inputs d qp.sq.live).keeps hi
  · exact hi

theorem step_keeps {dev : Device} {ev : DevEv} (hi : Wired dev ∧ Counted dev) (hev : ClosesAtOnce dev ev) :
    Wired (dev.step ev) ∧ Counted (dev.step ev) := by
  cases ev with
  | jobAlloc => exact (jobAlloc_untouched ..).moves.keeps hi
  | jobFree => exact (jobFree_untouched ..).moves.keeps hi
  | jobRetire => exact (jobRetire_untouched ..).moves.keeps hi
  | jkeyCreate => exact (jkeyCreate_untouched ..).moves.keeps hi
  | jkeyDestroy => exact (jkeyDestroy_untouched ..).moves.keeps hi
  | addrInsert => exact (addrInsert_untouched ..).moves.keeps hi
  | addrRemove => exact (addrRemove_untouched ..).moves.keeps hi
  | addrRetire => exact (addrRetire_untouched ..).moves.keeps hi
  | ahCreate => exact (ahCreate_untouched ..).moves.keeps hi
  | ahDestroy => exact (ahDestroy_untouched ..).moves.keeps hi
  | mrReg => exact (mrReg_mrsOnly ..).untouched.moves.keeps hi
  | mrDereg => exact (mrDereg_mrsOnly ..).untouched.moves.keeps hi
  | mrAttach => exact (mrAttach_mrsOnly ..).untouched.moves.keeps hi
  | mrDetach => exact (mrDetach_mrsOnly ..).untouched.moves.keeps hi
  | cqCreate args => exact cqCreate_keeps hi.1 hi.2 args
  | cqDestroy handle => exact cqDestroy_keeps hi.1 hi.2 handle
  | qpCreate args library memory => exact qpCreate_keeps hi.1 hi.2 args library memory
  | qpDestroy handle d closed =>
    cases (hev : closed = true)
    exact qpDestroy_keeps hi.1 hi.2 handle d
  | qpModify handle next pathMtu inp => exact (moves_carried.qpModify dev handle next pathMtu inp).keeps hi
  | ringDoorbell page handle send prod => exact (moves_carried.ringDoorbell dev page handle send prod).keeps hi
  | cqDoorbell page handle cons arm => exact (moves_cqDoorbell dev page handle cons arm).keeps hi
  | recv i inputs => exact (moves_carried.pollRecv i dev inputs).keeps hi
  | progress => exact pollProgress_keeps hi ..

theorem init_keeps : Wired Device.init ∧ Counted Device.init := by
  refine ⟨⟨nofun, nofun, nofun, nofun⟩, fun h c hget => ?_, nofun⟩
  have hslot := (get_some hget).2.2
  cases hslot

def smallRing : RingDesc := ⟨0x1000, 4096, 4⟩

def emptyRecv : Wqe :=
  { wrId := 7, opcode := .recv, signaled := true, ah := false, numSge := 0, addrIndex := 0
    jkey := 0x4a000001, imm := 0, remoteAddr := 0, remoteKey := 0, sge := fun _ => ⟨0, 0, 0⟩ }

/-- A queue pair with its completion queue in a ready state, with one receive that the library has. -/
def oneReceive : List DevEv :=
  [.jobAlloc 5 0 true, .jkeyCreate 1 3, .cqCreate ⟨smallRing, 0, 0⟩,
    .qpCreate ⟨0x80000001, 3, 1, 1, 0, 0, 0, smallRing, smallRing⟩ true true,
    .qpModify 1 (some .rts) 0 ⟨true, true, true, []⟩, .ringDoorbell 0 1 false 1,
    .recv 0 [⟨some emptyRecv, true, .accepted, true⟩]]

def abandoned : Drained × Drained := (.entries [], .errors [(⟨some ⟨false, 0⟩, true⟩, true)])

end Uet.Dev
