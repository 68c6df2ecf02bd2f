import Uet.Dev.CqBinding

/-!
# One completion for each work request

A queue pair in the ready state, with its rings, its records and what the library has of them.
Beside the queue pair the requests that were taken are kept, numbered for each ring, with what became of
them: a completion, a record that the library has, or nothing. The objects of the device may change in
any way between two steps.

Two kinds of receives are taken and never reported, and a send ring that cannot be read has its record
written although the library may have it (`Accounted` leaves both out).
-/

namespace Uet.Dev

open HandleTable Guarded List

structure Request where
  send : Bool
  seq : Nat
  wrId : BitVec 64
  signaled : Bool
  deriving DecidableEq

structure Held where
  ctx : Ctx
  req : Request
  work : Work
  deriving DecidableEq

structure Flow where
  qp : Qp
  rqSeen : Nat
  sqSeen : Nat
  taken : List Request
  held : List Held
  done : List (Request × PostOutcome)
  silent : List Request

namespace Flow

def seen (s : Flow) (send : Bool) : Nat := if send then s.sqSeen else s.rqSeen

def advance (s : Flow) (r : Request) (qp : Qp) : Flow :=
  { s with
      qp
      rqSeen := if r.send then s.rqSeen else s.rqSeen + 1
      sqSeen := if r.send then s.sqSeen + 1 else s.sqSeen
      taken := s.taken ++ [r] }

def take (s : Flow) (r : Request) (ctx : Ctx) (t : Turn) (rc : LibResult) (outcome : PostReq → PostOutcome) :
    Flow :=
  if t.call.isSome && rc == .accepted then
    { s.advance r t.qp with held := s.held ++ [⟨ctx, r, t.qp.work ctx⟩] }
  else
    match t.post with
    | some p => { s.advance r t.qp with done := s.done ++ [(r, outcome p)] }
    | none => { s.advance r t.qp with silent := s.silent ++ [r] }

def turn (s : Flow) (r : Request) (ctx : Ctx) (t : Turn) (rc : LibResult) (outcome : PostReq → PostOutcome) :
    Flow :=
  if t.more then s.take r ctx t rc outcome else { s with qp := t.qp }

def giveBack (s : Flow) (h : Held) (r : Qp × Option PostReq) (outcome : PostReq → PostOutcome) : Flow :=
  let s' : Flow := { s with qp := r.1, held := s.held.erase h }
  match r.2 with
  | some p => { s' with done := s.done ++ [(h.req, outcome p)] }
  | none => { s' with silent := s.silent ++ [h.req] }

def find (s : Flow) (ctx : Option Ctx) : Option Held := s.held.find? fun h => some h.ctx == ctx

end Flow

/-- What happens: a doorbell, a turn of one of the loops, or a completion that the library
reports; with the objects of the device at that time and whether guest memory can be written. -/
inductive FlowEv where
  | doorbell (send : Bool) (prod : BitVec 32)
  | rq (dev : Device) (wqe : Option Wqe) (rc : LibResult) (writes : Bool)
  | sq (dev : Device) (wqe : Option Wqe) (inserted : Bool) (rc : LibResult) (writes : Bool)
  | entry (dev : Device) (rx : Bool) (e : LibEntry) (writes : Bool)
  | error (dev : Device) (e : LibErr) (writes : Bool)

def requestOf (send : Bool) (seq : Nat) : Option Wqe → Request
  | none => ⟨send, seq, 0, true⟩
  | some wqe => ⟨send, seq, wqe.wrId, !send || wqe.signaled⟩

def Flow.step (s : Flow) : FlowEv → Flow
  | .doorbell true prod => { s with qp := { s.qp with sq := { s.qp.sq with prod } } }
  | .doorbell false prod => { s with qp := { s.qp with rq := { s.qp.rq with prod } } }
  | .rq dev wqe rc writes =>
    s.turn (requestOf false s.rqSeen wqe) s.qp.rqNext (rqTurn dev s.qp wqe rc) rc
      fun p => postOutcome dev p writes
  | .sq dev wqe inserted rc writes =>
    s.turn (requestOf true s.sqSeen wqe) s.qp.sqNext (sqTurn dev s.qp wqe inserted rc) rc
      fun p => postOutcome dev p writes
  | .entry dev rx e writes =>
    match s.find e.ctx with
    | none => s
    | some h => s.giveBack h (drainEntry dev rx s.qp e) fun p => postOutcome dev p writes
  | .error dev e writes =>
    match s.find e.ctx with
    | none => s
    | some h => s.giveBack h (drainErr s.qp e) fun p => postOutcome dev p writes

def Flow.init (qp : Qp) : Flow :=
  { qp := { qp with sqWork := fun _ => .zero, rqWork := fun _ => .zero }
    rqSeen := 0, sqSeen := 0, taken := [], held := [], done := [], silent := [] }

/-- A completion, if there is one, is for a queue that is there, and guest memory takes its entry. -/
def Deliverable (dev : Device) (writes : Bool) (p : Option PostReq) : Prop :=
  p.all (fun p => writes && (cqGet dev p.cq).any fun cq => cq.ring.live) = true

instance (dev : Device) (writes : Bool) (p : Option PostReq) : Decidable (Deliverable dev writes p) :=
  inferInstanceAs (Decidable (_ = _))

/-- A receive that is read has no more segments than there is room for and names a job; a slot of the
send ring that is read can be read; completions can be delivered. -/
def Accounted (s : Flow) : FlowEv → Prop
  | .doorbell _ _ => True
  | .rq dev wqe rc writes => Deliverable dev writes (rqTurn dev s.qp wqe rc).post ∧
    (s.qp.rq.cons ≠ s.qp.rq.prod → (s.qp.work s.qp.rqNext).busy = false →
      wqe.all (fun w => decide (w.numSge ≤ maxSge) && (wqeJob dev s.qp w).isSome) = true)
  | .sq dev wqe inserted rc writes => Deliverable dev writes (sqTurn dev s.qp wqe inserted rc).post ∧
    (s.qp.sq.cons ≠ s.qp.sq.prod → wqe.isSome = true)
  | .entry dev rx e writes => Deliverable dev writes (drainEntry dev rx s.qp e).2
  | .error dev e writes => Deliverable dev writes (drainErr s.qp e).2

instance (s : Flow) (ev : FlowEv) : Decidable (Accounted s ev) := by
  unfold Accounted
  split <;> infer_instance

/-- The outcome of a completion for a request: the queue was full, or an entry with its `wr_id`, which
for an unsignaled request reports an error. -/
def Reported (d : Request × PostOutcome) : Prop :=
  d.2 = .overrun ∨ ∃ cqe, d.2 = .written cqe ∧ cqe.wrId = d.1.wrId ∧
    (d.1.signaled = false → cqe.status ≠ .success)

structure HeldOk (qp : Qp) (h : Held) : Prop where
  same : qp.work h.ctx = h.work
  busy : h.work.busy = true
  wrId : h.work.wrId = h.req.wrId
  signaled : h.work.signaled = h.req.signaled

structure Flow.Ok (s : Flow) : Prop where
  balance : s.taken.Perm (s.done.map Prod.fst ++ (s.held.map Held.req ++ s.silent))
  fresh : ∀ r ∈ s.taken, r.seq < s.seen r.send
  nodup : s.taken.Nodup
  records : ∀ h ∈ s.held, HeldOk s.qp h
  slots : (s.held.map Held.ctx).Nodup
  reported : ∀ d ∈ s.done, Reported d
  silent : ∀ r ∈ s.silent, r.signaled = false

/-! ## What a turn does with a request -/

def Spares (qp qp' : Qp) : Prop := ∀ ctx, (qp.work ctx).busy = true → qp'.work ctx = qp.work ctx

structure PostFor (r : Request) (p : PostReq) : Prop where
  wrId : p.work.wrId = r.wrId
  status : r.signaled = false → p.status ≠ .success

/-- A turn leaves the request in its slot; or it takes it, and the library has the record from now on,
or it is completed, or it is unsignaled and nobody is told. -/
inductive Settles (qp : Qp) (ctx : Ctx) (r : Request) (rc : LibResult) (t : Turn) : Prop where
  | stays (more : t.more = false) (spares : Spares qp t.qp)
  | handed (more : t.more = true) (spares : Spares qp t.qp) (idle : (qp.work ctx).busy = false)
      (call : (t.call.isSome && rc == .accepted) = true) (held : HeldOk t.qp ⟨ctx, r, t.qp.work ctx⟩)
  | completed (more : t.more = true) (spares : Spares qp t.qp)
      (call : (t.call.isSome && rc == .accepted) = false) (p : PostReq) (post : t.post = some p)
      (postFor : PostFor r p)
  | dropped (more : t.more = true) (spares : Spares qp t.qp)
      (call : (t.call.isSome && rc == .accepted) = false) (post : t.post = none) (quiet : r.signaled = false)

variable {ctx : Ctx}

section

variable {dev : Device} {qp : Qp} {rc : LibResult}

theorem Spares.refl (qp : Qp) : Spares qp qp := fun _ _ => rfl

theorem spares_setWork (hidle : (qp.work ctx).busy = false) (w : Work) :
    Spares qp (qp.setWork ctx w) := by
  intro ctx' hbusy
  have hne : ctx' ≠ ctx := by
    intro he
    rw [he, hidle] at hbusy
    cases hbusy
  rw [work_setWork, if_neg hne]

theorem work_setWork_self (ctx : Ctx) (w : Work) : (qp.setWork ctx w).work ctx = w := by
  rw [work_setWork, if_pos rfl]

theorem heldOk_setWork {qp' : Qp} {r : Request} {w : Work} (hwork : qp'.work ctx = w)
    (hbusy : w.busy = true) (hid : w.wrId = r.wrId) (hsig : w.signaled = r.signaled) :
    HeldOk qp' ⟨ctx, r, qp'.work ctx⟩ := by
  subst hwork
  exact ⟨rfl, hbusy, hid, hsig⟩

theorem sqFail_settles {wqe : Wqe} {seq jobId : Nat} {st : WcStatus} {call : Option LibCall}
    (hidle : (qp.work qp.sqNext).busy = false) (hst : st ≠ .success)
    (hcall : (call.isSome && rc == .accepted) = false) :
    Settles qp qp.sqNext (requestOf true seq (some wqe)) rc
      (sqFail qp qp.sqNext (sqRecord qp wqe jobId) st call) := by
  have hspares : Spares qp (sqFail qp qp.sqNext (sqRecord qp wqe jobId) st call).qp := spares_setWork hidle _
  cases hsig : wqe.signaled with
  | true =>
    refine .completed rfl hspares hcall (errorPost qp true (sqRecord qp wqe jobId) st) ?_ ⟨rfl, fun _ => hst⟩
    exact if_pos hsig
  | false =>
    refine .dropped rfl hspares hcall ?_ hsig
    exact if_neg (by rw [show (sqRecord qp wqe jobId).signaled = false from hsig]; exact Bool.false_ne_true)

theorem rqTurn_settles (wqe : Option Wqe) (seq : Nat)
    (h : qp.rq.cons ≠ qp.rq.prod → (qp.work qp.rqNext).busy = false →
      wqe.all (fun w => decide (w.numSge ≤ maxSge) && (wqeJob dev qp w).isSome) = true) :
    Settles qp qp.rqNext (requestOf false seq wqe) rc (rqTurn dev qp wqe rc) := by
  unfold rqTurn
  dsimp only
  split
  · exact .stays rfl (.refl qp)
  rename_i hring
  split
  · exact .stays rfl (.refl qp)
  rename_i hbusy
  have hidle := Bool.eq_false_iff.mpr hbusy
  split
  · exact .stays rfl (.refl qp)
  have hread := h hring hidle
  rw [Option.all_some, Bool.and_eq_true, decide_eq_true_eq] at hread
  split
  · rename_i hmax
    exact absurd hread.1 (Nat.not_le.mpr hmax)
  split
  · rename_i hjob
    rw [hjob] at hread
    cases hread.2
  split
  · rename_i st hst
    exact .completed rfl (spares_setWork hidle _) rfl _ rfl ⟨rfl, fun _ => segsOf_error hst⟩
  cases rc with
  | accepted =>
    exact .handed rfl (spares_setWork hidle _) hidle rfl
      (heldOk_setWork (work_setWork_self qp.rqNext _) rfl rfl rfl)
  | again => exact .stays rfl (spares_setWork hidle _)
  | failed => exact .completed rfl (spares_setWork hidle _) rfl _ rfl ⟨rfl, fun _ => nofun⟩

theorem sqTurn_settles (wqe : Option Wqe) (inserted : Bool) (seq : Nat)
    (h : qp.sq.cons ≠ qp.sq.prod → wqe.isSome = true) :
    Settles qp qp.sqNext (requestOf true seq wqe) rc (sqTurn dev qp wqe inserted rc) := by
  unfold sqTurn
  dsimp only
  split
  · exact .stays rfl (.refl qp)
  rename_i hring
  split
  · cases h hring
  split
  · exact .stays rfl (.refl qp)
  rename_i hbusy
  have hidle := Bool.eq_false_iff.mpr hbusy
  split
  · rename_i st hst
    exact sqFail_settles hidle (sqChecks_error hst) rfl
  split
  · exact sqFail_settles hidle nofun rfl
  cases rc with
  | accepted =>
    exact .handed rfl (spares_setWork hidle _) hidle rfl
      (heldOk_setWork (work_setWork_self qp.sqNext _) rfl rfl rfl)
  | again => exact .stays rfl (spares_setWork hidle _)
  | failed => exact sqFail_settles hidle nofun rfl

end

/-! ## The balance of a queue pair -/

section

variable {s : Flow} {r : Request} {qp : Qp}

variable {writes : Bool} {h : Held}

theorem Reported.of_post {dev : Device} {p : PostReq} (hd : Deliverable dev writes (some p)) (hp : PostFor r p) :
    Reported (r, postOutcome dev p writes) := by
  unfold Deliverable at hd
  rw [Option.all_some, Bool.and_eq_true] at hd
  obtain ⟨rfl, hq⟩ := hd
  unfold postOutcome
  cases hcq : cqGet dev p.cq with
  | none =>
    rw [hcq] at hq
    cases hq
  | some cq =>
    rw [hcq, Option.any_some] at hq
    dsimp only
    unfold cqPost
    rw [hq]
    by_cases hfull : cq.ring.desc.entries ≤ (cq.ring.prod - cq.ring.cons).toNat
    · rw [if_neg (by decide), if_pos hfull]
      exact .inl rfl
    · rw [if_neg (by decide), if_neg hfull]
      exact .inr ⟨_, rfl, hp.wrId, hp.status⟩

theorem HeldOk.spared {qp' : Qp} (hok : HeldOk qp h) (hs : Spares qp qp') : HeldOk qp' h := by
  have hbusy : (qp.work h.ctx).busy = true := by
    rw [hok.same]
    exact hok.busy
  exact ⟨(hs h.ctx hbusy).trans hok.same, hok.busy, hok.wrId, hok.signaled⟩

theorem Flow.Ok.not_held (h : s.Ok) (hidle : (s.qp.work ctx).busy = false) :
    ctx ∉ s.held.map Held.ctx := by
  intro hmem
  obtain ⟨x, hx, rfl⟩ := mem_map.mp hmem
  have hrec := h.records x hx
  rw [hrec.same, hrec.busy] at hidle
  cases hidle

theorem seen_advance (send : Bool) : (s.advance r qp).seen send =
    if send = r.send then s.seen send + 1 else s.seen send := by
  unfold Flow.seen Flow.advance
  cases send <;> cases r.send <;> rfl

theorem fresh_advance (h : s.Ok) (hseq : r.seq = s.seen r.send) :
    ∀ x ∈ s.taken ++ [r], x.seq < (s.advance r qp).seen x.send := by
  intro x hx
  rw [seen_advance]
  rcases mem_append.mp hx with hx | hx
  · have hlt := h.fresh x hx
    split <;> omega
  · rw [mem_singleton.mp hx, if_pos rfl, hseq]
    exact Nat.lt_succ_self _

theorem nodup_advance (h : s.Ok) (hseq : r.seq = s.seen r.send) : (s.taken ++ [r]).Nodup := by
  refine nodup_append.mpr ⟨h.nodup, nodup_singleton r, ?_⟩
  intro x hx y hy he
  have hlt := h.fresh x hx
  rw [he, mem_singleton.mp hy, hseq] at hlt
  exact lt_irrefl _ hlt

theorem turn_ok (h : s.Ok) {t : Turn} {rc : LibResult} {dev : Device} (hseq : r.seq = s.seen r.send)
    (ht : Settles s.qp ctx r rc t) (hd : Deliverable dev writes t.post) :
    (s.turn r ctx t rc fun p => postOutcome dev p writes).Ok := by
  have hfresh : ∀ x ∈ s.taken ++ [r], x.seq < (s.advance r t.qp).seen x.send := fresh_advance h hseq
  have hnodup := nodup_advance h hseq
  unfold Flow.turn
  cases ht with
  | stays more spares =>
    rw [more, if_neg Bool.false_ne_true]
    exact ⟨h.balance, h.fresh, h.nodup, fun x hx => (h.records x hx).spared spares, h.slots, h.reported,
      h.silent⟩
  | handed more spares idle call held =>
    rw [more, if_pos rfl]
    unfold Flow.take
    rw [if_pos call]
    refine ⟨?_, hfresh, hnodup, ?_, ?_, h.reported, h.silent⟩
    · -- the new request goes behind those that the library has
      have hperm := h.balance.append_right [r]
      refine hperm.trans ?_
      rw [map_append, append_assoc, append_assoc, append_assoc]
      exact (perm_append_comm.append_left _).append_left _
    · intro x hx
      rcases mem_append.mp hx with hx | hx
      · exact (h.records x hx).spared spares
      · rw [mem_singleton.mp hx]
        exact held
    · rw [map_append]
      refine nodup_append.mpr ⟨h.slots, nodup_singleton _, ?_⟩
      intro x hx y hy he
      rw [he, mem_singleton.mp hy] at hx
      exact h.not_held idle hx
  | completed more spares call p post postFor =>
    rw [more, if_pos rfl]
    unfold Flow.take
    rw [call, if_neg Bool.false_ne_true, post]
    rw [post] at hd
    refine ⟨?_, hfresh, hnodup, fun x hx => (h.records x hx).spared spares, h.slots, ?_, h.silent⟩
    · have hmove : (s.done.map Prod.fst ++ (s.held.map Held.req ++ s.silent) ++ [r]).Perm
          (s.done.map Prod.fst ++ [r] ++ (s.held.map Held.req ++ s.silent)) := by
        rw [append_assoc (s.done.map Prod.fst), append_assoc (s.done.map Prod.fst) [r]]
        exact perm_append_comm.append_left _
      rw [map_append]
      exact (h.balance.append_right [r]).trans hmove
    · intro d hmem
      rcases mem_append.mp hmem with hmem | hmem
      · exact h.reported d hmem
      · rw [mem_singleton.mp hmem]
        exact .of_post hd postFor
  | dropped more spares call post quiet =>
    rw [more, if_pos rfl]
    unfold Flow.take
    rw [call, if_neg Bool.false_ne_true, post]
    refine ⟨?_, hfresh, hnodup, fun x hx => (h.records x hx).spared spares, h.slots, h.reported, ?_⟩
    · refine (h.balance.append_right [r]).trans ?_
      rw [append_assoc, append_assoc]
      exact Perm.refl _
    · intro x hx
      rcases mem_append.mp hx with hx | hx
      · exact h.silent x hx
      · rw [mem_singleton.mp hx]
        exact quiet

/-- What the device does with a record that the library gives back: no other record changes, and it is
reported unless it is unsignaled. -/
structure Returns (qp : Qp) (h : Held) (r : Qp × Option PostReq) : Prop where
  others : ∀ ctx, ctx ≠ h.ctx → r.1.work ctx = qp.work ctx
  post : ∀ p, r.2 = some p → PostFor h.req p
  quiet : r.2 = none → h.req.signaled = false

theorem drainEntry_returns (hok : HeldOk qp h) (dev : Device) (rx : Bool) {e : LibEntry} (hctx : e.ctx = some h.ctx) :
    Returns qp h (drainEntry dev rx qp e) := by
  have hbusy : (qp.work h.ctx).busy = true := by
    rw [hok.same]
    exact hok.busy
  have hsig : (qp.work h.ctx).signaled = h.req.signaled := by
    rw [hok.same]
    exact hok.signaled
  have hid : (qp.work h.ctx).wrId = h.req.wrId := by
    rw [hok.same]
    exact hok.wrId
  unfold drainEntry
  rw [hctx]
  dsimp only
  rw [hbusy, if_neg (by decide), hsig]
  refine ⟨fun ctx hne => ?_, fun p hp => ?_, fun hp => ?_⟩
  · rw [work_setWork, if_neg hne]
  · split at hp
    · rename_i hyes
      cases hp
      refine ⟨hid, fun hno => ?_⟩
      rw [hyes] at hno
      cases hno
    · cases hp
  · split at hp
    · cases hp
    · rename_i hno
      exact Bool.eq_false_iff.mpr hno

theorem drainErr_returns (hok : HeldOk qp h) {e : LibErr} (hctx : e.ctx = some h.ctx) :
    Returns qp h (drainErr qp e) := by
  have hbusy : (qp.work h.ctx).busy = true := by
    rw [hok.same]
    exact hok.busy
  unfold drainErr
  rw [hctx]
  dsimp only
  rw [hbusy, if_neg (by decide)]
  refine ⟨fun ctx hne => ?_, fun p hp => ?_, nofun⟩
  · rw [work_setWork, if_neg hne]
  · cases hp
    refine ⟨?_, fun _ => ?_⟩
    · exact (congrArg Work.wrId hok.same).trans hok.wrId
    · split <;> exact nofun

theorem find_some {ctx : Option Ctx} (hfind : s.find ctx = some h) : h ∈ s.held ∧ ctx = some h.ctx := by
  refine ⟨mem_of_find?_eq_some hfind, ?_⟩
  have htest := find?_some hfind
  exact (beq_iff_eq.mp htest).symm

theorem giveBack_ok (hs : s.Ok) (hmem : h ∈ s.held) {x : Qp × Option PostReq} (hr : Returns s.qp h x) {dev : Device}
    (hd : Deliverable dev writes x.2) : (s.giveBack h x fun p => postOutcome dev p writes).Ok := by
  have hperm : s.held.Perm (h :: s.held.erase h) := perm_cons_erase hmem
  have hslots : (h.ctx :: (s.held.erase h).map Held.ctx).Nodup := (hperm.map Held.ctx).nodup_iff.mp hs.slots
  have hbal : s.taken.Perm (s.done.map Prod.fst ++ (h.req :: (s.held.erase h).map Held.req ++ s.silent)) :=
    hs.balance.trans (((hperm.map Held.req).append_right s.silent).append_left _)
  have hrecords : ∀ y ∈ s.held.erase h, HeldOk x.1 y := by
    intro y hy
    have hne : y.ctx ≠ h.ctx := by
      intro he
      exact (nodup_cons.mp hslots).1 (he ▸ mem_map_of_mem hy)
    have hok := hs.records y (mem_of_mem_erase hy)
    exact ⟨(hr.others y.ctx hne).trans hok.same, hok.busy, hok.wrId, hok.signaled⟩
  unfold Flow.giveBack
  cases hpost : x.2 with
  | some p =>
    rw [hpost] at hd
    refine ⟨?_, hs.fresh, hs.nodup, hrecords, (nodup_cons.mp hslots).2, ?_, hs.silent⟩
    · rw [map_append, append_assoc]
      exact hbal
    · intro d hdone
      rcases mem_append.mp hdone with hdone | hdone
      · exact hs.reported d hdone
      · rw [mem_singleton.mp hdone]
        exact .of_post hd (hr.post p hpost)
  | none =>
    refine ⟨?_, hs.fresh, hs.nodup, hrecords, (nodup_cons.mp hslots).2, hs.reported, ?_⟩
    · refine hbal.trans (Perm.append_left _ ?_)
      rw [← append_assoc]
      exact (perm_append_singleton h.req _).symm
    · intro y hy
      rcases mem_append.mp hy with hy | hy
      · exact hs.silent y hy
      · rw [mem_singleton.mp hy]
        exact hr.quiet hpost

theorem step_ok {ev : FlowEv} (h : s.Ok) (hev : Accounted s ev) : (s.step ev).Ok := by
  cases ev with
  | doorbell send prod =>
    have hsame : ∀ qp' : Qp, (∀ ctx, qp'.work ctx = s.qp.work ctx) → Flow.Ok { s with qp := qp' } := by
      intro qp' hwork
      exact ⟨h.balance, h.fresh, h.nodup, fun x hx => (h.records x hx).spared fun ctx _ => hwork ctx, h.slots,
        h.reported, h.silent⟩
    cases send with
    | true => exact hsame _ fun _ => rfl
    | false => exact hsame _ fun _ => rfl
  | rq dev wqe rc writes =>
    refine turn_ok h ?_ (rqTurn_settles wqe s.rqSeen hev.2) hev.1
    cases wqe <;> rfl
  | sq dev wqe inserted rc writes =>
    refine turn_ok h ?_ (sqTurn_settles wqe inserted s.sqSeen hev.2) hev.1
    cases wqe <;> rfl
  | entry dev rx e writes =>
    unfold Flow.step
    dsimp only
    split
    · exact h
    rename_i x hfind
    obtain ⟨hmem, hctx⟩ := find_some hfind
    exact giveBack_ok h hmem (drainEntry_returns (h.records x hmem) dev rx hctx) hev
  | error dev e writes =>
    unfold Flow.step
    dsimp only
    split
    · exact h
    rename_i x hfind
    obtain ⟨hmem, hctx⟩ := find_some hfind
    exact giveBack_ok h hmem (drainErr_returns (h.records x hmem) hctx) hev

theorem init_ok (qp : Qp) : (Flow.init qp).Ok := by
  constructor
  · exact Perm.refl _
  · intro r hr
    exact absurd hr not_mem_nil
  · exact nodup_nil
  · intro h hh
    exact absurd hh not_mem_nil
  · exact nodup_nil
  · intro d hd
    exact absurd hd not_mem_nil
  · intro r hr
    exact absurd hr not_mem_nil

end

/-! ## The loops of the device -/

theorem post_qps (dev : Device) (writes : Bool) (p : Option PostReq) : (post dev writes p).qps = dev.qps := by
  unfold post
  split
  · rfl
  split
  · rfl
  · split <;> rfl

theorem applyAt_qps (dev : Device) (i : Nat) (writes : Bool) (r : Qp × Option PostReq) :
    (applyAt dev i writes r).qps i = some r.1 := by
  unfold applyAt
  rw [post_qps]
  exact Function.update_self i (some r.1) dev.qps

theorem turn_qp (s : Flow) (r : Request) (ctx : Ctx) (t : Turn) (rc : LibResult)
    (outcome : PostReq → PostOutcome) : (s.turn r ctx t rc outcome).qp = t.qp := by
  unfold Flow.turn Flow.take
  split
  · split
    · rfl
    · split <;> rfl
  · rfl

def FlowEv.ofTurn (send : Bool) (dev : Device) (inp : TurnInput) : FlowEv :=
  if send then .sq dev inp.wqe inp.inserted inp.rc inp.writes else .rq dev inp.wqe inp.rc inp.writes

def loopRun (send : Bool) : Nat → List TurnInput → Device → Device := if send then sqRun else rqRun

theorem loopRun_cons (send : Bool) {i : Nat} (inp : TurnInput) (rest : List TurnInput) {dev : Device} {s : Flow}
    (h : dev.qps i = some s.qp) : ∃ dev', dev'.qps i = some (s.step (.ofTurn send dev inp)).qp ∧
      (loopRun send i (inp :: rest) dev = loopRun send i rest dev' ∨ loopRun send i (inp :: rest) dev = dev') := by
  cases send <;> simp only [loopRun, sqRun, rqRun, h, Bool.false_eq_true, if_true, if_false] <;> split
  all_goals first | refine ⟨_, ?_, .inl rfl⟩ | refine ⟨_, ?_, .inr rfl⟩
  all_goals
    rw [applyAt_qps]
    exact congrArg some (turn_qp ..).symm

/-- A queue pair in the ready state with rings of four slots, a job with its key, and an address handle. -/
def fourSlots : Device :=
  ([.jobAlloc 5 0 true, .jkeyCreate 1 3, .ahCreate 3 ⟨0, 0, 0⟩, .cqCreate ⟨smallRing, 0, 0⟩,
    .qpCreate ⟨0x80000001, 3, 1, 1, 0, 0, 0, smallRing, smallRing⟩ true true,
    .qpModify 1 (some .rts) 0 ⟨true, true, true, []⟩] : List DevEv).foldl Device.step Device.init

def emptySend (wrId : BitVec 64) : Wqe :=
  { wrId, opcode := .send, signaled := true, ah := true, numSge := 0, addrIndex := 1
    jkey := 0x4a000001, imm := 0, remoteAddr := 0, remoteKey := 0, sge := fun _ => ⟨0, 0, 0⟩ }

/-- Four sends that the library takes; the last of them completes. -/
def fourSends : List FlowEv :=
  [.doorbell true 4, .sq fourSlots (some (emptySend 1)) true .accepted true,
    .sq fourSlots (some (emptySend 2)) true .accepted true, .sq fourSlots (some (emptySend 3)) true .accepted true,
    .sq fourSlots (some (emptySend 4)) true .accepted true,
    .entry fourSlots false ⟨some ⟨true, 3⟩, false, 0, 0, 0⟩ true]

/-- The next slot cannot be read while the library has its record; then the library is done with it. -/
def overwrites : List FlowEv :=
  [.doorbell true 5, .sq fourSlots none true .accepted true,
    .entry fourSlots false ⟨some ⟨true, 0⟩, false, 0, 0, 0⟩ true]

end Uet.Dev
