import Uet.Pds.Admits

/-!
# The PDS manager

The slots of `pds_state` together: the free list, the table of initiator PDCs by their key,
and the table that maps a message to the PDC it is sent on. A start of message takes the PDC
of the peer and maps the message to it, the end of the message or
`uet_pds_msg_cmpl_ind` unmaps it; in between the PDC has the message as its active one and
takes no other. What the caller has seen of its calls tells which messages are begun
(`begun`), and only these are mapped or active.
-/

namespace Uet.Pds

open List Function

/-- `struct uet_pdc_ini_key`; the traffic class is always the default one. -/
structure IniKey where
  mode : PdsMode
  jobId : BitVec 32
  src : Fa
  dst : Fa
  deriving DecidableEq

/-- `pds_state`. -/
structure Pdsm where
  pdc : PdcId → Pdc
  free : List PdcId
  iniHt : List (IniKey × PdcId)
  msgidHt : List (MsgId × PdcId)

/-- The arguments of `uet_pds_tx_pkt`: the packet, the PDC that `pds_info` names, and what a
new PDC would be made with. -/
structure TxArgs where
  req : TxReq
  infoPdc : PdcId
  jobId : BitVec 32
  localFa : Fa
  sec : Bool
  startPsn : Psn

def TxArgs.key (q : TxArgs) : IniKey := ⟨q.req.mode, q.jobId, q.localFa, q.req.dstFa⟩

namespace Pdsm

/-- As `uet_pds_initialize` leaves it: identifier 0 is never handed out. -/
def init : Pdsm :=
  { pdc := freshSlot, free := ((List.range 64).drop 1).map (BitVec.ofNat 16), iniHt := [], msgidHt := [] }

def put (i : PdcId) (p : Pdc) (s : Pdsm) : Pdsm :=
  if p.state = .unalloc ∧ (s.pdc i).state ≠ .unalloc then
    { s with
      pdc := update s.pdc i p, free := s.free ++ [i], iniHt := s.iniHt.filter (·.2 ≠ i) }
  else { s with pdc := update s.pdc i p }

/-- `uet_pdsm_get_msgid_pdc`. -/
def getMsgidPdc (m : MsgId) (s : Pdsm) : Option PdcId := s.msgidHt.lookup m

/-- `uet_pdsm_map_msgid_pdc`. -/
def mapMsgid (m : MsgId) (i : PdcId) (s : Pdsm) : Pdsm := { s with msgidHt := (m, i) :: s.msgidHt }

/-- `uet_pdsm_unmap_msgid_pdc`. -/
def unmapMsgid (m : MsgId) (s : Pdsm) : Pdsm := { s with msgidHt := s.msgidHt.eraseP (·.1 == m) }

/-- `uet_pdsm_discard_pdc`. -/
def discardPdc (i : PdcId) (s : Pdsm) : Pdsm :=
  let p := { s.pdc i with tx := (drainTxPkts (s.pdc i).tx).1 }
  put i (freePdc p).1 { s with msgidHt := s.msgidHt.filter (·.2 ≠ i) }

/-- The allocation in `uet_pdsm_assign_ini_pdc`. -/
def allocIni (q : TxArgs) (s : Pdsm) : Pdsm × Option PdcId :=
  match s.free with
  | [] => (s, none)
  | i :: free =>
    ({ s with
        free
        pdc := update s.pdc i (newIniPdc (s.pdc i) q.sec q.localFa q.req.dstFa q.startPsn)
        iniHt := (q.key, i) :: s.iniHt }, some i)

/-- `uet_pdsm_assign_ini_pdc`. -/
def assignIni (q : TxArgs) (s : Pdsm) : Pdsm × Option PdcId :=
  match s.iniHt.lookup q.key with
  | some i =>
    if (s.pdc i).state = .error then allocIni q (s.discardPdc i)
    else if (s.pdc i).closeRequested then (s, none)
    else (s, some i)
  | none => allocIni q s

/-- How `uet_pds_tx_pkt` comes by its PDC. -/
def resolve (q : TxArgs) (s : Pdsm) : Pdsm × Option PdcId :=
  if q.req.pdsInfo then (s, some q.infoPdc)
  else if q.req.som then s.assignIni q
  else (s, s.getMsgidPdc q.req.msgId)

def noteMsg (r : TxReq) (i : PdcId) (s : Pdsm) : Pdsm :=
  if r.pdsInfo then s
  else
    let s := if r.som then s.mapMsgid r.msgId i else s
    if r.eom && !r.maintainPdc then s.unmapMsgid r.msgId else s

/-- `uet_pds_tx_pkt` over RUD and ROD. -/
def txPkt (env : Env) (q : TxArgs) (s : Pdsm) : Pdsm × Rc :=
  if q.req.nextHdr != .reqStd && q.req.nextHdr != .rspData then (s, .err)
  else
    match s.resolve q with
    | (s, none) => (s, .again)
    | (s, some i) =>
      match Pds.txPkt env (s.pdc i) q.req with
      | (p, _, .ok) => ((s.put i p).noteMsg q.req i, .ok)
      | (p, _, rc) => (s.put i p, rc)

/-- `uet_pds_msg_cmpl_ind`. -/
def msgCmplInd (env : Env) (m : MsgId) (s : Pdsm) : Pdsm × Rc :=
  match s.getMsgidPdc m with
  | none => (s, .err)
  | some i => ((s.put i (Pds.msgCmplInd env (s.pdc i)).1).unmapMsgid m, .ok)

/-- `uet_pds_drop_tx_pkts`. -/
def dropTxPkts (h : Handle) (s : Pdsm) : Pdsm :=
  { s with
    pdc := fun i =>
      if (s.pdc i).state = .unalloc then s.pdc i
      else { s.pdc i with tx := (Pds.dropTxPkts h (s.pdc i).tx).1 } }

/-- `uet_pdsm_assign_tgt_pdc` with a new PDC. -/
def assignTgt (sec : Bool) (syn : ParsedPkt) (base : Psn) (pending : Option Nat) (s : Pdsm) : Pdsm :=
  match s.free with
  | [] => s
  | i :: free =>
    { s with free, pdc := update s.pdc i (Handout.pdc (s.pdc i) sec (.tgt syn base pending)) }

theorem resolve_lookup {s : Pdsm} {q : TxArgs} (hinfo : q.req.pdsInfo = false) (hsom : q.req.som = false)
    (i : PdcId) (hi : (s.resolve q).2 = some i) : (s.resolve q).1.getMsgidPdc q.req.msgId = some i := by
  simpa [resolve, hinfo, hsom] using hi

end Pdsm

inductive PdcWork where
  | rx (f : Frame)
  | progressTxPkt (id : PktId)
  | reapPending
  | closeReqTimer

def PdcWork.event : PdcWork → Event
  | .rx f => .rx f
  | .progressTxPkt id => .progressTxPkt id
  | .reapPending => .reapPending
  | .closeReqTimer => .closeReqTimer

inductive PdsCall where
  | txPkt (env : Env) (q : TxArgs)
  | msgCmplInd (env : Env) (m : MsgId)
  | dropTxPkts (h : Handle)
  | assignTgt (sec : Bool) (syn : ParsedPkt) (base : Psn) (pending : Option Nat)
  | work (env : Env) (i : PdcId) (w : PdcWork)

def Pdsm.call (s : Pdsm) : PdsCall → Pdsm × Rc
  | .txPkt env q => s.txPkt env q
  | .msgCmplInd env m => s.msgCmplInd env m
  | .dropTxPkts h => (s.dropTxPkts h, .ok)
  | .assignTgt sec syn base pending => (s.assignTgt sec syn base pending, .ok)
  | .work env i w => (s.put i (step env (s.pdc i) w.event).1, .ok)

abbrev History := List (PdsCall × Rc)

def Pdsm.history (s : Pdsm) : List PdsCall → Pdsm × History
  | [] => (s, [])
  | c :: cs =>
    let (s', h) := Pdsm.history (s.call c).1 cs
    (s', (c, (s.call c).2) :: h)

def begunStep (m : MsgId) (n : Nat) : PdsCall × Rc → Nat
  | (.txPkt _ q, .ok) =>
    if q.req.pdsInfo ∨ q.req.msgId ≠ m then n
    else (if q.req.som then n + 1 else n) - (if q.req.eom && !q.req.maintainPdc then 1 else 0)
  | (.msgCmplInd _ m', _) => if m' = m then n - 1 else n
  | _ => n

/-- How many starts of a message the caller has made that it has not ended: by an end of
message without `MAINTAIN_PDC`, or by the completion indication. -/
def begun (h : History) (m : MsgId) : Nat := h.foldl (begunStep m) 0

/-! ## The message of a PDC -/

def Pdc.msg (p : Pdc) : Option MsgId := if p.activeMsgIdValid then some p.activeMsgId else none

def KeepsMsg (p p' : Pdc) : Prop := ∀ m, p'.msg = some m → p.msg = some m

section

structure Worked (p p' : Pdc) : Prop where
  msg : KeepsMsg p p'
  calm : p.calm → p'.calm
  held : p.calm → p.activeMsgIdValid = true → p'.activeMsgIdValid = true

theorem Worked.trans {p p' p'' : Pdc} (h : Worked p p') (h' : Worked p' p'') : Worked p p'' :=
  ⟨fun m hm => h.msg m (h'.msg m hm), fun hc => h'.calm (h.calm hc), fun hc hv => h'.held (h.calm hc) (h.held hc hv)⟩

theorem Worked.set {p p' : Pdc} (h : SameMsg p p') : Worked p p' := by
  refine ⟨fun m hm => ?_, h.calm, fun _ hv => h.valid.trans hv⟩
  rw [Pdc.msg, h.valid, h.msgId] at hm
  exact hm

theorem Worked.msg_eq {p p' : Pdc} (h : Worked p p') (hc : p.calm) {m : MsgId} (hm : p.msg = some m) :
    p'.msg = some m := by
  have hv : p.activeMsgIdValid = true := by
    by_contra hv
    rw [Pdc.msg, if_neg hv] at hm
    cases hm
  have hm' : p'.msg = some p'.activeMsgId := if_pos (h.held hc hv)
  rw [hm', ← h.msg _ hm', hm]

variable (env : Env) (p : Pdc)

theorem worked_admits : Admits env Worked where
  trans := Worked.trans
  set h := .set h.toSameMsg
  start _ _ := .set ⟨rfl, rfl, fun h => h⟩
  free _ hr := ⟨fun _ hm => (nomatch hm), fun _ => ⟨nofun, fun _ => rfl, nofun, fun _ hc => hc.elim nofun nofun, nofun⟩,
    fun hc hv => absurd (hc.releasable hr) (Bool.not_eq_false _ ▸ hv)⟩

theorem processNack_worked (pp : ParsedPkt) : Worked p (processNack env p pp).1 := by
  apply (worked_admits env).processNack
  · unfold reestablishStartPsn
    dsimp only
    split
    · exact .set ⟨rfl, rfl, fun h => h⟩
    · split <;> exact .set ⟨rfl, rfl, fun h => h⟩
  · have hest : Worked p (nackEstablish p pp) := by
      unfold nackEstablish
      split
      · exact .set ⟨rfl, rfl, fun h => h.establish⟩
      · exact .set ⟨rfl, rfl, fun h => h⟩
    intro _
    apply hest.trans
    apply (worked_admits env).nackRetx
    · exact fun _ _ _ _ _ => .set ⟨rfl, rfl, fun h => h⟩
    · exact fun _ _ _ _ => .set ⟨rfl, rfl, fun h => h⟩

theorem work_worked (w : PdcWork) : Worked p (step env p w.event).1 := by
  have hadm := worked_admits env
  cases w with
  | rx f => exact hadm.progressRx p f fun _ => processNack_worked env p _
  | progressTxPkt id =>
    simp only [PdcWork.event, step]
    split
    · exact hadm.progressTxPkt p id fun _ _ => .set ⟨rfl, rfl, fun h => h⟩
    · exact hadm.refl p
  | reapPending => exact hadm.reapPending p
  | closeReqTimer => exact hadm.closeReqTimer p

theorem KeepsMsg.none {p p' : Pdc} (h : KeepsMsg p p') (hp : p.msg = none) : p'.msg = none := by
  cases hm : p'.msg with
  | none => rfl
  | some m => cases hp.symm.trans (h m hm)

theorem msgCmplInd_msg : (msgCmplInd env p).1.msg = none := by
  unfold msgCmplInd
  dsimp only
  split
  · exact ((worked_admits env).initiatePdcClose _).msg.none rfl
  · rfl

variable (r : TxReq)

theorem txEndOfMsg_msg : (txEndOfMsg env p r).msg =
    if !r.pdsInfo && r.eom && !r.maintainPdc then none else p.msg := by
  unfold txEndOfMsg
  split
  · dsimp only
    split <;> split <;> rfl
  · rfl

/-- What a packet does to the active message: a start of message that was sent makes its own
active, an end of message leaves none. -/
structure MsgAfter (p : Pdc) (r : TxReq) (x : Pdc × List Out × Rc) : Prop where
  active : ∀ m, x.1.msg = some m →
    p.msg = some m ∨ x.2.2 = .ok ∧ r.pdsInfo = false ∧ r.som = true ∧ m = r.msgId
  ended : x.2.2 = .ok → (!r.pdsInfo && r.eom && !r.maintainPdc) = true → x.1.msg = none

theorem MsgAfter.same (outs : List Out) {rc : Rc} (h : rc ≠ .ok) : MsgAfter p r (p, outs, rc) :=
  ⟨fun _ hm => Or.inl hm, fun hok => absurd hok h⟩

theorem txSend_msg : MsgAfter p r (txSend env p r) := by
  unfold txSend
  dsimp only
  split
  · exact .same p r [] (by decide)
  split
  · refine ⟨fun m hm => ?_, fun hok => by cases hok⟩
    unfold unmapMsg at hm
    split at hm
    · cases hm
    · exact Or.inl hm
  · have hclose := ((worked_admits env).txClose (txEndOfMsg env (mapMsg (sentReq env p r) r) r)).msg
    have hend := txEndOfMsg_msg env (mapMsg (sentReq env p r) r) r
    refine ⟨fun m hm => ?_, fun _ he => hclose.none (hend.trans (if_pos he))⟩
    have hm := hclose m hm
    rw [hend] at hm
    split at hm
    · cases hm
    unfold mapMsg at hm
    split at hm
    · rename_i hsom
      have hsom : r.pdsInfo = false ∧ r.som = true := by simpa using hsom
      exact Or.inr ⟨rfl, hsom.1, hsom.2, (Option.some.inj hm).symm⟩
    · exact Or.inl hm

theorem txPkt_msg : MsgAfter p r (txPkt env p r) := by
  unfold txPkt
  cases txLookup p r with
  | again => exact .same p r [] (by decide)
  | err => exact .same p r [] (by decide)
  | ok =>
    dsimp only
    split
    · exact .same p r [] (by decide)
    split
    · exact .same p r [] (by decide)
    split
    · exact .same p r [] (by decide)
    · split
      · exact .same p r [] (by decide)
      · split
        · exact .same p r [] (by decide)
        · exact txSend_msg env p r

end

/-! ## Begun messages -/

/-- The active message of a PDC is mapped to it, and a message is mapped no more often than
it is begun. -/
structure Mapped (s : Pdsm) (n : MsgId → Nat) : Prop where
  active : ∀ i m, (s.pdc i).msg = some m → (m, i) ∈ s.msgidHt
  begun : ∀ m, s.msgidHt.countP (·.1 == m) ≤ n m

namespace Mapped

variable {s : Pdsm} {n : MsgId → Nat} {i : PdcId}

theorem pdc_put (i : PdcId) (p : Pdc) (s : Pdsm) : (s.put i p).pdc = update s.pdc i p := by
  unfold Pdsm.put
  split <;> rfl

theorem msgidHt_put (i : PdcId) (p : Pdc) (s : Pdsm) : (s.put i p).msgidHt = s.msgidHt := by
  unfold Pdsm.put
  split <;> rfl

section

variable (h : Mapped s n)
include h

theorem put {p : Pdc} (hp : KeepsMsg (s.pdc i) p) : Mapped (s.put i p) n := by
  refine ⟨fun j m hm => ?_, fun m => ?_⟩
  · rw [msgidHt_put]
    rw [pdc_put] at hm
    by_cases hj : j = i
    · subst hj
      rw [update_self] at hm
      exact h.active j m (hp m hm)
    · rw [update_of_ne hj] at hm
      exact h.active j m hm
  · rw [msgidHt_put]
    exact h.begun m

theorem filter_le (f : MsgId × PdcId → Bool) (m : MsgId) : (s.msgidHt.filter f).countP (·.1 == m) ≤ n m :=
  le_trans (Sublist.countP_le filter_sublist) (h.begun m)

theorem discardPdc (i : PdcId) : Mapped (s.discardPdc i) n := by
  unfold Pdsm.discardPdc
  refine ⟨fun j m hm => ?_, fun m => ?_⟩
  · rw [pdc_put] at hm
    by_cases hj : j = i
    · subst hj
      rw [update_self] at hm
      cases hm
    rw [update_of_ne hj] at hm
    rw [msgidHt_put, mem_filter]
    exact ⟨h.active j m hm, by simpa using hj⟩
  · rw [msgidHt_put]
    exact h.filter_le _ m

theorem allocIni (q : TxArgs) : Mapped (s.allocIni q).1 n := by
  unfold Pdsm.allocIni
  cases s.free with
  | nil => exact h
  | cons i free =>
    refine ⟨fun j m hm => ?_, h.begun⟩
    by_cases hj : j = i
    · subst hj
      simp only [update_self] at hm
      cases hm
    · simp only [update_of_ne hj] at hm
      exact h.active j m hm

theorem resolve (q : TxArgs) : Mapped (s.resolve q).1 n := by
  unfold Pdsm.resolve Pdsm.assignIni
  split
  · exact h
  split
  · cases s.iniHt.lookup q.key with
    | none => exact h.allocIni q
    | some i =>
      dsimp only
      split
      · exact (h.discardPdc i).allocIni q
      · split <;> exact h
  · exact h

end

theorem mem_unmap {m m' : MsgId} {i j : PdcId} (hl : s.getMsgidPdc m = some i)
    (hmem : (m', j) ∈ s.msgidHt) (hne : ¬ (m' = m ∧ j = i)) : (m', j) ∈ (s.unmapMsgid m).msgidHt := by
  unfold Pdsm.getMsgidPdc at hl
  unfold Pdsm.unmapMsgid
  generalize s.msgidHt = ht at hl hmem ⊢
  induction ht with
  | nil => cases hmem
  | cons e es ih =>
    obtain ⟨k, v⟩ := e
    by_cases hk : k = m
    · subst hk
      rw [lookup_cons_self, Option.some.injEq] at hl
      subst hl
      rw [eraseP_cons_of_pos (by simp)]
      rcases mem_cons.1 hmem with heq | hmem
      · cases heq
        exact absurd ⟨rfl, rfl⟩ hne
      · exact hmem
    · rw [eraseP_cons_of_neg (by simpa using hk)]
      have hl : es.lookup m = some i := by
        rw [lookup_cons] at hl
        simpa [beq_eq_false_iff_ne.2 (Ne.symm hk)] using hl
      rcases mem_cons.1 hmem with heq | hmem
      · rw [heq]
        exact mem_cons_self ..
      · exact mem_cons_of_mem _ (ih hl hmem)

theorem countP_unmap (s : Pdsm) (m m' : MsgId) :
    (s.unmapMsgid m).msgidHt.countP (·.1 == m') = s.msgidHt.countP (·.1 == m') - if m = m' then 1 else 0 := by
  unfold Pdsm.unmapMsgid
  induction s.msgidHt with
  | nil => simp
  | cons e es ih =>
    obtain ⟨k, v⟩ := e
    by_cases hk : k = m
    · subst hk
      rw [eraseP_cons_of_pos (by simp), countP_cons]
      by_cases hm : k = m' <;> simp [hm]
    rw [eraseP_cons_of_neg (by simpa using hk), countP_cons, countP_cons, ih]
    by_cases hm : m = m'
    · subst hm
      simp [hk]
    · simp [hm]

section

variable (h : Mapped s n)
include h

theorem unmapMsgid {m : MsgId} (hl : s.getMsgidPdc m = some i) (hi : (s.pdc i).msg = none) :
    Mapped (s.unmapMsgid m) fun m' => n m' - if m = m' then 1 else 0 := by
  refine ⟨fun j m' hm => ?_, fun m' => ?_⟩
  · refine mem_unmap hl (h.active j m' hm) fun hc => ?_
    obtain ⟨rfl, rfl⟩ := hc
    cases hi.symm.trans hm
  · rw [countP_unmap]
    exact Nat.sub_le_sub_right (h.begun m') _

/-- The packet of a message was sent on the PDC that `resolve` found. -/
theorem sent {q : TxArgs} {p : Pdc} {outs : List Out}
    (hr : q.req.pdsInfo = false → q.req.som = false → s.getMsgidPdc q.req.msgId = some i)
    (hp : MsgAfter (s.pdc i) q.req (p, outs, .ok)) (c : Env) :
    Mapped ((s.put i p).noteMsg q.req i) fun m => begunStep m (n m) (.txPkt c q, .ok) := by
  cases hinfo : q.req.pdsInfo with
  | true =>
    simp only [Pdsm.noteMsg, begunStep, hinfo, if_true, true_or]
    refine h.put fun m hm => (hp.active m hm).resolve_right fun hc => ?_
    cases hinfo.symm.trans hc.2.1
  | false =>
    simp only [Pdsm.noteMsg, begunStep, hinfo, Bool.false_eq_true, if_false, false_or]
    -- the start of a message makes the mapping, whatever it is the end of
    have hstart : Mapped (if q.req.som then (s.put i p).mapMsgid q.req.msgId i else s.put i p)
        fun m => n m + if q.req.som = true ∧ q.req.msgId = m then 1 else 0 := by
      cases hsom : q.req.som with
      | false =>
        simp only [Bool.false_eq_true, if_false, false_and, add_zero]
        refine h.put fun m hm => (hp.active m hm).resolve_right fun hc => ?_
        cases hsom.symm.trans hc.2.2.1
      | true =>
        simp only [if_true, true_and]
        refine ⟨fun j m hm => ?_, fun m => ?_⟩
        · simp only [Pdsm.mapMsgid, msgidHt_put, mem_cons, Prod.mk.injEq]
          simp only [Pdsm.mapMsgid, pdc_put] at hm
          by_cases hj : j = i
          · subst hj
            rw [update_self] at hm
            rcases hp.active m hm with hold | ⟨-, -, -, rfl⟩
            · exact Or.inr (h.active j m hold)
            · exact Or.inl ⟨rfl, rfl⟩
          · rw [update_of_ne hj] at hm
            exact Or.inr (h.active j m hm)
        · have hle := h.begun m
          simp only [Pdsm.mapMsgid, msgidHt_put, countP_cons]
          by_cases hm : q.req.msgId = m <;> simp [hm] <;> omega
    have hcount : ∀ m, (if q.req.msgId ≠ m then n m
        else (if q.req.som then n m + 1 else n m) - if q.req.eom && !q.req.maintainPdc then 1 else 0)
        = (n m + if q.req.som = true ∧ q.req.msgId = m then 1 else 0)
          - if (q.req.eom && !q.req.maintainPdc) = true ∧ q.req.msgId = m then 1 else 0 := by
      intro m
      by_cases hm : q.req.msgId = m
      · cases q.req.som <;> simp [hm]
      · simp [hm]
    simp only [hcount]
    cases hend : q.req.eom && !q.req.maintainPdc with
    | false => simpa using hstart
    | true =>
      simp only [if_true, true_and]
      refine hstart.unmapMsgid (i := i) ?_ ?_
      · cases hsom : q.req.som with
        | true => simp [Pdsm.getMsgidPdc, Pdsm.mapMsgid]
        | false =>
          simp only [Bool.false_eq_true, if_false, Pdsm.getMsgidPdc, msgidHt_put]
          exact hr hinfo hsom
      · have hnone : p.msg = none := hp.ended rfl (by rw [hinfo]; simpa using hend)
        split <;> simp [Pdsm.mapMsgid, pdc_put, hnone]

theorem txPkt (env : Env) (q : TxArgs) :
    Mapped (s.txPkt env q).1 fun m => begunStep m (n m) (.txPkt env q, (s.txPkt env q).2) := by
  unfold Pdsm.txPkt
  split
  · exact h
  have hres := h.resolve q
  have hlook := @Pdsm.resolve_lookup s q
  generalize s.resolve q = x at hres hlook ⊢
  obtain ⟨s1, o⟩ := x
  cases o with
  | none => exact hres
  | some i =>
    have hmsg := txPkt_msg env (s1.pdc i) q.req
    dsimp only at hres ⊢
    generalize Pds.txPkt env (s1.pdc i) q.req = y at hmsg ⊢
    obtain ⟨p, outs, rc⟩ := y
    have hkeep : rc ≠ .ok → KeepsMsg (s1.pdc i) p := fun hne m hm =>
      (hmsg.active m hm).resolve_right fun hc => hne hc.1
    cases rc with
    | ok => exact hres.sent (fun h1 h2 => hlook h1 h2 i rfl) hmsg env
    | again => exact hres.put (hkeep (by decide))
    | err => exact hres.put (hkeep (by decide))

theorem msgCmplInd (env : Env) (m : MsgId) :
    Mapped (s.msgCmplInd env m).1 fun m' => begunStep m' (n m') (.msgCmplInd env m, (s.msgCmplInd env m).2) := by
  have hn : ∀ m' rc, begunStep m' (n m') (.msgCmplInd env m, rc) = n m' - if m = m' then 1 else 0 := by
    intro m' rc
    by_cases hm : m = m' <;> simp [begunStep, hm]
  simp only [hn]
  unfold Pdsm.msgCmplInd
  cases hl : s.getMsgidPdc m with
  | none =>
    refine ⟨h.active, fun m' => ?_⟩
    by_cases hm : m = m'
    · subst hm
      have hzero : s.msgidHt.countP (·.1 == m) = 0 := by
        rw [countP_eq_zero]
        intro e he hk
        rw [Pdsm.getMsgidPdc, lookup_eq_none_iff] at hl
        have hne := hl e he
        rw [beq_iff_eq.1 hk] at hne
        simp at hne
      dsimp only
      omega
    · simpa [hm] using h.begun m'
  | some i =>
    have hput : Mapped (s.put i (Pds.msgCmplInd env (s.pdc i)).1) n :=
      h.put fun m' hm => by rw [msgCmplInd_msg] at hm; cases hm
    refine hput.unmapMsgid (i := i) ?_ ?_
    · rw [Pdsm.getMsgidPdc, msgidHt_put]
      exact hl
    · rw [pdc_put, update_self]
      exact msgCmplInd_msg env (s.pdc i)

theorem call (c : PdsCall) : Mapped (s.call c).1 fun m => begunStep m (n m) (c, (s.call c).2) := by
  cases c with
  | txPkt => exact h.txPkt ..
  | msgCmplInd => exact h.msgCmplInd ..
  | dropTxPkts hd =>
    refine ⟨fun i m hm => h.active i m ?_, h.begun⟩
    simp only [Pdsm.call, Pdsm.dropTxPkts] at hm
    split at hm <;> exact hm
  | assignTgt sec syn base pending =>
    simp only [Pdsm.call, Pdsm.assignTgt, begunStep]
    cases s.free with
    | nil => exact h
    | cons i free =>
      refine ⟨fun j m hm => ?_, h.begun⟩
      by_cases hj : j = i
      · subst hj
        simp only [update_self] at hm
        cases pending <;> cases hm
      · simp only [update_of_ne hj] at hm
        exact h.active j m hm
  | work env i w => exact h.put (work_worked env (s.pdc i) w).msg

theorem history (cs : List PdsCall) :
    Mapped (s.history cs).1 fun m => (s.history cs).2.foldl (begunStep m) (n m) := by
  induction cs generalizing s n with
  | nil => exact h
  | cons c cs ih => exact ih (h.call c)

end

theorem init : Mapped Pdsm.init fun _ => 0 := ⟨fun _ _ hm => (nomatch hm), fun _ => le_refl 0⟩

end Mapped

/-! ## Refusals -/

def Pdc.takesMsgs (p : Pdc) : Bool :=
  p.isInitiator && p.state != .unalloc && p.state != .error && !p.closeRequested

theorem newIniPdc_allowed (slot : Pdc) (sec : Bool) (src dst : Fa) (psn : Psn) :
    txPsnAllowed (newIniPdc slot sec src dst psn).tx (newIniPdc slot sec src dst psn).tx.nextPsn = true := by
  have hdiff : psn - (psn - 1 + BitVec.ofNat 32 mpRange) = BitVec.ofInt 32 (-127) := by
    simp only [mpRange]
    bv_omega
  have hnot : psnAfter psn (psn - 1 + BitVec.ofNat 32 mpRange) = false := by
    simp only [psnAfter, psnOffset, Serial.sdist, hdiff]
    decide
  simp only [txPsnAllowed, newIniPdc, getSdi, initPdc, psnInMpr, BitVec.sub_self, hnot]
  decide

section

variable {s : Pdsm} {env : Env} {q : TxArgs}

theorem txPkt_again {p : Pdc} (hinfo : q.req.pdsInfo = false) (hsom : q.req.som = true)
    (h : (txPkt env p q.req).2.2 = .again) :
    p.takesMsgs = false ∨ (∃ m, p.msg = some m) ∨ txPsnAllowed p.tx p.tx.nextPsn = false := by
  unfold txPkt txLookup at h
  rw [if_neg (by rw [hinfo]; exact Bool.false_ne_true), if_pos hsom] at h
  by_cases huse : (!p.isInitiator || p.state == .unalloc || p.closeRequested) = true
  · refine Or.inl ?_
    unfold Pdc.takesMsgs
    cases hi : p.isInitiator <;> cases hc : p.closeRequested <;> simp_all
  rw [if_neg huse] at h
  by_cases hact : p.activeMsgIdValid = true
  · exact Or.inr (Or.inl ⟨p.activeMsgId, if_pos hact⟩)
  rw [if_neg hact] at h
  refine Or.inr (Or.inr ?_)
  by_contra hwin
  have hwin : txPsnAllowed p.tx p.tx.nextPsn = true := by simpa using hwin
  dsimp only at h
  split at h
  · cases h
  split at h
  · cases h
  rw [hwin] at h
  simp only [Bool.not_true, Bool.false_eq_true, if_false, hsom, Bool.false_and] at h
  split at h
  · cases h
  unfold txSend at h
  dsimp only at h
  split at h
  · cases h
  · split at h <;> cases h

theorem Pdsm.allocIni_takes (hinfo : q.req.pdsInfo = false) (hsom : q.req.som = true) {i : PdcId}
    (hi : (s.allocIni q).2 = some i) : (Pds.txPkt env ((s.allocIni q).1.pdc i) q.req).2.2 ≠ .again := by
  intro hag
  unfold Pdsm.allocIni at hi hag
  cases hf : s.free with
  | nil =>
    simp only [hf] at hi
    cases hi
  | cons j free =>
    simp only [hf, Option.some.injEq] at hi hag
    subst hi
    rw [update_self] at hag
    rcases txPkt_again hinfo hsom hag with h1 | ⟨m, h2⟩ | h3
    · cases h1
    · cases h2
    · rw [newIniPdc_allowed] at h3
      cases h3

theorem Pdsm.allocIni_none (h : (s.allocIni q).2 = none) : s.free = [] := by
  unfold Pdsm.allocIni at h
  cases hf : s.free with
  | nil => rfl
  | cons i free =>
    simp only [hf] at h
    cases h

theorem Pdsm.txPkt_again (hinfo : q.req.pdsInfo = false) (hsom : q.req.som = true)
    (h : (s.txPkt env q).2 = .again) :
    s.free = [] ∨ ∃ i, s.iniHt.lookup q.key = some i ∧
      ((s.pdc i).takesMsgs = false ∨ (∃ m, (s.pdc i).msg = some m) ∨
        txPsnAllowed (s.pdc i).tx (s.pdc i).tx.nextPsn = false) := by
  have hon : (s.resolve q).2 = none ∨ ∃ i, (s.resolve q).2 = some i ∧
      (Pds.txPkt env ((s.resolve q).1.pdc i) q.req).2.2 = .again := by
    unfold Pdsm.txPkt at h
    split at h
    · cases h
    generalize s.resolve q = x at h ⊢
    obtain ⟨s1, o⟩ := x
    cases o with
    | none => exact Or.inl rfl
    | some i =>
      refine Or.inr ⟨i, rfl, ?_⟩
      dsimp only at h ⊢
      generalize Pds.txPkt env (s1.pdc i) q.req = y at h ⊢
      obtain ⟨p, outs, rc⟩ := y
      cases rc with
      | ok => cases h
      | again => rfl
      | err => cases h
  have hres : s.resolve q = s.assignIni q := by
    simp [Pdsm.resolve, hinfo, hsom]
  rw [hres] at hon
  unfold Pdsm.assignIni at hon
  cases hl : s.iniHt.lookup q.key with
  | none =>
    simp only [hl] at hon
    rcases hon with hnone | ⟨i, hi, hag⟩
    · exact Or.inl (Pdsm.allocIni_none hnone)
    · exact absurd hag (Pdsm.allocIni_takes hinfo hsom hi)
  | some i =>
    simp only [hl] at hon
    refine Or.inr ⟨i, rfl, ?_⟩
    by_cases herr : (s.pdc i).state = .error
    · exact Or.inl (by simp [Pdc.takesMsgs, herr])
    rw [if_neg herr] at hon
    by_cases hcl : (s.pdc i).closeRequested = true
    · exact Or.inl (by simp [Pdc.takesMsgs, hcl])
    rw [if_neg hcl] at hon
    rcases hon with hnone | ⟨j, hj, hag⟩
    · cases hnone
    · cases hj
      exact Pds.txPkt_again hinfo hsom hag

end

end Uet.Pds
