import Uet.Pds.Admits
import Uet.Pds.AckUpcall

/-!
# The timeout sweep

`uet_pds_progress_tx` visits the pending list of every PDC from its head and leaves it at the first packet that needs
nothing. It thus relies on the order of the list: a packet that is sent or sent again goes to the end, with the time of the
step. The order is kept as long as the clock does not go back and no packet is stamped where it stands, which happens
when the NIC refuses what a NACK asks for. A packet that a reduced window blocks ends the visit as well.
-/

namespace Uet.Pds

open List

/-! ## The order of the pending list -/

/-- What was pending and still is keeps its order, and what is sent at `now` follows it. -/
def Aged (now : Nat) (tx tx' : TxSide) : Prop :=
  ∃ kept n, tx'.times = kept ++ List.replicate n now ∧ kept.Sublist tx.times

variable {tx tx' : TxSide}

theorem Aged.of_sublist {now : Nat} (h : tx'.times.Sublist tx.times) : Aged now tx tx' :=
  ⟨_, 0, (append_nil _).symm, h⟩

theorem Aged.of_now {now : Nat} (h : ∀ t ∈ tx'.times, t = now) : Aged now tx tx' :=
  ⟨[], _, eq_replicate_of_mem h, nil_sublist _⟩

theorem Aged.trans {now : Nat} {a b c : TxSide} (h : Aged now a b) (h' : Aged now b c) : Aged now a c := by
  obtain ⟨k, n, hb, hk⟩ := h
  obtain ⟨k', n', hc, hk'⟩ := h'
  rw [hb] at hk'
  obtain ⟨l, r, rfl, hl, hr⟩ := sublist_append_iff.mp hk'
  obtain ⟨m, -, rfl⟩ := sublist_replicate_iff.mp hr
  exact ⟨l, m + n', by rw [hc, append_assoc, replicate_append_replicate], hl.trans hk⟩

def TxSide.Ordered (now : Nat) (tx : TxSide) : Prop := tx.times.Pairwise (· ≤ ·) ∧ ∀ t ∈ tx.times, t ≤ now

theorem TxSide.Ordered.aged {now now' : Nat} (h : tx.Ordered now) (hle : now ≤ now')
    (ha : Aged now' tx tx') : tx'.Ordered now' := by
  obtain ⟨kept, n, heq, hs⟩ := ha
  have hpast : ∀ t ∈ kept, t ≤ now' := fun t ht => (h.2 t (hs.subset ht)).trans hle
  unfold TxSide.Ordered
  rw [heq]
  constructor
  · refine pairwise_append.mpr ⟨h.1.sublist hs, pairwise_replicate_of_refl, fun a ha b hb => ?_⟩
    rw [eq_of_mem_replicate hb]
    exact hpast a ha
  · intro t ht
    rcases mem_append.mp ht with ht | ht
    · exact hpast t ht
    · exact (eq_of_mem_replicate ht).le

theorem times_tracked {tx : TxSide} (hnew : tx.nextId ∉ tx.txPktList) (pkt : TxPkt) :
    (trackPkt tx pkt).times = tx.times ++ [pkt.txTime] := by
  have hpkts : ∀ j, (trackPkt tx pkt).pkts j = if j = tx.nextId then some pkt else tx.pkts j := fun _ => rfl
  show (tx.txPktList ++ [tx.nextId]).filterMap _ = _
  rw [filterMap_append]
  congr 1
  · apply filterMap_congr
    intro j hj
    rw [hpkts, if_neg (ne_of_mem_of_not_mem hj hnew)]
  · rw [filterMap_cons, hpkts, if_pos rfl]
    rfl

theorem aged_admits (env : Env) : Admits env fun p p' => Aged env.now p.tx p'.tx where
  trans := Aged.trans
  set h := .of_sublist h.times
  start ct hl := by
    apply Aged.of_now
    intro t ht
    rw [times_tracked (by rw [hl]; exact not_mem_nil), TxSide.times, hl] at ht
    exact mem_singleton.mp ht
  free _ _ := .of_sublist (nil_sublist _)

variable {f : TxPkt → TxPkt}

section

variable {env : Env} {p : Pdc}

theorem relinked_aged (hnd : p.tx.txPktList.Nodup) (id : PktId) (hf : ∀ k, (f k).txTime = env.now) :
    Aged env.now p.tx (p.relinked id f).tx := by
  have hpkts : ∀ j, (p.relinked id f).tx.pkts j = if j = id then (p.tx.pkts id).map f else p.tx.pkts j := fun _ => rfl
  have hkept : (p.tx.txPktList.erase id).filterMap (fun j => ((p.relinked id f).tx.pkts j).map (·.txTime)) =
      (p.tx.txPktList.erase id).filterMap fun j => (p.tx.pkts j).map (·.txTime) := by
    apply filterMap_congr
    intro j hj
    rw [hpkts, if_neg (hnd.mem_erase_iff.mp hj).1]
  have hlast : [id].filterMap (fun j => ((p.relinked id f).tx.pkts j).map (·.txTime)) =
      replicate (p.tx.pkts id).toList.length env.now := by
    rw [filterMap_cons, hpkts, if_pos rfl]
    cases p.tx.pkts id with
    | none => rfl
    | some => exact congrArg (fun t => [t]) (hf ..)
  refine ⟨_, (p.tx.pkts id).toList.length, ?_, (erase_sublist (a := id)).filterMap _⟩
  show (p.tx.txPktList.erase id ++ [id]).filterMap _ = _
  rw [filterMap_append, hkept, hlast]

def resendRefused (env : Env) (p : Pdc) : Event → Bool
  | .rx f => (parsePkt f).pdsType == .nack && nackAsks p (parsePkt f) && nackRefused env p (parsePkt f)
  | _ => false

theorem processNack_aged (hinv : TxInv p.tx) (pp : ParsedPkt) (hgo : nackAsks p pp = true → nackRefused env p pp = false) :
    Aged env.now p.tx (processNack env p pp).1.tx := by
  apply (aged_admits env).processNack
  · rcases reestablishStartPsn_cases env p pp.payload hinv with heq | ⟨-, heq, -⟩
    · rw [heq]
      exact .of_sublist (.refl _)
    · rw [heq]
      apply Aged.of_now
      intro t ht
      obtain ⟨id, hid, hk⟩ := mem_filterMap.mp ht
      have hpkt : (rebased env (pp.payload - p.startPsn) p.tx).pkts id =
          (p.tx.pkts id).map (restamp env (pp.payload - p.startPsn)) := if_pos hid
      rw [hpkt, Option.map_map] at hk
      obtain ⟨k, -, rfl⟩ := Option.map_eq_some_iff.mp hk
      rfl
  · intro hasks
    have hsame : (nackEstablish p pp).tx = p.tx ∧ nackRefused env (nackEstablish p pp) pp = nackRefused env p pp := by
      unfold nackEstablish
      split <;> exact ⟨rfl, rfl⟩
    rw [← hsame.1] at hinv ⊢
    apply (aged_admits env).nackRetx
    · exact fun id f _ _ hf => relinked_aged hinv.nodup id hf
    · intro id f hrefused
      rw [hsame.2, hgo hasks] at hrefused
      cases hrefused

theorem step_aged (hinv : TxInv p.tx) (e : Event) (hgo : resendRefused env p e = false) :
    Aged env.now p.tx (step env p e).1.tx := by
  have hadm := aged_admits env
  cases e with
  | rx f =>
    apply hadm.progressRx
    intro ht
    apply processNack_aged hinv
    intro hasks
    rw [resendRefused, ht, hasks] at hgo
    exact hgo
  | txPkt r =>
    have hnew : p.tx.nextId ∉ p.tx.txPktList := by
      intro hmem
      obtain ⟨k, hk, -⟩ := (hinv.listed _).mp hmem
      exact absurd (hinv.fresh _ k hk) (lt_irrefl _)
    have hsent : Aged env.now p.tx (txEndOfMsg env (mapMsg (sentReq env p r) r) r).tx := by
      have htx : (txEndOfMsg env (mapMsg (sentReq env p r) r) r).tx = (sentReq env p r).tx := by
        unfold txEndOfMsg mapMsg
        dsimp only
        split_ifs <;> rfl
      rw [htx]
      exact ⟨_, 1, times_tracked hnew _, .refl _⟩
    have hsend : Aged env.now p.tx (txSend env p r).1.tx := by
      unfold txSend
      dsimp only
      split
      · exact hadm.refl p
      split
      · unfold unmapMsg
        split <;> exact hadm.refl p
      · exact hsent.trans (hadm.txClose _)
    show Aged env.now p.tx (txPkt env p r).1.tx
    unfold txPkt
    split
    · split_ifs
      all_goals first | exact hsend | exact hadm.refl p
    · exact hadm.refl p
  | progressTxPkt id =>
    simp only [step]
    split
    · exact hadm.progressTxPkt p id fun f hf => relinked_aged hinv.nodup id hf
    · exact hadm.refl p
  | dropTxPkts h =>
    simp only [step]
    split
    · exact .of_sublist (dropTxPkts_times h p.tx)
    · exact hadm.refl p
  | msgCmplInd =>
    simp only [step, msgCmplInd]
    split
    · exact hadm.initiatePdcClose { p with activeMsgId := 0, activeMsgIdValid := false }
    · exact hadm.refl p
  | reapPending => exact hadm.reapPending p
  | closeReqTimer => exact hadm.closeReqTimer p

end

/-- A PDC at time `now`, after a run in which the clock has not gone back and the NIC has refused no packet that a NACK asked
for. -/
inductive Reached : Nat → Pdc → Prop where
  | handout (now : Nat) (slot : Pdc) (sec : Bool) (h : Handout) : Reached now (h.pdc slot sec)
  | wait {now now' : Nat} {p : Pdc} (h : Reached now p) (hle : now ≤ now') : Reached now' p
  | step {p : Pdc} (env : Env) (e : Event) (h : Reached env.now p) (hgo : resendRefused env p e = false) :
    Reached env.now (step env p e).1

namespace Reached

variable {now : Nat} {p : Pdc}

theorem sound (h : Reached now p) : (∃ log, Acct none log p.tx) ∧ p.released ∧ p.tx.Ordered now := by
  induction h with
  | handout now slot sec h =>
    have hl : (h.pdc slot sec).tx.times = [] := by
      cases h with
      | ini l q s => rfl
      | tgt syn base pending => cases pending <;> rfl
    refine ⟨⟨[], Handout.acct slot sec h⟩, Handout.released slot sec h, ?_⟩
    rw [TxSide.Ordered, hl]
    exact ⟨.nil, nofun⟩
  | wait h hle ih => exact ⟨ih.1, ih.2.1, ih.2.2.1, fun t ht => (ih.2.2.2 t ht).trans hle⟩
  | step env e h hgo ih =>
    obtain ⟨⟨log, hacct⟩, hrel, hord⟩ := ih
    obtain ⟨hacct', hrel'⟩ := hacct.run hrel [(env, e)]
    exact ⟨⟨_, hacct'⟩, hrel', hord.aged le_rfl (step_aged hacct.inv e hgo)⟩

theorem inv (h : Reached now p) : TxInv p.tx := h.sound.1.choose_spec.inv

theorem ordered (h : Reached now p) : p.tx.Ordered now := h.sound.2.2

end Reached

/-! ## The sweep -/

/-- How the visit of a pending list ends: at its end or at a packet that needs nothing, or with `-EPROTO` for a packet of
this handle. -/
inductive SweepRc where
  | done
  | failed (h : Option Handle)
  deriving DecidableEq, Repr

/-- The return code of `uet_pds_check_rtx_pkt` for a packet on the list. -/
def visitRc (env : Env) (p : Pdc) (id : PktId) : Rc := ((p.tx.pkts id).map fun k => (checkRtxPkt env p id k).2.2).getD .ok

/-- The entry behind `id`. -/
def nextOf (id : PktId) : List PktId → Option PktId
  | [] => none
  | j :: l => if j = id then l.head? else nextOf id l

/-- The inner loop of `uet_pds_progress_tx` from the packet `id` on, for `fuel` visits at most. The next entry is taken before
the packet is moved to the end. -/
def sweepPkts (env : Env) : Nat → Pdc → Option PktId → Option (Pdc × List Out × SweepRc)
  | _, p, none => some (p, [], .done)
  | 0, _, some _ => none
  | fuel + 1, p, some id =>
    let (q, outs) := progressTxPkt env p id
    match visitRc env p id with
    | .ok => some (q, outs, .done)
    | .err => some (q, outs, .failed (p.tx.handle id))
    | .again =>
      match sweepPkts env fuel q (nextOf id p.tx.txPktList) with
      | none => none
      | some (r, outs', rc) => some (r, outs ++ outs', rc)

/-- One PDC in `uet_pds_progress_tx`: the two timers, then the pending list. -/
def progressPdc (env : Env) (fuel : Nat) (p : Pdc) : Option (Pdc × List Out × SweepRc) :=
  if p.state == .pending then
    let (q, outs) := reapPending env p
    some (q, outs, .done)
  else if !p.isInitiator && p.closeStarted && p.closeReqTime != 0 &&
      decide (p.closeReqTime + env.cfg.closeReqTimeMs < env.now) then
    let (q, outs) := closePdcInError env p
    some (q, outs, .done)
  else sweepPkts env fuel p p.tx.txPktList.head?

/-- `uet_pds_drop_tx_pkts` for the message of a failed packet. -/
def dropFailed (h : Option Handle) (p : Pdc) : Pdc × List Out :=
  match h with
  | none => (p, [])
  | some h =>
    let (tx, outs) := dropTxPkts h p.tx
    ({ p with tx }, outs)

/-- `uet_pds_progress_tx` over the PDCs of `pdc_alloc_head`, with what is done for each. -/
def progressTx (env : Env) (fuel : Nat) : List Pdc → Option (List (Pdc × List Out) × SweepRc)
  | [] => some ([], .done)
  | p :: ps =>
    match progressPdc env fuel p with
    | none => none
    | some (q, outs, .failed h) => some ((q, outs) :: ps.map (dropFailed h), .failed h)
    | some (q, outs, .done) =>
      match progressTx env fuel ps with
      | none => none
      | some (rs, .done) => some ((q, outs) :: rs, .done)
      | some (rs, .failed h) =>
        let (q, outs') := dropFailed h q
        some ((q, outs ++ outs') :: rs, .failed h)

/-! ## What the sweep sends -/

def TxPkt.old (env : Env) (k : TxPkt) : Bool := !k.txPktAcked && decide (k.txTime + env.cfg.txTimeout ≤ env.now)

/-- An un-ACKed packet whose time is over, and that is reported as received or allowed by the window. -/
def due (env : Env) (tx : TxSide) (id : PktId) : Bool :=
  (tx.pkts id).any fun k => k.old env && (k.dstRecvd || txPsnAllowed tx k.psn)

def blocked (env : Env) (tx : TxSide) (id : PktId) : Bool :=
  (tx.pkts id).any fun k => k.old env && !(k.dstRecvd || txPsnAllowed tx k.psn)

def Clear (env : Env) (p : Pdc) : Prop :=
  (p.state = .pending → ∀ id ∈ p.tx.txPktList, due env p.tx id = false) ∧
    p.tx.txPktList.Pairwise fun a b => blocked env p.tx a = true → due env p.tx b = false

def Answered (p : Pdc) (id : PktId) (outs : List Out) : Prop :=
  ∃ k, p.tx.pkts id = some k ∧ (.tx (p.frame (setRetx k.hdr)) ∈ outs ∨
    .tx (p.frame (.ctrl (p.ctrlHdr .ackReq false k.psn (k.msgId.setWidth 32)))) ∈ outs)

section

variable {env : Env} {p : Pdc} {id : PktId}

theorem rtxPkt_open (id : PktId) {k : TxPkt} (hopen : (k.dstRecvd || txPsnAllowed p.tx k.psn) = true)
    (hmax : k.txRetryCnt < env.cfg.maxTxRetries) :
    (rtxPkt env p id k).2.2 = .err ∨ ∃ f outs, rtxPkt env p id k = (p.restamped id f, outs, .ok) ∧
      (f k).txRetryCnt = k.txRetryCnt + 1 ∧ (.tx (p.frame (setRetx k.hdr)) ∈ outs ∨
        .tx (p.frame (.ctrl (p.ctrlHdr .ackReq false k.psn (k.msgId.setWidth 32)))) ∈ outs) := by
  rw [rtxPkt, decide_eq_true hmax, Bool.and_true]
  cases hrecvd : k.dstRecvd with
  | true =>
    rw [if_pos rfl, sendUntrackedCtrl, sendFrame]
    cases env.nic (p.frame (.ctrl (p.ctrlHdr .ackReq false k.psn (k.msgId.setWidth 32)))) with
    | false => exact .inl rfl
    | true => exact .inr ⟨_, _, rfl, rfl, .inr (mem_singleton.mpr rfl)⟩
  | false =>
    rw [hrecvd, Bool.false_or] at hopen
    rw [if_neg Bool.false_ne_true, hopen, if_neg (by decide)]
    dsimp only
    split
    · rw [modPkt_modPkt]
      exact .inr ⟨_, _, rfl, rfl, .inl (mem_singleton.mpr rfl)⟩
    · exact .inl rfl

theorem visit_cases (env : Env) {k : TxPkt} (hk : p.tx.pkts id = some k) (hun : k.txPktAcked = false) :
    visitRc env p id = .ok ∧ due env p.tx id = false ∧ (k.old env = true → blocked env p.tx id = true) ∨
    visitRc env p id = .err ∨
    visitRc env p id = .again ∧ Answered p id (progressTxPkt env p id).2 ∧ k.txRetryCnt < env.cfg.maxTxRetries ∧
      ∃ f, (progressTxPkt env p id).1 = p.relinked id f ∧ (f k).txRetryCnt = k.txRetryCnt + 1 := by
  have hdue : due env p.tx id = (k.old env && (k.dstRecvd || txPsnAllowed p.tx k.psn)) := by rw [due, hk]; rfl
  have hblocked : blocked env p.tx id = (k.old env && !(k.dstRecvd || txPsnAllowed p.tx k.psn)) := by rw [blocked, hk]; rfl
  have hrc : visitRc env p id = (checkRtxPkt env p id k).2.2 := by rw [visitRc, hk]; rfl
  have hold : k.old env = decide (k.txTime + env.cfg.txTimeout ≤ env.now) := by rw [TxPkt.old, hun]; rfl
  rw [hdue, hblocked, hrc, progressTxPkt, hk]
  dsimp only
  rw [checkRtxPkt, if_neg (by rw [hun]; exact Bool.false_ne_true)]
  by_cases hlate : k.txTime + env.cfg.txTimeout ≤ env.now
  · rw [if_neg (by omega), hold, decide_eq_true hlate]
    cases hopen : k.dstRecvd || txPsnAllowed p.tx k.psn with
    | false =>
      rw [← Bool.not_or, hopen, if_pos (by decide)]
      exact .inl ⟨rfl, rfl, fun _ => rfl⟩
    | true =>
      rw [← Bool.not_or, hopen, if_neg (by decide)]
      by_cases hmax : env.cfg.maxTxRetries ≤ k.txRetryCnt
      · rw [if_pos hmax]
        exact .inr (.inl rfl)
      rw [if_neg hmax]
      rcases rtxPkt_open id hopen (not_le.mp hmax) with hrtx | ⟨f, outs, hrtx, hcnt, hsent⟩
      · generalize rtxPkt env p id k = x at hrtx ⊢
        obtain ⟨q, outs, rc⟩ := x
        cases hrtx
        exact .inr (.inl rfl)
      · rw [hrtx]
        exact .inr (.inr ⟨rfl, ⟨k, hk, hsent⟩, not_le.mp hmax, f, rfl, hcnt⟩)
  · rw [if_pos (by omega), hold, decide_eq_false hlate]
    exact .inl ⟨rfl, rfl, by simp⟩

def Pdc.Visited (p : Pdc) : Prop := p.state ≠ .unalloc ∧ p.state ≠ .pending

theorem visit_reached (hp : Reached env.now p) (hst : p.Visited) (hid : id ∈ p.tx.txPktList) :
    Reached env.now (progressTxPkt env p id).1 := by
  have hstep := Reached.step env (.progressTxPkt id) hp rfl
  have heq : step env p (.progressTxPkt id) = progressTxPkt env p id := by
    apply if_pos
    simp only [Bool.and_eq_true, bne_iff_ne, decide_eq_true_eq]
    exact ⟨hst, hid⟩
  rw [heq] at hstep
  exact hstep

theorem nextOf_mem {l : List PktId} {j : PktId} (h : nextOf id l = some j) : j ∈ l := by
  induction l with
  | nil => cases h
  | cons a l ih =>
    rw [nextOf] at h
    split at h
    · exact mem_cons_of_mem _ (mem_of_head? h)
    · exact mem_cons_of_mem _ (ih h)

theorem relinked_mem {j : PktId} (h : nextOf id p.tx.txPktList = some j) :
    j ∈ (p.relinked id f).tx.txPktList := by
  by_cases hji : j = id
  · exact mem_append_right _ (mem_singleton.mpr hji)
  · exact mem_append_left _ ((mem_erase_of_ne hji).mpr (nextOf_mem h))

variable {outs : List Out}

theorem sweepPkts_reached (fuel : Nat) {cur : Option PktId} (hp : Reached env.now p) (hst : p.Visited)
    (hcur : ∀ j, cur = some j → j ∈ p.tx.txPktList) {r : Pdc} {rc : SweepRc}
    (h : sweepPkts env fuel p cur = some (r, outs, rc)) : Reached env.now r := by
  induction fuel generalizing p cur outs with
  | zero =>
    cases cur with
    | none =>
      cases h
      exact hp
    | some id => cases h
  | succ fuel ih =>
    cases cur with
    | none =>
      cases h
      exact hp
    | some id =>
      have hid := hcur id rfl
      have hvisit := visit_reached hp hst hid
      obtain ⟨k, hk, hun⟩ := (hp.inv.listed id).mp hid
      rw [sweepPkts] at h
      rcases visit_cases env hk hun with ⟨hrc, -⟩ | hrc | ⟨hrc, -, -, f, hf, -⟩
      · rw [hrc] at h
        cases h
        exact hvisit
      · rw [hrc] at h
        cases h
        exact hvisit
      rw [hrc] at h
      dsimp only at h
      split at h
      · cases h
      rename_i hrest
      cases h
      refine ih hvisit ?_ ?_ hrest
      · rw [hf]
        exact hst
      · rw [hf]
        exact fun j hj => relinked_mem hj

theorem sweepPkts_answers (fuel : Nat) (rest moved : List PktId) (hp : Reached env.now p) (hst : p.Visited)
    (hl : p.tx.txPktList = rest ++ moved)
    (hclear : rest.Pairwise fun a b => blocked env p.tx a = true → due env p.tx b = false) {r : Pdc}
    (h : sweepPkts env fuel p rest.head? = some (r, outs, .done)) : ∀ j ∈ rest, due env p.tx j = true → Answered p j outs := by
  -- along the part of the list that has not been visited
  induction rest generalizing p fuel moved outs with
  | nil => exact nofun
  | cons id rest ih =>
    have hid : id ∈ p.tx.txPktList := by
      rw [hl]
      exact mem_cons_self
    obtain ⟨k, hk, hun⟩ := (hp.inv.listed id).mp hid
    cases fuel with
    | zero => cases h
    | succ fuel =>
      rw [head?_cons, sweepPkts] at h
      rcases visit_cases env hk hun with ⟨hrc, hnot, hwhy⟩ | hrc | ⟨hrc, hans, -, f, hf, -⟩
      · -- the visit ends here: the packet is too young, and so are those behind it, or it is blocked
        intro j hj hdue
        exfalso
        rcases mem_cons.mp hj with rfl | hj
        · rw [hnot] at hdue
          cases hdue
        cases hold : k.old env with
        | true =>
          have := (pairwise_cons.mp hclear).1 j hj (hwhy hold)
          rw [this] at hdue
          cases hdue
        | false =>
          obtain ⟨kj, hkj, hd⟩ := (Option.any_eq_true _ _).mp hdue
          have hle : k.txTime ≤ kj.txTime := by
            have hord := pairwise_filterMap.mp hp.ordered.1
            rw [hl] at hord
            have := (pairwise_cons.mp hord).1 j (mem_append_left _ hj)
            exact this _ (by rw [hk]; rfl) _ (by rw [hkj]; rfl)
          simp only [TxPkt.old, hun, Bool.not_false, Bool.true_and, decide_eq_false_iff_not, Bool.and_eq_true,
            decide_eq_true_eq] at hold hd
          omega
      · rw [hrc] at h
        cases h
      · rw [hrc] at h
        dsimp only at h
        split at h
        · cases h
        rename_i hrest
        cases h
        intro j hj hdue
        by_cases hji : j = id
        · obtain ⟨k', hk', hsent⟩ := hans
          rw [hji]
          exact ⟨k', hk', hsent.imp (mem_append_left _) (mem_append_left _)⟩
        have hjr := (mem_cons.mp hj).resolve_left hji
        have hnd := hp.inv.nodup
        rw [hl] at hnd
        have hpkts : ∀ a ∈ rest, (p.relinked id f).tx.pkts a = p.tx.pkts a := by
          intro a ha
          apply if_neg
          rintro rfl
          exact (nodup_cons.mp hnd).1 (mem_append_left _ ha)
        have hdue' : ∀ a ∈ rest, due env (p.relinked id f).tx a = due env p.tx a := by
          intro a ha
          rw [due, hpkts a ha]
          rfl
        have hblocked' : ∀ a ∈ rest, blocked env (p.relinked id f).tx a = blocked env p.tx a := by
          intro a ha
          rw [blocked, hpkts a ha]
          rfl
        have hnext : nextOf id p.tx.txPktList = rest.head? := by
          rw [hl, cons_append, nextOf, if_pos rfl]
          cases rest with
          | nil => cases hjr
          | cons a rest => rfl
        have hvisit := visit_reached hp hst hid
        rw [hf] at hrest hvisit
        rw [hnext] at hrest
        have hl' : (p.relinked id f).tx.txPktList = rest ++ (moved ++ [id]) := by
          show p.tx.txPktList.erase id ++ [id] = _
          rw [hl, cons_append, erase_cons_head, append_assoc]
        have hclear' := (pairwise_cons.mp hclear).2.imp_of_mem
          (S := fun a b => blocked env (p.relinked id f).tx a = true → due env (p.relinked id f).tx b = false)
          fun ha hb h hbl => (hdue' _ hb).trans (h ((hblocked' _ ha).symm.trans hbl))
        obtain ⟨kj, hkj, hsent⟩ := ih fuel (moved ++ [id]) hvisit hst hl' hclear' hrest j hjr ((hdue' j hjr).trans hdue)
        exact ⟨kj, (hpkts j hjr).symm.trans hkj, hsent.imp (mem_append_right _) (mem_append_right _)⟩

def retriesLeft (env : Env) (tx : TxSide) : Nat :=
  (tx.txPktList.map fun id => ((tx.pkts id).map fun k => env.cfg.maxTxRetries - k.txRetryCnt).getD 0).sum

theorem retriesLeft_relinked (hnd : p.tx.txPktList.Nodup) (hid : id ∈ p.tx.txPktList) {k : TxPkt}
    (hk : p.tx.pkts id = some k) (hmax : k.txRetryCnt < env.cfg.maxTxRetries)
    (hf : (f k).txRetryCnt = k.txRetryCnt + 1) : retriesLeft env (p.relinked id f).tx < retriesLeft env p.tx := by
  have hpkts : ∀ j, (p.relinked id f).tx.pkts j = if j = id then (p.tx.pkts id).map f else p.tx.pkts j := fun _ => rfl
  have hkept : (p.tx.txPktList.erase id).map (fun j =>
      (((p.relinked id f).tx.pkts j).map fun k => env.cfg.maxTxRetries - k.txRetryCnt).getD 0) =
      (p.tx.txPktList.erase id).map fun j => ((p.tx.pkts j).map fun k => env.cfg.maxTxRetries - k.txRetryCnt).getD 0 := by
    apply map_congr_left
    intro j hj
    rw [hpkts, if_neg (hnd.mem_erase_iff.mp hj).1]
  have hbefore : retriesLeft env p.tx = env.cfg.maxTxRetries - k.txRetryCnt + ((p.tx.txPktList.erase id).map fun j =>
      ((p.tx.pkts j).map fun k => env.cfg.maxTxRetries - k.txRetryCnt).getD 0).sum := by
    rw [retriesLeft, ((perm_cons_erase hid).map _).sum_eq, map_cons, sum_cons, hk]
    rfl
  rw [hbefore, retriesLeft]
  show ((p.tx.txPktList.erase id ++ [id]).map _).sum < _
  rw [map_append, hkept, sum_append, map_cons, hpkts, if_pos rfl, hk]
  simp only [Option.map_some, Option.getD_some, hf, map_nil, sum_cons, sum_nil]
  omega

theorem sweepPkts_returns (fuel : Nat) {cur : Option PktId} (hp : Reached env.now p) (hst : p.Visited)
    (hcur : ∀ j, cur = some j → j ∈ p.tx.txPktList) (hfuel : retriesLeft env p.tx < fuel) :
    (sweepPkts env fuel p cur).isSome = true := by
  induction fuel generalizing p cur with
  | zero => omega
  | succ fuel ih =>
    cases cur with
    | none => rfl
    | some id =>
      have hid := hcur id rfl
      have hvisit := visit_reached hp hst hid
      obtain ⟨k, hk, hun⟩ := (hp.inv.listed id).mp hid
      rw [sweepPkts]
      rcases visit_cases env hk hun with ⟨hrc, -⟩ | hrc | ⟨hrc, -, hmax, f, hf, hcnt⟩
      · rw [hrc]
        rfl
      · rw [hrc]
        rfl
      rw [hrc]
      have hless := retriesLeft_relinked hp.inv.nodup hid hk hmax hcnt
      rw [← hf] at hless
      have hrest := @ih _ (nextOf id p.tx.txPktList) hvisit (by rw [hf]; exact hst) ?_ (by omega)
      · obtain ⟨x, hx⟩ := Option.isSome_iff_exists.mp hrest
        dsimp only
        rw [hx]
        rfl
      · rw [hf]
        exact fun j hj => relinked_mem hj

theorem progressPdc_answers {fuel : Nat} (hp : Reached env.now p) (hst : p.state ≠ .unalloc) (hclear : Clear env p) {r : Pdc} (h : progressPdc env fuel p = some (r, outs, .done)) :
    Reached env.now r ∧ ∀ id, due env p.tx id = true → id ∈ r.tx.txPktList → Answered p id outs := by
  have hlisted : ∀ id, due env p.tx id = true → id ∈ p.tx.txPktList := by
    intro id hdue
    obtain ⟨k, hk, hd⟩ := (Option.any_eq_true _ _).mp hdue
    simp only [TxPkt.old, Bool.and_eq_true, Bool.not_eq_true'] at hd
    exact (hp.inv.listed id).mpr ⟨k, hk, hd.1.1⟩
  unfold progressPdc at h
  split at h
  · rename_i hpend
    cases h
    refine ⟨Reached.step env .reapPending hp rfl, fun id hdue => ?_⟩
    rw [hclear.1 (by simpa using hpend) id (hlisted id hdue)] at hdue
    cases hdue
  · rename_i hpend
    have hvis : p.Visited := ⟨hst, by simpa using hpend⟩
    split at h
    · rename_i htimer
      simp only [Bool.and_eq_true] at htimer
      have hfire : step env p .closeReqTimer = closePdcInError env p := by
        apply if_pos
        simp only [Bool.and_eq_true, bne_iff_ne]
        exact ⟨⟨⟨⟨hvis, htimer.1.1.1⟩, htimer.1.1.2⟩, by simpa using htimer.1.2⟩, htimer.2⟩
      have hstep := Reached.step env .closeReqTimer hp rfl
      rw [hfire] at hstep
      -- a PDC whose Close Request is out is released
      have hnone : (closePdcInError env p).1.tx.txPktList = [] := by
        unfold closePdcInError
        dsimp only
        rw [if_pos htimer.1.1.2]
        rfl
      generalize closePdcInError env p = x at h hstep hnone
      cases h
      refine ⟨hstep, fun id _ hid => ?_⟩
      rw [hnone] at hid
      cases hid
    · refine ⟨sweepPkts_reached fuel hp hvis (fun j hj => mem_of_head? hj) h, fun id hdue _ => ?_⟩
      exact sweepPkts_answers fuel p.tx.txPktList [] hp hvis (append_nil _).symm hclear.2 h id (hlisted id hdue) hdue

end

/-- The pending list of every PDC is ordered by time, and a sweep that returns 0 has answered for every packet that was due
and is still tracked. -/
theorem timeout_sweep_complete (env : Env) (fuel : Nat) (ps : List Pdc) (hps : ∀ p ∈ ps, Reached env.now p) :
    (∀ p ∈ ps, p.tx.times.Pairwise (· ≤ ·)) ∧
    ∀ rs : List (Pdc × List Out), (∀ p ∈ ps, p.state ≠ .unalloc ∧ Clear env p) →
      progressTx env fuel ps = some (rs, .done) →
      List.Forall₂ (fun p r => Reached env.now r.1 ∧
        ∀ id, due env p.tx id = true → id ∈ r.1.tx.txPktList → Answered p id r.2) ps rs := by
  refine ⟨fun p hp => (hps p hp).ordered.1, fun rs hclear h => ?_⟩
  induction ps generalizing rs with
  | nil =>
    cases h
    exact .nil
  | cons p ps ih =>
    obtain ⟨hp, hps⟩ := forall_mem_cons.mp hps
    obtain ⟨⟨hst, hclear⟩, hrest⟩ := forall_mem_cons.mp hclear
    rw [progressTx] at h
    split at h
    · cases h
    · cases h
    rename_i hone
    split at h
    · cases h
    · rename_i hrs
      cases h
      exact .cons (progressPdc_answers hp hst hclear hone) (ih hps _ hrest hrs)
    · cases h

def at5 : Env := { calmEnv (fun _ => .noBuf) with now := 5 }

/-- An ACK_CC of `cack + off` that announces a window. -/
def ccAck (cack : Psn) (off : BitVec 16) (mpr : BitVec 8) (sackOff : BitVec 16) (sack : BitVec 64) : Env × Event :=
  (calmEnv fun _ => .noBuf,
    .rx ⟨.v4 2, .v4 1, .ack
      { pdsType := .ackCc, nextHdr := .none, reqClr := false, epsn := false, ackPsnOffset := off, cackPsn := cack
        spdcid := 7, dpdcid := 1, mpr, sackPsnOffset := sackOff, sackBitmap := sack, payload := 0, ses := .none }⟩)

/-- PSNs 1003 to 1130 are out when the window is reduced to end at 1128; 1130 is reported as received. -/
def narrowed : Pdc :=
  ((iniHandout.pdc (freshSlot 1) false).run ([sendMsg 0, sendMsg 0, sendMsg 0, ccAck 999 1 2 0 0, ackOf 999 2, ackOf 999 3] ++
    List.replicate 128 (sendMsg 1) ++ [ccAck 1000 2 1 100 (1 <<< 30)])).1

def refused : Pdc :=
  ((iniHandout.pdc (freshSlot 1) false).run
    [sendMsg 0, sendMsg 1, ({ at5 with nic := fun _ => false }, (nackOf .pktNotRcvd 1000).2)]).1

/-- PSN 1129, which is blocked, hides the ACK request due for 1130, and PSN 1000, stamped where it stands, hides 1001. -/
theorem sweep_hides_due :
    due at5 narrowed.tx 130 = true ∧
    (progressTx at5 200 [narrowed]).map (fun x => (x.1.map fun r => (framesOf r.2).countP fun f =>
      match f.hdr with | .ctrl _ => true | _ => false, x.2)) = some ([0], .done) ∧
    refused.tx.times = [5, 0] ∧ due at5 refused.tx 1 = true ∧
    (progressTx at5 2 [refused]).map (fun x => (x.1.map fun r => framesOf r.2, x.2)) = some ([[]], .done) := by
  decide +kernel

theorem timeout_sweep_complete_two :
    let p := (step (sendMsg 1).1 (step (sendMsg 0).1 (iniHandout.pdc (freshSlot 1) false) (sendMsg 0).2).1 (sendMsg 1).2).1
    due at5 p.tx 1 = true ∧ ∃ r outs, progressTx at5 3 [p] = some ([(r, outs)], .done) ∧ Answered p 1 outs := by
  intro p
  have hreach : Reached at5.now p := by
    have hfirst := Reached.step (sendMsg 0).1 (sendMsg 0).2 (.handout 0 (freshSlot 1) false iniHandout) rfl
    have hsecond := Reached.step (sendMsg 1).1 (sendMsg 1).2 hfirst rfl
    exact .wait hsecond (Nat.zero_le _)
  have hclear : Clear at5 p := ⟨fun h => absurd h (by decide +kernel), by decide +kernel⟩
  have hdone : (progressTx at5 3 [p]).map (fun x => (x.1.map fun r => decide (1 ∈ r.1.tx.txPktList), x.2)) =
      some ([true], .done) := by decide +kernel
  obtain ⟨⟨rs, rc⟩, hrs, heq⟩ := Option.map_eq_some_iff.mp hdone
  obtain ⟨hmap, rfl⟩ := Prod.mk.inj heq
  obtain ⟨⟨r, outs⟩, rfl, hmem⟩ := map_eq_singleton_iff.mp hmap
  have hall := (timeout_sweep_complete at5 3 [p] (forall_mem_singleton.mpr hreach)).2 _
    (forall_mem_singleton.mpr ⟨by decide +kernel, hclear⟩) hrs
  have hdue : due at5 p.tx 1 = true := by decide +kernel
  exact ⟨hdue, r, outs, hrs, (forall₂_cons.mp hall).1.2 1 hdue (of_decide_eq_true hmem)⟩

end Uet.Pds
