import Uet.Pds.Assign
import Uet.Pds.RxSteps

/-!
# What a step can do to the transmit side

Every entry point of `uet_pds.c` acts on the transmit side through a few moves:
track a new packet, mark one acknowledged, answer SES, abandon, shift, retransmit,
re-base, release. `step_moves` says once that each step is a sequence of them, and
the invariants of the transmit side are then proved move by move. `w` is the
packet being processed, `b` whether un-ACKed packets may be abandoned and `R` what
the packet can do to the receive side; the optional identifier is a packet
acknowledged explicitly whose SES upcall is due.
-/

namespace Uet.Pds

open List

/-- An output that concerns neither a transmitted packet nor the receive side; a
NEW_START_PSN NACK is a move of its own. -/
def Out.mute : Out → Bool
  | .tx f =>
    match f.hdr with
    | .nack h => h.nackCode != .newStartPsn
    | _ => false
  | .setIniStartPsn _ | .setTgtStartPsn _ | .freedPdc => true
  | _ => false

def Out.isRx : Out → Bool
  | .txAck .. | .rxReq .. => true
  | _ => false

def Out.quiet : Out → Bool
  | .txAck .. | .rxReq .. => true
  | o => o.mute

structure CtlOnly (p p' : Pdc) : Prop where
  tx : p'.tx = p.tx
  rx : p'.rx = p.rx
  isInitiator : p'.isInitiator = p.isInitiator
  pdcId : p'.pdcId = p.pdcId
  srcAddr : p'.srcAddr = p.srcAddr
  dstAddr : p'.dstAddr = p.dstAddr
  live : p.state ≠ .unalloc
  live' : p'.state ≠ .unalloc
  syn : p'.state = .syn → p.state = .syn

theorem CtlOnly.establish {p : Pdc} (hs : p.state = .syn ∨ p.state = .pending) (d : PdcId) :
    CtlOnly p { p with state := .established, dpdcid := d } := by
  have hl : p.state ≠ .unalloc := by rcases hs with hs | hs <;> simp [hs]
  exact ⟨rfl, rfl, rfl, rfl, rfl, rfl, hl, by simp, by simp⟩

def ParsedPkt.isAck (pp : ParsedPkt) : Prop :=
  pp.pdsType = .ack ∨ pp.pdsType = .ackCc ∨ pp.pdsType = .ackCcx

structure SameKey (k k' : TxPkt) : Prop where
  psn : k'.psn = k.psn
  acked : k'.txPktAcked = k.txPktAcked
  handle : k'.txPktHandle = k.txPktHandle
  recvd : k'.dstRecvd = k.dstRecvd
  hdr : k'.hdr = k.hdr ∨ k'.hdr = setRetx k.hdr

/-- A tracked control packet as `uet_pds_send_ctrl_pkt` stores it. -/
def ctrlPkt (p : Pdc) (ct : CtrlType) (t : Nat) : TxPkt :=
  { psn := p.tx.nextPsn, msgId := 0, txPktHandle := none
    hdr := .ctrl (p.ctrlHdr ct true p.tx.nextPsn 0), txTime := t }

inductive Move (w : Option ParsedPkt) (b : Prop) (R : Bool → RxSide → List Out → RxSide → Prop) :
    Option PktId → Pdc → List Out → Option PktId → Pdc → Prop where
  | note {u p} (os : List Out) (h : ∀ o ∈ os, o.mute = true) : Move w b R u p os u p
  | recv {u p} (rx : RxSide) (os : List Out) (h : ∀ o ∈ os, o.quiet = true)
    (hR : R false p.rx os rx) : Move w b R u p os u { p with rx }
  | newStart {u p} (env : Env) (pp : ParsedPkt) (hw : w = some pp) (ht : pp.isReq)
    (hs : p.state = .pending) :
    Move w b R u p (txNack env 0 pp .newStartPsn p.startPsn) u p
  | ctl {u p p'} (h : CtlOnly p p') : Move w b R u p [] u p'
  | signal {u p} (h : CtrlHdr)
    (ht : h.ctrlType = .ackReq ∨ h.ctrlType = .clear ∧ h.payload = p.tx.txBmBasePsn - 1) :
    Move w b R u p [.tx (p.frame (.ctrl h))] u p
  | cack {u p} (pp : ParsedPkt) (hw : w = some pp) (ht : pp.isAck)
    (hle : psnAfter pp.cackPsn (p.tx.nextPsn - 1) = false) :
    Move w b R u p [] u
      { p with tx := { p.tx with maxCackPsn := updatePsn p.tx.maxCackPsn pp.cackPsn } }
  | mpr {u p} (pp : ParsedPkt) (hw : w = some pp) (hcc : isCcAck pp.pdsType = true) :
    Move w b R u p [] u { p with tx := processMpr p.tx pp }
  | sack {u p} (pp : ParsedPkt) (hw : w = some pp) (hcc : isCcAck pp.pdsType = true)
    (hle : ∃ m, p.tx.maxCackPsn = updatePsn m pp.cackPsn) (i : Nat) (hi : i < 64) :
    Move w b R u p [] u { p with tx := sackStep pp p.tx i }
  | touch {u p} (id : PktId) (k k' : TxPkt) (hk : p.tx.pkts id = some k) (hs : SameKey k k') :
    Move w b R u p [] u { p with tx := p.tx.setPkt id (some k') }
  | resend {u p} (id : PktId) (k : TxPkt) (hk : p.tx.pkts id = some k)
    (hun : k.txPktAcked = false) (hal : txPsnAllowed p.tx k.psn = true) :
    Move w b R u p [.tx (p.frame k.hdr)] u p
  | ack {p} (pp : ParsedPkt) (hw : w = some pp) (ht : pp.isAck) (id : PktId)
    (hg : p.tx.txBm.get (psnOffset pp.psn p.tx.txBmBasePsn) = some id)
    (hun : p.tx.acked id = false) :
    Move w b R none p [] (some id) { p with tx := markAcked p.tx id }
  | respond {p} (id : PktId) (h : Option Handle) (r : SesHdr) :
    Move w b R (some id) p [.rxRsp id h (some r)] none p
  | forget {u p} : Move w b R u p [] none p
  | cackRsp {u p} (i : Nat) (id : PktId)
    (hi : (i : Int) < psnOffset (p.tx.maxCackPsn + 1) p.tx.txBmBasePsn)
    (hg : p.tx.txBm.get i = some id) (hun : p.tx.acked id = false) :
    Move w b R u p [.rxRsp id (p.tx.handle id) none] u { p with tx := markAcked p.tx id }
  | abandon {p} (id : PktId) (k : TxPkt) (os : List Out) (hab : b) (hl : id ∈ p.tx.txPktList)
    (hk : p.tx.pkts id = some k)
    (hos : os = [] ∨ (∃ h, os = [.pdsErr id h]) ∨ os = [.dropped id]) :
    Move w b R none p (os ++ [.freedPkt id]) none
      { p with tx := ((unsetTracked p.tx k.psn).unlink id).setPkt id none }
  | shift {p} (id : PktId) (hg : p.tx.txBm.get 0 = some id) (hack : p.tx.acked id = true) :
    Move w b R none p [.freedPkt id] none
      { p with tx := { p.tx with
          txBm := p.tx.txBm.shiftRight 1, txBmBasePsn := p.tx.txBmBasePsn + 1 }.setPkt id none }
  | trackReq {u p} (env : Env) (r : TxReq) (hlk : txLookup p r = .ok)
    (hmsg : r.som = true ∨ p.activeMsgIdValid = true)
    (hal : txPsnAllowed p.tx p.tx.nextPsn = true)
    (hct : cannotTrack p.tx p.tx.nextPsn = false) :
    Move w b R u p [.tx (p.frame (.req (reqHdr env p r)))] u (sentReq env p r)
  | sendClose {u p} (hini : p.isInitiator = true) (hst : p.state ≠ .unalloc) (hns : p.state ≠ .syn)
    (hgo : (p.closeRequested && p.closeStarted) = false) (hmsg : p.activeMsgIdValid = false)
    (hl : p.tx.txPktList = []) (hal : txPsnAllowed p.tx p.tx.nextPsn = true)
    (hct : cannotTrack p.tx p.tx.nextPsn = false) (t : Nat) :
    Move w b R u p [.tx (p.frame (.ctrl (p.ctrlHdr .close true p.tx.nextPsn 0)))] u
      { p with
        tx := trackPkt p.tx (ctrlPkt p .close t), closeRequested := true, closeStarted := true
        closeCmdPsn := p.tx.nextPsn, state := .closing }
  | sendCloseReq {u p} (hini : p.isInitiator = false) (hst : p.state = .established)
    (hal : txPsnAllowed p.tx p.tx.nextPsn = true)
    (hct : cannotTrack p.tx p.tx.nextPsn = false) (t : Nat) :
    Move w b R u p [.tx (p.frame (.ctrl (p.ctrlHdr .closeReq true p.tx.nextPsn 0)))] u
      { p with tx := trackPkt p.tx (ctrlPkt p .closeReq t), closeStarted := true, closeReqTime := t }
  | relink {u p} (id : PktId) (k : TxPkt) (hk : p.tx.pkts id = some k)
    (hun : k.txPktAcked = false) :
    Move w b R u p [] u { p with tx := (p.tx.unlink id).linkTail id }
  | rebase {p} (env : Env) (pp : ParsedPkt) (hw : w = some pp)
    (hcode : pp.nackCode = .newStartPsn) :
    Move w b R none p (reestablishStartPsn env p pp.payload).2 none
      (reestablishStartPsn env p pp.payload).1
  | free {p} : Move w b R none p (freePdc p).2 none (freePdc p).1
  | closed {p} (rx : RxSide) (os : List Out) (h : ∀ o ∈ os, o.quiet = true)
    (hR : R true p.rx os rx) :
    Move w b R none p (os ++ (freePdc { p with rx }).2) none (freePdc { p with rx }).1

inductive Moves (w : Option ParsedPkt) (b : Prop) (R : Bool → RxSide → List Out → RxSide → Prop) :
    Option PktId → Pdc → List Out → Option PktId → Pdc → Prop where
  | refl {u p} : Moves w b R u p [] u p
  | tail {u p os u1 p1 os' u2 p2} (h : Moves w b R u p os u1 p1)
    (m : Move w b R u1 p1 os' u2 p2) : Moves w b R u p (os ++ os') u2 p2

/-- What a function of the source does to `p`, with the PDC and the outputs it returns. -/
abbrev Acts (w : Option ParsedPkt) (b : Prop) (R : Bool → RxSide → List Out → RxSide → Prop)
    (p : Pdc) (x : Pdc × List Out) : Prop :=
  Moves w b R none p x.2 none x.1

section

variable {w : Option ParsedPkt} {b : Prop} {R : Bool → RxSide → List Out → RxSide → Prop}

variable {u u' : Option PktId} {os : List Out} {u1 u2 : Option PktId} {p1 p2 : Pdc} (env : Env) (p : Pdc)
  (pp : ParsedPkt) (id : PktId)

theorem Move.moves {p p' : Pdc} (m : Move w b R u p os u' p') : Moves w b R u p os u' p' :=
  nil_append os ▸ Moves.refl.tail m

theorem Moves.trans {p : Pdc} {os' : List Out} (h : Moves w b R u p os u1 p1) (h' : Moves w b R u1 p1 os' u2 p2) :
    Moves w b R u p (os ++ os') u2 p2 := by
  induction h' with
  | refl => rw [append_nil]; exact h
  | tail _ m ih => rw [← append_assoc]; exact ih.tail m

theorem Moves.after {p : Pdc} (m : Move w b R u p [] u1 p1) (h : Moves w b R u1 p1 os u2 p2) :
    Moves w b R u p os u2 p2 := m.moves.trans h

theorem Moves.before {p : Pdc} (h : Moves w b R u p [] u1 p1) (h' : Moves w b R u1 p1 os u2 p2) :
    Moves w b R u p os u2 p2 := h.trans h'

theorem Moves.done {p : Pdc} (h : Moves w b R u p os u1 p1) (m : Move w b R u1 p1 [] u2 p2) :
    Moves w b R u p os u2 p2 := append_nil os ▸ h.tail m

theorem Moves.keep {P : Option PktId → List Out → Pdc → Prop}
    (hm : ∀ u p l os u' p', P u l p → Move w b R u p os u' p' → P u' (l ++ os) p') {p p' : Pdc} {l : List Out}
    (h : Moves w b R u p os u' p') (hp : P u l p) : P u' (l ++ os) p' := by
  induction h with
  | refl => rw [append_nil]; exact hp
  | tail _ m ih => rw [← append_assoc]; exact hm _ _ _ _ _ _ ih m

theorem Moves.note (u : Option PktId) (p : Pdc) (os : List Out)
    (h : ∀ o ∈ os, o.mute = true) : Moves w b R u p os u p := (Move.note os h).moves

/-! ## The receive side under a move -/

theorem Out.isRx_of_mute {o : Out} (h : o.mute = true) : o.isRx = false := by
  cases o <;> first | rfl | cases h

theorem freePdc_outs : ∀ o ∈ (freePdc p).2, o.isRx = false := by
  intro o ho
  rcases mem_append.1 ho with h | h
  · obtain ⟨id, -, rfl⟩ := mem_map.1 h
    rfl
  · rw [mem_singleton.1 h]
    rfl

/-- What a move does to the receive side: nothing, what `R` says, release, or the
re-base of a NEW_START_PSN NACK. -/
theorem Move.rx_cases {p p' : Pdc} (m : Move w b R u p os u' p') :
    (p'.rx = p.rx ∧ p'.isInitiator = p.isInitiator ∧ (p'.state = .syn → p.state = .syn) ∧
      (p'.state = .unalloc ↔ p.state = .unalloc) ∧ ∀ o ∈ os, o.isRx = false) ∨
    (∃ rx, R false p.rx os rx ∧ p' = { p with rx }) ∨
    (∃ rx os1, R true p.rx os1 rx ∧ os = os1 ++ (freePdc { p with rx }).2 ∧
      p' = (freePdc { p with rx }).1) ∨
    (os = (freePdc p).2 ∧ p' = (freePdc p).1) ∨
    ∃ env pp, w = some pp ∧ pp.nackCode = .newStartPsn ∧
      os = (reestablishStartPsn env p pp.payload).2 ∧ p' = (reestablishStartPsn env p pp.payload).1 := by
  cases m with
  | note _ h => exact Or.inl ⟨rfl, rfl, id, Iff.rfl, fun o ho => Out.isRx_of_mute (h o ho)⟩
  | recv rx _ _ hR => exact Or.inr (Or.inl ⟨rx, hR, rfl⟩)
  | ctl h =>
    exact Or.inl ⟨h.rx, h.isInitiator, h.syn, ⟨fun hc => absurd hc h.live', fun hc => absurd hc h.live⟩,
      by simp⟩
  | abandon id k os _ _ _ hos =>
    refine Or.inl ⟨rfl, rfl, fun h => h, Iff.rfl, ?_⟩
    rcases hos with rfl | ⟨h, rfl⟩ | rfl <;> simp [Out.isRx]
  | newStart env pp _ _ _ =>
    refine Or.inl ⟨rfl, rfl, id, Iff.rfl, fun o ho => ?_⟩
    rw [txNack, sendFrame] at ho
    split_ifs at ho
    · rw [mem_singleton.1 ho]
      rfl
    · cases ho
  | sendClose _ hst _ _ _ _ _ _ _ =>
    exact Or.inl ⟨rfl, rfl, by simp, ⟨by simp, fun hc => absurd hc hst⟩, by simp [Out.isRx]⟩
  | rebase env pp hw hc => exact Or.inr (Or.inr (Or.inr (Or.inr ⟨env, pp, hw, hc, rfl, rfl⟩)))
  | free => exact Or.inr (Or.inr (Or.inr (Or.inl ⟨rfl, rfl⟩)))
  | closed rx os1 _ hR => exact Or.inr (Or.inr (Or.inl ⟨rx, os1, hR, rfl, rfl⟩))
  | _ => exact Or.inl ⟨rfl, rfl, id, Iff.rfl, by simp [Out.isRx]⟩

/-! ## Closing -/

theorem foldPkts_abandon (hab : b) {f : TxSide → PktId → TxSide × List Out}
    (hf : ∀ tx id, f tx id = (tx, []) ∨ ∃ k os, tx.pkts id = some k ∧
      (os = [] ∨ (∃ h, os = [.pdsErr id h]) ∨ os = [.dropped id]) ∧
      f tx id = (((unsetTracked tx k.psn).unlink id).setPkt id none, os ++ [.freedPkt id]))
    (p : Pdc) (ids : List PktId) (hids : ∀ id ∈ ids, p.tx.pkts id ≠ none → id ∈ p.tx.txPktList) :
    Moves w b R none p (foldPkts f ids p.tx).2 none { p with tx := (foldPkts f ids p.tx).1 } := by
  induction ids generalizing p with
  | nil => exact .refl
  | cons id ids ih =>
    rw [foldPkts]
    rcases hf p.tx id with h | ⟨k, os, hk, hos, h⟩
    · rw [h]
      exact ih p fun j hj => hids j (mem_cons_of_mem _ hj)
    rw [h]
    have hl := hids id mem_cons_self (by rw [hk]; simp)
    -- the packets still to visit stay on the list, this one is gone from the heap
    refine (Move.abandon id k os hab hl hk hos).moves.trans (ih _ fun j hj hlive => ?_)
    by_cases he : j = id
    · simp [TxSide.setPkt, he] at hlive
    have hmem := hids j (mem_cons_of_mem _ hj)
      (by simpa [TxSide.setPkt, TxSide.unlink, unsetTracked, he, apply_ite TxSide.pkts] using hlive)
    simp only [TxSide.setPkt, TxSide.unlink, unsetTracked, apply_ite TxSide.txPktList, ite_self]
    exact (mem_erase_of_ne he).2 hmem

theorem drainTxPkts_moves (hab : b) (p : Pdc) :
    Moves w b R none p (drainTxPkts p.tx).2 none { p with tx := (drainTxPkts p.tx).1 } := by
  refine foldPkts_abandon hab (fun tx id => ?_) p _ fun _ h _ => h
  rw [drainPkt]
  cases hk : tx.pkts id with
  | none => exact Or.inl rfl
  | some k =>
    cases hh : k.txPktHandle with
    | none => exact Or.inr ⟨k, [], rfl, Or.inl rfl, by simp [hh]⟩
    | some h => exact Or.inr ⟨k, [.pdsErr id h], rfl, Or.inr (Or.inl ⟨h, rfl⟩), by simp [hh]⟩

theorem dropTxPkts_moves (hab : b) (p : Pdc) (h : Handle) :
    Moves w b R none p (dropTxPkts h p.tx).2 none { p with tx := (dropTxPkts h p.tx).1 } := by
  refine foldPkts_abandon hab (fun tx id => ?_) p _ fun _ h _ => h
  rw [dropPkt]
  cases hk : tx.pkts id with
  | none => exact Or.inl rfl
  | some k =>
    by_cases hh : k.txPktHandle = some h
    · exact Or.inr ⟨k, [.dropped id], rfl, Or.inr (Or.inr rfl), by simp [hh]⟩
    · exact Or.inl (by simp [hh])

theorem sendTrackedCtrl_cases (ct : CtrlType) : (∃ rc, sendTrackedCtrl env p ct = (p, [], rc) ∧ rc ≠ .ok) ∨
    (txPsnAllowed p.tx p.tx.nextPsn = true ∧ cannotTrack p.tx p.tx.nextPsn = false ∧
      sendTrackedCtrl env p ct = ({ p with tx := trackPkt p.tx (ctrlPkt p ct env.now) },
        [.tx (p.frame (.ctrl (p.ctrlHdr ct true p.tx.nextPsn 0)))], .ok)) := by
  rw [sendTrackedCtrl]
  split_ifs with h1 h2 h3
  · exact Or.inl ⟨_, rfl, by decide⟩
  · exact Or.inl ⟨_, rfl, by decide⟩
  · exact Or.inr ⟨by simpa using h1, by simpa using h2, rfl⟩
  · exact Or.inl ⟨_, rfl, by decide⟩

theorem initiatePdcClose_moves (hst : p.state ≠ .unalloc) :
    Moves w b R none p (initiatePdcClose env p).2.1 none (initiatePdcClose env p).1 := by
  rw [initiatePdcClose]
  dsimp only
  have hreq : Move w b R none p [] none { p with closeRequested := true } :=
    .ctl ⟨rfl, rfl, rfl, rfl, rfl, rfl, hst, hst, id⟩
  split_ifs with h1 h2 h3 h4 h5
  · exact .refl
  · exact .refl
  · exact hreq.moves
  · exact hreq.moves
  · exact Moves.after hreq Move.free.moves
  rcases sendTrackedCtrl_cases env { p with closeRequested := true } .close with
    ⟨rc, hr, hrc⟩ | ⟨hal, hct, hr⟩
  · rw [hr]
    cases rc with
    | ok => exact absurd rfl hrc
    | again => exact hreq.moves
    | err => exact hreq.moves
  · rw [hr]
    exact (Move.sendClose (by simpa using h2) hst (by simpa using h5) (by simpa using h1)
      (by simpa using h3) (by simpa using h4) hal hct env.now).moves

theorem targetPdcClose_moves (hini : p.isInitiator = false) :
    Moves w b R none p (targetPdcClose env p).2.1 none (targetPdcClose env p).1 := by
  rw [targetPdcClose]
  split_ifs with h1 h2 h3
  · exact .refl
  · exact .refl
  · exact .refl
  rcases sendTrackedCtrl_cases env p .closeReq with ⟨rc, hr, hrc⟩ | ⟨hal, hct, hr⟩
  · rw [hr]
    cases rc with
    | ok => exact absurd rfl hrc
    | again => exact .refl
    | err => exact .refl
  · rw [hr]
    exact (Move.sendCloseReq hini (by simpa using h2) hal hct env.now).moves

/-- `uet_pds_close_pdc_in_error` after the drain. -/
def closeDrained (env : Env) (p : Pdc) : Pdc × List Out :=
  if p.closeStarted then freePdc p
  else if p.isInitiator then ((initiatePdcClose env p).1, (initiatePdcClose env p).2.1)
  else ((targetPdcClose env p).1, (targetPdcClose env p).2.1)

theorem closePdcInError_eq : closePdcInError env p =
      ((closeDrained env { p with tx := (drainTxPkts p.tx).1 }).1,
        (drainTxPkts p.tx).2 ++ (closeDrained env { p with tx := (drainTxPkts p.tx).1 }).2) := by
  rw [closePdcInError, closeDrained]
  dsimp only
  split_ifs <;> rfl

theorem closeDrained_moves (hst : p.state ≠ .unalloc) : Acts w b R p (closeDrained env p) := by
  rw [closeDrained]
  split_ifs with h1 h2
  · exact Move.free.moves
  · exact initiatePdcClose_moves env p hst
  · exact targetPdcClose_moves env p (by simpa using h2)

theorem closePdcInError_moves (hst : p.state ≠ .unalloc) (hab : p.tx.txPktList ≠ [] → b) :
    Acts w b R p (closePdcInError env p) := by
  rw [closePdcInError_eq]
  by_cases hl : p.tx.txPktList = []
  · rw [drainTxPkts, hl]
    exact closeDrained_moves env p hst
  · exact (drainTxPkts_moves (hab hl) p).trans (closeDrained_moves env _ hst)

/-! ## Retransmission -/

/-- The packet `id` is still on the heap, un-ACKed. -/
def Pdc.unacked (p : Pdc) (id : PktId) : Prop :=
  ∃ k, p.tx.pkts id = some k ∧ k.txPktAcked = false

structure Resent (p p' : Pdc) (id : PktId) : Prop where
  unacked : p'.unacked id
  list : p'.tx.txPktList = p.tx.txPktList
  state : p'.state = p.state

theorem rtxPkt_moves (pkt : TxPkt) (u : Option PktId) (hk : p.tx.pkts id = some pkt) (hun : pkt.txPktAcked = false) :
    Moves w b R u p (rtxPkt env p id pkt).2.1 u (rtxPkt env p id pkt).1 ∧
      Resent p (rtxPkt env p id pkt).1 id := by
  have hmod : ∀ (q : Pdc) (k : TxPkt) (f : TxPkt → TxPkt), q.tx.pkts id = some k →
      q.tx.modPkt id f = q.tx.setPkt id (some (f k)) := by
    intro q k f h
    rw [TxSide.modPkt, h]
    rfl
  have hset : ∀ (q : Pdc) (k : TxPkt), (q.tx.setPkt id (some k)).pkts id = some k := by
    intro q k
    simp [TxSide.setPkt]
  rw [rtxPkt]
  split_ifs with h1 h2
  · rw [sendUntrackedCtrl]
    rw [sendFrame]
    split_ifs with h4
    · rw [hmod p pkt _ hk]
      refine ⟨(Move.signal _ (Or.inl rfl)).moves.done
        (.touch id pkt _ hk ⟨rfl, rfl, rfl, rfl, Or.inl rfl⟩), ⟨_, hset p _, hun⟩, rfl, rfl⟩
    · exact ⟨.refl, ⟨pkt, hk, hun⟩, rfl, rfl⟩
  · exact ⟨.refl, ⟨pkt, hk, hun⟩, rfl, rfl⟩
  · dsimp only
    rw [hmod p pkt _ hk]
    set k1 : TxPkt := { pkt with hdr := setRetx pkt.hdr, txTime := env.now } with hk1
    have htouch : Move w b R u p [] u { p with tx := p.tx.setPkt id (some k1) } :=
      .touch id pkt k1 hk ⟨rfl, rfl, rfl, rfl, Or.inr rfl⟩
    split_ifs with h3
    · rw [hmod { p with tx := p.tx.setPkt id (some k1) } k1 _ (hset p k1)]
      refine ⟨Moves.after htouch ?_, ⟨_, hset _ _, hun⟩, rfl, rfl⟩
      have hal : txPsnAllowed p.tx pkt.psn = true := by simpa using h2
      exact (Move.resend (p := { p with tx := p.tx.setPkt id (some k1) }) id k1 (hset p k1) hun
        hal).moves.done (.touch id k1 _ (hset p k1) ⟨rfl, rfl, rfl, rfl, Or.inl rfl⟩)
    · exact ⟨htouch.moves, ⟨_, hset p _, hun⟩, rfl, rfl⟩

theorem checkRtxPkt_moves (pkt : TxPkt) (u : Option PktId) (hk : p.tx.pkts id = some pkt) :
    Moves w b R u p (checkRtxPkt env p id pkt).2.1 u (checkRtxPkt env p id pkt).1 ∧
      (checkRtxPkt env p id pkt).1.state = p.state ∧
      (checkRtxPkt env p id pkt).1.tx.txPktList = p.tx.txPktList ∧
      ((checkRtxPkt env p id pkt).2.2 = .again → (checkRtxPkt env p id pkt).1.unacked id) := by
  rw [checkRtxPkt]
  split_ifs with h1 h2 h3 h4
  · exact ⟨.refl, rfl, rfl, by simp⟩
  · exact ⟨.refl, rfl, rfl, by simp⟩
  · exact ⟨.refl, rfl, rfl, by simp⟩
  · exact ⟨.refl, rfl, rfl, by simp⟩
  obtain ⟨hm, hr⟩ := rtxPkt_moves (w := w) (b := b) (R := R) env p id pkt u hk (by simpa using h1)
  generalize rtxPkt env p id pkt = r at hm hr
  obtain ⟨p1, outs, rc⟩ := r
  cases rc <;> exact ⟨hm, hr.state, hr.list, fun _ => hr.unacked⟩

/-- The retransmit check of the packet `id` ends with `-EIO`. -/
def retryCloses (env : Env) (p : Pdc) (id : PktId) : Bool :=
  match p.tx.pkts id with
  | none => false
  | some pkt => (checkRtxPkt env p id pkt).2.2 == .err

theorem progressTxPkt_moves (hst : p.state ≠ .unalloc) (hab : retryCloses env p id = true → b) :
    Acts w b R p (progressTxPkt env p id) := by
  rw [progressTxPkt]
  rw [retryCloses] at hab
  cases hk : p.tx.pkts id with
  | none => exact .refl
  | some pkt =>
    simp only [hk] at hab ⊢
    obtain ⟨hm, hs, -, hun⟩ := checkRtxPkt_moves (w := w) (b := b) (R := R) env p id pkt none hk
    generalize checkRtxPkt env p id pkt = r at hm hs hun hab
    obtain ⟨p1, outs, rc⟩ := r
    cases rc with
    | ok => exact hm
    | again =>
      obtain ⟨k, hk1, hun1⟩ := hun rfl
      exact hm.done (.relink id k hk1 hun1)
    | err =>
      have h : b := hab rfl
      have hlive : p1.state ≠ .unalloc := fun hc => hst (hs.symm.trans hc)
      have hc := closePdcInError_moves (w := w) (b := b) (R := R) env p1 hlive fun _ => h
      cases pkt.txPktHandle with
      | none => exact hm.trans hc
      | some => exact (hm.trans hc).trans (dropTxPkts_moves h ..)

/-! ## Acknowledgement -/

structure SameRegs (tx tx' : TxSide) : Prop where
  base : tx'.txBmBasePsn = tx.txBmBasePsn
  next : tx'.nextPsn = tx.nextPsn
  maxCack : tx'.maxCackPsn = tx.maxCackPsn
  bm : tx'.txBm = tx.txBm

theorem SameRegs.refl (tx : TxSide) : SameRegs tx tx := ⟨rfl, rfl, rfl, rfl⟩

theorem SameRegs.trans {a b c : TxSide} (h : SameRegs a b) (h' : SameRegs b c) : SameRegs a c :=
  ⟨h'.base.trans h.base, h'.next.trans h.next, h'.maxCack.trans h.maxCack, h'.bm.trans h.bm⟩

theorem sackStep_regs (tx : TxSide) (i : Nat) : SameRegs tx (sackStep pp tx i) := by
  rw [sackStep]
  dsimp only
  split_ifs
  · exact .refl tx
  · exact .refl tx
  · exact .refl tx
  · cases tx.txBm.get (psnOffset (pp.sackBasePsn + BitVec.ofNat 32 i) tx.txBmBasePsn) with
    | none => exact .refl tx
    | some id => exact ⟨rfl, rfl, rfl, rfl⟩

theorem sackFold_moves (hw : w = some pp) (hcc : isCcAck pp.pdsType = true) (u : Option PktId) (l : List Nat)
    (hl : ∀ i ∈ l, i < 64) (p : Pdc) (hle : ∃ m, p.tx.maxCackPsn = updatePsn m pp.cackPsn) :
    Moves w b R u p [] u { p with tx := l.foldl (sackStep pp) p.tx } := by
  induction l generalizing p with
  | nil => exact .refl
  | cons i l ih =>
    refine Moves.after (.sack pp hw hcc hle i (hl i mem_cons_self)) ?_
    refine ih (fun j hj => hl j (mem_cons_of_mem _ hj))
      { p with tx := sackStep pp p.tx i } ?_
    rw [(sackStep_regs pp p.tx i).maxCack]
    exact hle

theorem cackFold_moves (u : Option PktId) (l : List Nat) (p : Pdc) (outs : List Out)
    (hl : ∀ i ∈ l, (i : Int) < psnOffset (p.tx.maxCackPsn + 1) p.tx.txBmBasePsn) :
    ∃ tx' outs', l.foldl cackStep (p.tx, outs) = (tx', outs ++ outs') ∧
      Moves w b R u p outs' u { p with tx := tx' } ∧ SameRegs p.tx tx' := by
  induction l generalizing p outs with
  | nil => exact ⟨p.tx, [], by simp, .refl, .refl _⟩
  | cons i l ih =>
    have hrest := fun j hj => hl j (mem_cons_of_mem i hj)
    rw [foldl_cons, cackStep]
    cases hg : p.tx.txBm.get i with
    | none => exact ih p outs hrest
    | some id =>
      dsimp only
      by_cases ha : p.tx.acked id = true
      · rw [if_pos ha]
        exact ih p outs hrest
      rw [if_neg ha]
      have hmv := Move.cackRsp (w := w) (b := b) (R := R) (u := u) i id
        (hl i mem_cons_self) hg (by simpa using ha)
      have hsame : SameRegs p.tx (markAcked p.tx id) := ⟨rfl, rfl, rfl, rfl⟩
      generalize markAcked p.tx id = tx1 at hmv hsame
      obtain ⟨tx', outs', hf, hm, hr⟩ := ih { p with tx := tx1 }
        (outs ++ [.rxRsp id (p.tx.handle id) none])
        (by simpa only [hsame.maxCack, hsame.base] using hrest)
      exact ⟨tx', _, by rw [hf, append_assoc], hmv.moves.trans hm, hsame.trans hr⟩

theorem processCack_moves (hw : w = some pp) (ht : pp.isAck) (u : Option PktId) (p : Pdc)
    (hle : psnAfter pp.cackPsn (p.tx.nextPsn - 1) = false) :
    Moves w b R u p (processCack p.tx pp).2 u { p with tx := (processCack p.tx pp).1 } ∧
      SameRegs { p.tx with maxCackPsn := updatePsn p.tx.maxCackPsn pp.cackPsn }
        (processCack p.tx pp).1 := by
  rw [processCack]
  set p1 : Pdc := { p with tx := { p.tx with maxCackPsn := updatePsn p.tx.maxCackPsn pp.cackPsn } } with hp1
  obtain ⟨tx', outs', hf, hm, hr⟩ := cackFold_moves (w := w) (b := b) (R := R) u
    (range (psnOffset (p1.tx.maxCackPsn + 1) p1.tx.txBmBasePsn).toNat) p1 []
    (fun i hi => by have := mem_range.1 hi; omega)
  rw [hf, nil_append]
  exact ⟨Moves.after (.cack pp hw ht hle) hm, hr⟩

theorem processMpr_regs (tx : TxSide) (pp : ParsedPkt) : SameRegs tx (processMpr tx pp) := by
  rw [processMpr]
  split_ifs <;> exact ⟨rfl, rfl, rfl, rfl⟩

theorem processAckState_moves (hw : w = some pp) (ht : pp.isAck) (u : Option PktId) (p : Pdc)
    (hle : psnAfter pp.cackPsn (p.tx.nextPsn - 1) = false) : Moves w b R u p (processAckState p.tx pp).2 u
      { p with tx := (processAckState p.tx pp).1 } := by
  rw [processAckState]
  by_cases hcc : isCcAck pp.pdsType = true
  · simp only [hcc, if_true]
    refine Moves.after (.mpr pp hw hcc) ?_
    obtain ⟨hm, hr⟩ := processCack_moves (b := b) (R := R) pp hw ht u
      { p with tx := processMpr p.tx pp }
      (by rw [(processMpr_regs p.tx pp).next]; exact hle)
    generalize processCack (processMpr p.tx pp) pp = r at hm hr
    obtain ⟨tx1, outs⟩ := r
    have hs := sackFold_moves (b := b) (R := R) pp hw hcc u (range 64) (fun i hi => mem_range.1 hi)
      { p with tx := tx1 } ⟨_, hr.maxCack⟩
    have := hm.trans hs
    rw [append_nil] at this
    exact this
  · simp only [hcc]
    exact (processCack_moves pp hw ht u p hle).1

theorem shiftTxGo_moves (n : Nat) (p : Pdc) :
    Moves w b R none p (shiftTxGo n p.tx).2 none { p with tx := (shiftTxGo n p.tx).1 } := by
  induction n generalizing p with
  | zero => exact .refl
  | succ n ih =>
    rw [shiftTxGo]
    cases hg : p.tx.txBm.get 0 with
    | none => exact .refl
    | some id =>
      dsimp only
      split_ifs with ha
      · exact (Move.shift id hg ha).moves.trans (ih _)
      · exact .refl

theorem shiftTxWindow_moves : Moves w b R none p (shiftTxWindow p.tx).2 none { p with tx := (shiftTxWindow p.tx).1 } :=
  shiftTxGo_moves mpRange p

theorem ackClose_moves : Acts w b R p (ackClose env p) := by
  rw [ackClose]
  split_ifs with h
  · simp only [Bool.and_eq_true, beq_iff_eq] at h
    exact initiatePdcClose_moves env p (by rw [h.1.1.1.1]; decide)
  · exact .refl

theorem ackClear_moves : Moves w b R none p (ackClear env p pp) none p := by
  rw [ackClear]
  split_ifs
  · rw [sendUntrackedCtrl, sendFrame]
    split_ifs
    · exact (Move.signal _ (Or.inr ⟨rfl, rfl⟩)).moves
    · exact .refl
  · exact .refl

theorem ackEstablish_moves (u : Option PktId) : Moves w b R u p [] u (ackEstablish p pp) := by
  rw [ackEstablish]
  split_ifs with hs
  · exact Move.moves (.ctl (.establish (Or.inl (by simpa using hs)) _))
  · exact .refl

theorem ackUpcall_moves : Moves w b R (some id) p (ackUpcall p pp id) none p := by
  rw [ackUpcall]
  split_ifs
  · exact Move.forget.moves
  · exact (Move.respond id _ pp.ses).moves

theorem ackDeliver_moves : Moves w b R (some id) p (ackDeliver env p pp id).2 none (ackDeliver env p pp id).1 := by
  rw [ackDeliver]
  have hup := ackUpcall_moves (w := w) (b := b) (R := R) (ackEstablish p pp) pp id
  refine (ackEstablish_moves p pp (some id)).before ?_
  split_ifs
  · exact hup
  have hsh := shiftTxWindow_moves (w := w) (b := b) (R := R) (ackEstablish p pp)
  generalize shiftTxWindow (ackEstablish p pp).tx = s at hsh
  obtain ⟨tx, outs⟩ := s
  exact ((hup.trans hsh).trans (ackClear_moves env { ackEstablish p pp with tx } pp)).trans
    (ackClose_moves env { ackEstablish p pp with tx })

theorem ackTracked_moves (hw : w = some pp) (ht : pp.isAck) (id : PktId)
    (hle : psnAfter pp.cackPsn (p.tx.nextPsn - 1) = false)
    (hg : p.tx.txBm.get (psnOffset pp.psn p.tx.txBmBasePsn) = some id) (hun : p.tx.acked id = false) :
    Acts w b R p (ackTracked env p pp id) := by
  rw [ackTracked]
  refine Moves.after (.ack pp hw ht id hg hun) ?_
  have hm := processAckState_moves (b := b) (R := R) pp hw ht (some id)
    { p with tx := markAcked p.tx id } hle
  dsimp only at hm ⊢
  generalize processAckState (markAcked p.tx id) pp = r at hm
  obtain ⟨tx, outs⟩ := r
  split_ifs
  · have hadopt : ∀ o ∈ adoptEpsn env { p with tx } pp, o.mute = true := by
      rw [adoptEpsn]
      split_ifs <;> simp [Out.mute]
    have hq : Moves w b R none { p with tx } _ none { p with tx } := Moves.note none _ _ hadopt
    have hsh : Moves w b R none { p with tx } _ none _ := shiftTxWindow_moves { p with tx }
    exact ((hm.done Move.forget).trans hq).trans hsh |>.trans Move.free.moves
  · exact hm.trans (ackDeliver_moves env { p with tx } pp id)

theorem processAck_moves (hw : w = some pp) (ht : pp.isAck) : Acts w b R p (processAck env p pp) := by
  rw [processAck]
  split_ifs with h1 h2 h3
  · exact .refl
  · exact .refl
  · exact .refl
  have hle : psnAfter pp.cackPsn (p.tx.nextPsn - 1) = false := by simpa using h3
  have hcl : ∀ id, classifyAck p.tx pp = .tracked id →
      p.tx.txBm.get (psnOffset pp.psn p.tx.txBmBasePsn) = some id ∧ p.tx.acked id = false := by
    intro id hc
    rw [classifyAck] at hc
    split_ifs at hc
    cases hg : p.tx.txBm.get (psnOffset pp.psn p.tx.txBmBasePsn) with
    | none => simp [hg] at hc
    | some j =>
      rw [hg] at hc
      dsimp only at hc
      split_ifs at hc with ha
      cases hc
      exact ⟨rfl, by simpa using ha⟩
  cases hc : classifyAck p.tx pp with
  | invalid => exact .refl
  | duplicate => exact (processAckState_moves pp hw ht none p hle).trans (shiftTxWindow_moves _)
  | tracked id =>
    obtain ⟨hg, hun⟩ := hcl id hc
    exact ackTracked_moves env p pp hw ht id hle hg hun

/-! ## NACKs -/

def nackExhausted (env : Env) (p : Pdc) (pp : ParsedPkt) : Bool :=
  ((p.tx.txBm.get (psnOffset pp.psn p.tx.txBmBasePsn)).bind p.tx.pkts).any fun pkt =>
    !pkt.txPktAcked && (pkt.dstRecvd || txPsnAllowed p.tx pkt.psn) &&
      decide (env.cfg.maxTxRetries ≤ pkt.txRetryCnt)

theorem nackRetx_moves (hst : p.state ≠ .unalloc) (hab : nackExhausted env p pp = true → p.tx.txPktList ≠ [] → b) :
    Acts w b R p (nackRetx env p pp) := by
  rw [nackRetx]
  rw [nackExhausted] at hab
  cases hg : p.tx.txBm.get (psnOffset pp.psn p.tx.txBmBasePsn) with
  | none => exact .refl
  | some id =>
    cases hk : p.tx.pkts id with
    | none => simp only [hk]; exact .refl
    | some pkt =>
      simp only [hk, hg, Option.bind_some, Option.any_some] at hab ⊢
      split_ifs with h1 h2 h3
      · exact .refl
      · exact .refl
      · refine closePdcInError_moves env p hst fun hl => hab ?_ hl
        simp only [Bool.and_eq_true, Bool.not_eq_true', decide_eq_true_iff, Bool.or_eq_true] at h2 ⊢
        refine ⟨⟨by simpa using h1, ?_⟩, h3⟩
        by_contra hc
        simp only [not_or, Bool.not_eq_true] at hc
        exact h2 hc
      · obtain ⟨hm, hr⟩ := rtxPkt_moves (w := w) (b := b) (R := R) env p id pkt none hk (by simpa using h1)
        generalize rtxPkt env p id pkt = r at hm hr
        obtain ⟨p1, outs, rc⟩ := r
        cases rc with
        | ok =>
          obtain ⟨k, hk1, hun1⟩ := hr.unacked
          exact hm.done (.relink id k hk1 hun1)
        | again => exact hm
        | err => exact hm

/-- A NACK that makes `uet_pds_process_nack` close the PDC in error. -/
def nackCloses (env : Env) (p : Pdc) (pp : ParsedPkt) : Bool :=
  decide (p.dstAddr = pp.src) && pp.nackCode != .newStartPsn && nackAction pp.nackCode != .drop &&
    !(psnAfter p.tx.txBmBasePsn pp.psn || psnAfter pp.psn (p.tx.nextPsn - 1)) &&
    (nackAction pp.nackCode == .close || nackExhausted env p pp)

theorem nackEstablish_moves (hst : p.state ≠ .unalloc) :
    Moves w b R none p [] none (nackEstablish p pp) ∧ (nackEstablish p pp).tx = p.tx ∧
      (nackEstablish p pp).state ≠ .unalloc := by
  rw [nackEstablish]
  split_ifs with hs
  · simp only [Bool.and_eq_true, beq_iff_eq] at hs
    exact ⟨Move.moves (.ctl (.establish (Or.inl hs.1) _)), rfl, by simp⟩
  · exact ⟨.refl, rfl, hst⟩

theorem processNack_moves (hw : w = some pp) (hst : p.state ≠ .unalloc)
    (hab : nackCloses env p pp = true → p.tx.txPktList ≠ [] → b) : Acts w b R p (processNack env p pp) := by
  obtain ⟨hm, htx, hst'⟩ := nackEstablish_moves (w := w) (b := b) (R := R) p pp hst
  have hex : nackExhausted env (nackEstablish p pp) pp = nackExhausted env p pp := by
    simp only [nackExhausted, htx]
  rw [← htx] at hab
  rw [processNack]
  split_ifs with h1 h2 h3 h4 h5
  · exact .refl
  · exact (Move.rebase env pp hw (by simpa using h2)).moves
  · exact .refl
  · exact .refl
  · refine hm.before (closePdcInError_moves env _ hst' fun hl => hab ?_ hl)
    simp only [nackCloses, h5, Bool.true_or, Bool.and_true, Bool.and_eq_true, decide_eq_true_iff,
      bne_iff_ne, Bool.not_eq_true']
    exact ⟨⟨⟨not_not.1 h1, by simpa using h2⟩, by simpa using h3⟩, by simpa using h4⟩
  · refine hm.before (nackRetx_moves env _ pp hst' fun hx hl => hab ?_ hl)
    rw [hex] at hx
    simp only [nackCloses, hx, Bool.or_true, Bool.and_true, Bool.and_eq_true, decide_eq_true_iff,
      bne_iff_ne, Bool.not_eq_true']
    exact ⟨⟨⟨not_not.1 h1, by simpa using h2⟩, by simpa using h3⟩, by simpa using h4⟩

end

/-! ## The receive side makes quiet outputs -/

def Quiet (os : List Out) : Prop := ∀ o ∈ os, o.quiet = true

theorem Quiet.nil : Quiet [] := fun _ h => by cases h

theorem Quiet.append {a b : List Out} (ha : Quiet a) (hb : Quiet b) : Quiet (a ++ b) := by
  intro o ho
  rcases mem_append.1 ho with h | h
  · exact ha o h
  · exact hb o h

variable {os : List Out}

theorem Quiet.cons {o : Out} (ho : o.quiet = true) (h : Quiet os) : Quiet (o :: os) := forall_mem_cons.2 ⟨ho, h⟩

theorem Out.quiet_of_refusal {o : Out} (h : o.refusal = true) : o.quiet = true := by
  cases o with
  | tx f => exact h
  | rxReq _ _ _ => rfl
  | _ => cases h

theorem sendAck_quiet (env : Env) (a : Psn) (b : Bool) (f : Frame) : Quiet (sendAck env a b f) := by
  rw [sendAck]
  split_ifs
  · exact .cons rfl .nil
  · exact .nil

theorem txNack_mute (env : Env) (i : PdcId) (pp : ParsedPkt) {c : NackCode} (v : BitVec 32)
    (hc : (c != .newStartPsn) = true) : ∀ o ∈ txNack env i pp c v, o.mute = true := by
  intro o ho
  rw [txNack, sendFrame] at ho
  split_ifs at ho
  · rw [mem_singleton.1 ho]
    exact hc
  · cases ho

theorem acceptReq_quiet (env : Env) (ids : PdcIds) (rx : RxSide) (i : Int) (pkt : RxPkt) (g : Bool)
    (nh : NextHdr) (rsp : List (BitVec 8)) : Quiet (acceptReq env ids rx i pkt g nh rsp).2 := by
  rw [acceptReq]
  split_ifs
  · exact .cons rfl (sendAck_quiet _ _ _ _)
  · exact .cons rfl .nil

theorem RodLoop.quiet {env : Env} {ids : PdcIds} {i k : Nat} {rx rx' : RxSide} (h : RodLoop env ids i rx os k rx') :
    Quiet os := by
  induction h with
  | refl => exact .nil
  | skip _ _ _ _ ih => exact ih
  | deliver t g nh rsp _ _ _ _ ih => exact (acceptReq_quiet _ _ _ _ _ _ _ _).append ih
  | drop t os _ _ hos => exact fun o ho => Out.quiet_of_refusal (hos o ho)

theorem RxStep.quiet {env : Env} {ids : PdcIds} {ini c : Bool} {pp : ParsedPkt} {rx rx' : RxSide}
    (h : RxStep env ids ini pp c rx os rx') : Quiet os := by
  cases h with
  | refuse os hos => exact fun o ho => Out.quiet_of_refusal (hos o ho)
  | answer q hq => exact sendAck_quiet _ _ _ _
  | resend i t h hg ha => exact sendAck_quiet _ _ _ _
  | accept ht h0 h1 hnew g nh rsp hs => exact acceptReq_quiet _ _ _ _ _ _ _ _
  | deliver ht h0 h1 hnew os k rx1 hl hend => exact hl.quiet
  | clear ht => exact .nil
  | closeOld ht hi hin => exact sendAck_quiet _ _ _ _
  | closeReq ht hi h0 h1 hnew r hr =>
    rw [hr]
    exact sendAck_quiet _ _ _ _
  | commanded ht hi hc => exact .nil
  | commandAck ht hi hc => exact sendAck_quiet _ _ _ _
  | commandEpsn ht hi hc v => exact sendAck_quiet _ _ _ _

/-! ## Requests and control packets -/

def ParsedPkt.isRx (pp : ParsedPkt) : Prop := pp.isReq ∨ pp.pdsType = .ctrl

/-- `R` covers what the packet can do to the receive side of `p`. -/
def Covers (R : Bool → RxSide → List Out → RxSide → Prop) (env : Env) (p : Pdc) (pp : ParsedPkt) :
    Prop :=
  ∀ c os rx, RxStep env p.ids p.isInitiator pp c p.rx os rx → R c p.rx os rx

section

variable {w : Option ParsedPkt} {b : Prop} {R : Bool → RxSide → List Out → RxSide → Prop}

theorem RxStep.moves {env : Env} {p : Pdc} {pp : ParsedPkt} {rx : RxSide} {os : List Out}
    (hR : Covers R env p pp) (h : RxStep env p.ids p.isInitiator pp false p.rx os rx) :
    Moves w b R none p os none { p with rx } := (Move.recv rx os h.quiet (hR _ _ _ h)).moves

variable (env : Env) (p : Pdc) (pp : ParsedPkt)

theorem processSynPkt_moves (hw : w = some pp) (ht : pp.isReq) (hR : Covers R env p pp) :
    Acts w b R p (processSynPkt env p pp) := by
  rw [processSynPkt]
  split_ifs with h1 h2 h3
  · exact .note none p _ (txNack_mute _ _ _ _ rfl)
  · simp only [Bool.and_eq_true, beq_iff_eq] at h2
    exact (Move.newStart env pp hw ht h2.1).moves
  · exact Moves.after (.ctl (.establish (Or.inr (by simpa using h3)) p.dpdcid))
      (RxStep.moves (p := { p with state := .established }) hR (receiveReq_step false p.rx ht))
  · exact RxStep.moves hR (receiveReq_step false p.rx ht)

theorem processRequest_moves (ht : pp.isReq) (hR : Covers R env p pp) :
    Acts w b R p (processRequest env p pp) := by
  rw [processRequest]
  split_ifs
  · exact .note none p _ (txNack_mute _ _ _ _ rfl)
  · exact .note none p _ (txNack_mute _ _ _ _ rfl)
  · exact .note none p _ (txNack_mute _ _ _ _ rfl)
  · exact RxStep.moves hR (receiveReq_step _ p.rx ht)

theorem takeCloseReq_moves (hst : p.state ≠ .unalloc) (ht : pp.isCtrl .closeReq) (hini : p.isInitiator = true)
    (h0 : 0 ≤ psnOffset pp.psn p.rx.rxBmBasePsn) (h1 : psnOffset pp.psn p.rx.rxBmBasePsn < 128)
    (hnew : p.rx.rxBm.get (psnOffset pp.psn p.rx.rxBmBasePsn) = none) (hR : Covers R env p pp) :
    let r := takeCloseReq env p pp (psnOffset pp.psn p.rx.rxBmBasePsn)
    Moves w b R none p r.2 none r.1 := by
  rw [takeCloseReq]
  have hm := RxStep.moves (w := w) (b := b) hR (.closeReq ht hini h0 h1 hnew _ rfl)
  refine hm.trans (Moves.after ?_ (initiatePdcClose_moves env _ hst))
  exact .ctl ⟨rfl, rfl, rfl, rfl, rfl, rfl, hst, hst, id⟩

theorem processCloseReqCp_moves (hst : p.state ≠ .unalloc) (ht : pp.isCtrl .closeReq) (hR : Covers R env p pp) :
    Acts w b R p (processCloseReqCp env p pp) := by
  rw [processCloseReqCp]
  split_ifs with h1 h2 h3
  · exact .note none p _ (txNack_mute _ _ _ _ rfl)
  · exact RxStep.moves hR (.closeOld ht (by simpa using h1) h2)
  · exact .note none p _ (txNack_mute _ _ _ _ rfl)
  obtain ⟨ha, hb⟩ := (psnInMpr_iff _ _).1 (by simpa using h3)
  dsimp only
  cases hg : p.rx.rxBm.get (psnOffset pp.psn p.rx.rxBmBasePsn) with
  | some orig =>
    cases hack : orig.ack with
    | some h => simp only [hack]; exact RxStep.moves hR (.resend _ orig h hg hack)
    | none => simp only [hack]; exact .refl
  | none =>
    split_ifs
    · exact takeCloseReq_moves env p pp hst ht (by simpa using h1) ha hb hg hR
    · exact .refl

def closeCommanded (p : Pdc) (pp : ParsedPkt) : Pdc :=
  { p with closeStarted := true, closeCmdPsn := pp.psn, state := .closing, rx := commandedRx p.rx }

theorem finishClose_moves (ht : pp.isCtrl .close) (hini : p.isInitiator = false)
    (hc : psnAfter pp.psn p.rx.cackPsn = true) (hR : Covers R env p pp) :
    Acts w b R p (finishClose env (closeCommanded p pp) pp) := by
  have hepsn : ∀ v, Moves w b R none p
      (txCloseAckEpsn env p.ids (commandedRx p.rx) pp v ++ (freePdc (closeCommanded p pp)).2) none
      (freePdc (closeCommanded p pp)).1 := by
    intro v
    have hs := @RxStep.commandEpsn env p.ids _ _ _ ht hini hc v
    exact (Move.closed _ _ hs.quiet (hR _ _ _ hs)).moves
  rw [finishClose]
  split_ifs with h1 h2
  · exact (Moves.note none p _ (forall_mem_singleton.2 rfl)).trans (hepsn _)
  · exact hepsn _
  · have hs := @RxStep.commandAck env p.ids _ _ _ ht hini hc
    exact (Move.closed _ _ hs.quiet (hR _ _ _ hs)).moves

theorem commandError_moves (ht : pp.isCtrl .close) (hini : p.isInitiator = false)
    (hc : psnAfter pp.psn p.rx.cackPsn = true) (hab : p.tx.txPktList ≠ [] → b) (hR : Covers R env p pp) :
    Acts w b R p (closePdcInError env (closeCommanded p pp)) := by
  have hs := @RxStep.commanded env p.ids _ _ _ ht hini hc
  have hfree : ∀ q : Pdc, q.rx = p.rx → Moves w b R none q
      (freePdc { q with rx := commandedRx p.rx }).2 none
      (freePdc { q with rx := commandedRx p.rx }).1 := by
    intro q hq
    have h : R true q.rx [] (commandedRx p.rx) := hq ▸ hR _ _ _ hs
    exact (Move.closed _ [] hs.quiet h).moves
  rw [closePdcInError_eq, closeDrained,
    show (closeCommanded p pp).closeStarted = true from rfl, if_pos rfl]
  by_cases hl : p.tx.txPktList = []
  · rw [drainTxPkts, show (closeCommanded p pp).tx = p.tx from rfl, hl]
    exact hfree p rfl
  · exact (drainTxPkts_moves (hab hl) p).trans
      (hfree { p with tx := (drainTxPkts p.tx).1 } rfl)

theorem processCloseCommandCp_moves (ht : pp.isCtrl .close) (hab : p.tx.txPktList ≠ [] → b) (hR : Covers R env p pp) :
    Acts w b R p (processCloseCommandCp env p pp) := by
  rw [processCloseCommandCp]
  split_ifs with h1 h2
  · exact .note none p _ (txNack_mute _ _ _ _ rfl)
  · exact .note none p _ (txNack_mute _ _ _ _ rfl)
  have hini : p.isInitiator = false := by simpa using h1
  have hc : psnAfter pp.psn p.rx.cackPsn = true := by simpa using h2
  dsimp only
  split_ifs with h3
  · exact (Moves.note none p _ (txNack_mute _ _ _ _ rfl)).trans
      (commandError_moves env p pp ht hini hc hab hR)
  · exact finishClose_moves env p pp ht hini hc hR

theorem processControl_moves (hst : p.state ≠ .unalloc) (ht : pp.pdsType = .ctrl)
    (hab : pp.ctrlType = .close → p.tx.txPktList ≠ [] → b) (hR : Covers R env p pp) :
    Acts w b R p (processControl env p pp) := by
  have hexit : ∀ code, (code != .newStartPsn) = true → Acts w b R p (exitErr env p pp code) := by
    intro code hcode
    rw [exitErr]
    split_ifs
    · exact .note none p _ (txNack_mute _ _ _ _ hcode)
    · exact .refl
  rw [processControl]
  split_ifs with h1 h2 h3
  · exact hexit _ rfl
  · exact hexit _ rfl
  · exact hexit _ rfl
  cases hc : pp.ctrlType with
  | ackReq => exact RxStep.moves hR (processAckReqCp_step p.rx ⟨ht, hc⟩)
  | closeReq => exact processCloseReqCp_moves env p pp hst ⟨ht, hc⟩ hR
  | close => exact processCloseCommandCp_moves env p pp ⟨ht, hc⟩ (hab hc) hR
  | clear => exact RxStep.moves hR (.clear ⟨ht, hc⟩)
  | _ => exact hexit _ rfl

/-! ## Transmission and timers -/

theorem txClose_moves : Acts w b R p (txClose env p) := by
  rw [txClose]
  split_ifs with h
  · simp only [Bool.and_eq_true, beq_iff_eq] at h
    exact initiatePdcClose_moves env p (by rw [h.1.1.1]; decide)
  · exact .refl

theorem txEndOfMsg_moves (r : TxReq) (hst : p.state ≠ .unalloc) : Moves w b R none p [] none (txEndOfMsg env p r) := by
  refine Move.moves (.ctl ?_)
  rw [txEndOfMsg]
  dsimp only
  split_ifs <;> exact ⟨rfl, rfl, rfl, rfl, rfl, rfl, hst, hst, id⟩

theorem txSend_moves (r : TxReq) (hst : p.state ≠ .unalloc) (hlk : txLookup p r = .ok)
    (hmsg : r.som = true ∨ p.activeMsgIdValid = true) (hal : txPsnAllowed p.tx p.tx.nextPsn = true)
    (hct : cannotTrack p.tx p.tx.nextPsn = false) :
    Moves w b R none p (txSend env p r).2.1 none (txSend env p r).1 := by
  have hun : Moves w b R none p [] none (unmapMsg p r) := by
    rw [unmapMsg]
    split_ifs
    · exact Move.moves (.ctl ⟨rfl, rfl, rfl, rfl, rfl, rfl, hst, hst, id⟩)
    · exact .refl
  have hmap : Moves w b R none (sentReq env p r) [] none (mapMsg (sentReq env p r) r) ∧
      (mapMsg (sentReq env p r) r).state ≠ .unalloc := by
    rw [mapMsg]
    split_ifs
    · exact ⟨Move.moves (.ctl ⟨rfl, rfl, rfl, rfl, rfl, rfl, hst, hst, id⟩), hst⟩
    · exact ⟨.refl, hst⟩
  rw [txSend]
  split_ifs
  · exact .refl
  · exact hun
  · refine (Move.trackReq env r hlk hmsg hal hct).moves.trans (hmap.1.before ?_)
    exact (txEndOfMsg_moves env _ r hmap.2).before (txClose_moves env _)

theorem txPkt_moves (r : TxReq) (hst : p.state ≠ .unalloc) :
    Moves w b R none p (txPkt env p r).2.1 none (txPkt env p r).1 := by
  rw [txPkt]
  cases hlk : txLookup p r with
  | ok =>
    split_ifs with h1 h2 h3 h4 h5
    · exact .refl
    · exact .refl
    · exact .refl
    · exact .refl
    · exact .refl
    refine txSend_moves env p r hst hlk ?_ (by simpa using h3) (by simpa using h5)
    by_contra hc
    simp only [not_or, Bool.not_eq_true] at hc
    simp [hc.1, hc.2] at h4
  | again => exact .refl
  | err => exact .refl

theorem msgCmplInd_moves (hst : p.state ≠ .unalloc) : Acts w b R p (msgCmplInd env p) := by
  have hctl : Move w b R none p [] none { p with activeMsgId := 0, activeMsgIdValid := false } :=
    .ctl ⟨rfl, rfl, rfl, rfl, rfl, rfl, hst, hst, id⟩
  rw [msgCmplInd]
  split_ifs
  · exact Moves.after hctl (initiatePdcClose_moves env _ hst)
  · exact hctl.moves

theorem rxNoPdc_mute : ∀ o ∈ rxNoPdc env pp, o.mute = true := by
  rw [rxNoPdc]
  split
  · exact txNack_mute _ _ _ _ rfl
  · exact txNack_mute _ _ _ _ rfl
  · split_ifs
    · exact txNack_mute _ _ _ _ rfl
    · simp
  · simp

theorem progressRx_moves (f : Frame) (hw : w = some (parsePkt f)) (hst : p.state ≠ .unalloc)
    (hR : (parsePkt f).isRx → Covers R env p (parsePkt f))
    (hnack : (parsePkt f).pdsType = .nack → nackCloses env p (parsePkt f) = true →
      p.tx.txPktList ≠ [] → b) (hctrl : (parsePkt f).pdsType = .ctrl → (parsePkt f).ctrlType = .close →
      p.tx.txPktList ≠ [] → b) : Acts w b R p (progressRx env p f) := by
  rw [progressRx]
  split_ifs with h1 h2 h3
  · exact .note none p _ (rxNoPdc_mute _ _)
  all_goals
    cases ht : (parsePkt f).pdsType with
    | ack => exact processAck_moves env p _ hw (Or.inl ht)
    | ackCc => exact processAck_moves env p _ hw (Or.inr (Or.inl ht))
    | ackCcx => exact processAck_moves env p _ hw (Or.inr (Or.inr ht))
    | nack => exact processNack_moves env p _ hw hst (hnack ht)
    | ctrl => exact processControl_moves env p _ hst ht (hctrl ht) (hR (Or.inr ht))
    | rudReq =>
      first
      | exact .note none p _ (txNack_mute _ _ _ _ rfl)
      | exact processSynPkt_moves env p _ hw (Or.inl ht) (hR (Or.inl (Or.inl ht)))
      | exact processRequest_moves env p _ (Or.inl ht) (hR (Or.inl (Or.inl ht)))
    | rodReq =>
      first
      | exact .note none p _ (txNack_mute _ _ _ _ rfl)
      | exact processSynPkt_moves env p _ hw (Or.inr ht) (hR (Or.inl (Or.inr ht)))
      | exact processRequest_moves env p _ (Or.inr ht) (hR (Or.inl (Or.inr ht)))

end

/-! ## A step -/

def Event.pkt : Event → Option ParsedPkt
  | .rx f => some (parsePkt f)
  | _ => none

/-- Whether a step may release packets that are still on the retransmit list: a drop
request for one of them, or an error close. -/
def abandons (env : Env) (p : Pdc) : Event → Bool
  | .rx f =>
    match (parsePkt f).pdsType with
    | .nack => nackCloses env p (parsePkt f) && !p.tx.txPktList.isEmpty
    | .ctrl => (parsePkt f).ctrlType == .close && !p.tx.txPktList.isEmpty
    | _ => false
  | .progressTxPkt id => retryCloses env p id
  | .dropTxPkts h => p.tx.txPktList.any fun id => p.tx.handle id == some h
  | .closeReqTimer => p.closeStarted && !p.tx.txPktList.isEmpty
  | _ => false

def Pdc.released (p : Pdc) : Prop :=
  p.state = .unalloc → p.closeRequested = false ∧ p.activeMsgId = 0 ∧ p.activeMsgIdValid = false

theorem foldPkts_none {f : TxSide → PktId → TxSide × List Out} {tx : TxSide} (ids : List PktId)
    (h : ∀ id ∈ ids, f tx id = (tx, [])) : foldPkts f ids tx = (tx, []) := by
  induction ids with
  | nil => rfl
  | cons id ids ih =>
    rw [foldPkts, h id mem_cons_self]
    dsimp only
    rw [ih fun j hj => h j (mem_cons_of_mem _ hj)]
    rfl

theorem dropTxPkts_none (h : Handle) (tx : TxSide)
    (hno : (tx.txPktList.any fun id => tx.handle id == some h) = false) : dropTxPkts h tx = (tx, []) := by
  refine foldPkts_none _ fun id hid => ?_
  have hne := any_eq_false.1 hno id hid
  rw [dropPkt]
  cases hk : tx.pkts id with
  | none => rfl
  | some k =>
    rw [TxSide.handle, hk] at hne
    exact if_neg (by simpa using hne)

theorem step_unalloc (env : Env) (p : Pdc) (e : Event) (hrel : p.released)
    (hst : p.state = .unalloc) : ∃ outs, step env p e = (p, outs) ∧ ∀ o ∈ outs, o.mute = true := by
  obtain ⟨h1, h2, h3⟩ := hrel hst
  cases e with
  | rx f => exact ⟨_, by simp [step, progressRx, hst], rxNoPdc_mute env (parsePkt f)⟩
  | txPkt r =>
    refine ⟨[], ?_, by simp⟩
    have hlook : r.pdsInfo = true ∨ r.som = true → txLookup p r ≠ .ok := by
      rintro (h | h)
      · simp [txLookup, h, hst]
      · cases hp : r.pdsInfo <;> simp [txLookup, h, hp, hst]
    simp only [step, txPkt]
    cases hl : txLookup p r with
    | ok =>
      have hsom : r.som = false := by
        cases hs : r.som with
        | false => rfl
        | true => exact absurd hl (hlook (Or.inr hs))
      simp only [hsom, h3]
      split_ifs <;> simp_all
    | again => rfl
    | err => rfl
  | progressTxPkt id => exact ⟨[], by simp [step, hst], by simp⟩
  | dropTxPkts h => exact ⟨[], by simp [step, hst], by simp⟩
  | msgCmplInd =>
    have hsame : { p with activeMsgId := 0, activeMsgIdValid := false } = p := by
      cases p
      simp_all
    refine ⟨[], ?_, by simp⟩
    rw [step, msgCmplInd, hsame, h1]
    rfl
  | reapPending => exact ⟨[], by simp [step, reapPending, hst], by simp⟩
  | closeReqTimer => exact ⟨[], by simp [step, closeReqTimer, hst], by simp⟩

def RxFrom (env : Env) (p : Pdc) (e : Event) (c : Bool) (rx : RxSide) (os : List Out)
    (rx' : RxSide) : Prop :=
  rx = p.rx ∧ ∃ f, e = .rx f ∧ (parsePkt f).isRx ∧
    RxStep env p.ids p.isInitiator (parsePkt f) c rx os rx'

theorem step_moves {b : Prop} (env : Env) (p : Pdc) (e : Event) (hrel : p.released)
    (hab : abandons env p e = true → b) :
    Moves e.pkt b (RxFrom env p e) none p (step env p e).2 none (step env p e).1 := by
  by_cases hst : p.state = .unalloc
  · obtain ⟨outs, h, hq⟩ := step_unalloc env p e hrel hst
    rw [h]
    exact .note none p _ hq
  cases e with
  | rx f =>
    refine progressRx_moves env p f rfl hst (fun ht c os rx h => ⟨rfl, f, rfl, ht, h⟩)
      (fun ht hn hl => hab ?_) fun ht hc hl => hab ?_
    · simp [abandons, ht, hn, hl]
    · simp [abandons, ht, hc, hl]
  | txPkt r => exact txPkt_moves env p r hst
  | progressTxPkt id =>
    simp only [step]
    split_ifs
    · exact progressTxPkt_moves env p id hst hab
    · exact .refl
  | dropTxPkts h =>
    simp only [step]
    split_ifs
    · by_cases hd : (p.tx.txPktList.any fun id => p.tx.handle id == some h) = true
      · exact dropTxPkts_moves (hab hd) p h
      · rw [dropTxPkts_none h p.tx (by simpa using hd)]
        exact .refl
    · exact .refl
  | msgCmplInd => exact msgCmplInd_moves env p hst
  | reapPending =>
    simp only [step, reapPending]
    split_ifs
    · exact Move.free.moves
    · exact .refl
  | closeReqTimer =>
    simp only [step, closeReqTimer]
    split_ifs with h
    · refine closePdcInError_moves env p hst fun hl => hab ?_
      simp only [Bool.and_eq_true] at h
      simp [abandons, h.1.1.2, hl]
    · exact .refl

end Uet.Pds
