import Uet.Pds.Step
import Uet.Pds.TargetSpec

/-!
# What an arriving packet can do to the receive side

`RxStep` says once what each packet can do to `RxSide` and which ACKs and upcalls
it makes: answer without a change, take a RUD request to SES, run the ROD delivery
loop, take a clear, record a Close Request, obey a Close Command. `RodLoop` is the
delivery loop as a sequence of iterations. The invariants of the receive side are
proved case by case of these two relations.
-/

namespace Uet.Pds

/-- A NACK, or an `rx_req` upcall that SES did not accept. -/
def Out.refusal : Out → Bool
  | .tx f =>
    match f.hdr with
    | .nack h => h.nackCode != .newStartPsn
    | _ => false
  | .rxReq _ ans _ =>
    match ans with
    | .ok .. => false
    | _ => true
  | _ => false

/-- The ROD loop of `uet_pds_process_data_pkt`, from one index to another. -/
inductive RodLoop (env : Env) (ids : PdcIds) :
    Nat → RxSide → List Out → Nat → RxSide → Prop where
  | refl {i rx} : RodLoop env ids i rx [] i rx
  | skip {i rx os k rx'} (t : RxPkt) (hg : rx.rxBm.get i = some t) (hr : t.reordered = true)
    (h : RodLoop env ids (i + 1) rx os k rx') : RodLoop env ids i rx os k rx'
  | deliver {i rx os k rx'} (t : RxPkt) (g : Bool) (nh : NextHdr) (rsp : List (BitVec 8))
    (hg : rx.rxBm.get i = some t) (hr : t.reordered = false)
    (hs : env.ses t.pp.psn = .ok g nh rsp)
    (h : RodLoop env ids (i + 1) (markReordered (acceptReq env ids rx i t g nh rsp).1 i) os k rx') :
    RodLoop env ids i rx ((acceptReq env ids rx i t g nh rsp).2 ++ os) k rx'
  | drop {i rx} (t : RxPkt) (os : List Out) (hg : rx.rxBm.get i = some t)
    (hr : t.reordered = false) (hos : ∀ o ∈ os, o.refusal = true) :
    RodLoop env ids i rx os i { rx with rxBm := rx.rxBm.unset i }

def ParsedPkt.isReq (pp : ParsedPkt) : Prop := pp.pdsType = .rudReq ∨ pp.pdsType = .rodReq

def ParsedPkt.isCtrl (pp : ParsedPkt) (ct : CtrlType) : Prop :=
  pp.pdsType = .ctrl ∧ pp.ctrlType = ct

/-- The packet `q` whose default response answers the packet `pp`: a request whose PSN
is behind the window or tracked in it, or the tracked packet an ACK request names. -/
def Answers (rx : RxSide) (pp q : ParsedPkt) : Prop :=
  (pp.isReq ∧ q = pp ∧ (psnInPriorMpr pp.psn rx.rxBmBasePsn = true ∨
    ∃ t, rx.rxBm.get (psnOffset pp.psn rx.rxBmBasePsn) = some t)) ∨
  (pp.isCtrl .ackReq ∧ ∃ i t, rx.rxBm.get i = some t ∧ q = t.pp)

def commandedRx (rx : RxSide) : RxSide :=
  shiftRxWindow { rx with maxClearPsn := rx.maxRcvdPsn, cackPsn := rx.maxRcvdPsn }

def closeReqPkt (pp : ParsedPkt) : RxPkt := { psn := pp.psn, pp, reordered := true }

/-- The packet at index `i` with the ACK built for it. -/
def storeAck (rx : RxSide) (i : Int) (pkt : RxPkt) (h : AckHdr) : RxSide :=
  { rx with rxBm := rx.rxBm.set i { pkt with ack := some h } }

/-- What the packet `pp` can do to the receive side of a PDC, `ini` saying whether it
is an initiator; the Bool index marks a Close Command, after which the PDC is released. -/
inductive RxStep (env : Env) (ids : PdcIds) (ini : Bool) (pp : ParsedPkt) :
    Bool → RxSide → List Out → RxSide → Prop where
  | refuse {rx} (os : List Out) (hos : ∀ o ∈ os, o.refusal = true) :
    RxStep env ids ini pp false rx os rx
  | answer {rx} (q : ParsedPkt) (hq : Answers rx pp q) :
    RxStep env ids ini pp false rx (txDefRspAckPkt env ids rx q).2 (txDefRspAckPkt env ids rx q).1
  | resend {rx} (i : Int) (t : RxPkt) (h : AckHdr) (hg : rx.rxBm.get i = some t)
    (ha : t.ack = some h) : RxStep env ids ini pp false rx (resendAck env t h) rx
  | accept {rx} (ht : pp.pdsType = .rudReq) (h0 : 0 ≤ psnOffset pp.psn rx.rxBmBasePsn)
    (h1 : psnOffset pp.psn rx.rxBmBasePsn < 128)
    (hnew : rx.rxBm.get (psnOffset pp.psn rx.rxBmBasePsn) = none)
    (g : Bool) (nh : NextHdr) (rsp : List (BitVec 8)) (hs : env.ses pp.psn = .ok g nh rsp) :
    RxStep env ids ini pp false rx
      (acceptReq env ids (placeReq rx pp) (psnOffset pp.psn rx.rxBmBasePsn) (newRxPkt pp) g nh rsp).2
      (shiftRxWindow (acceptReq env ids (placeReq rx pp) (psnOffset pp.psn rx.rxBmBasePsn)
        (newRxPkt pp) g nh rsp).1)
  | deliver {rx} (ht : pp.pdsType = .rodReq) (h0 : 0 ≤ psnOffset pp.psn rx.rxBmBasePsn)
    (h1 : psnOffset pp.psn rx.rxBmBasePsn < 128)
    (hnew : rx.rxBm.get (psnOffset pp.psn rx.rxBmBasePsn) = none)
    (os : List Out) (k : Nat) (rx1 : RxSide) (hl : RodLoop env ids 0 (placeReq rx pp) os k rx1)
    (hend : rx1.rxBm.get k = none) :
    RxStep env ids ini pp false rx os (shiftRxWindow rx1)
  | clear {rx} (ht : pp.isCtrl .clear) :
    RxStep env ids ini pp false rx [] (processClearCp rx pp)
  | closeOld {rx} (ht : pp.isCtrl .closeReq) (hi : ini = true)
    (hin : psnInPriorMpr pp.psn rx.rxBmBasePsn = true) :
    RxStep env ids ini pp false rx (txAckPkt env ids rx { psn := pp.psn, pp } .none .none).2.2
      (txAckPkt env ids rx { psn := pp.psn, pp } .none .none).1
  | closeReq {rx} (ht : pp.isCtrl .closeReq) (hi : ini = true)
    (h0 : 0 ≤ psnOffset pp.psn rx.rxBmBasePsn)
    (h1 : psnOffset pp.psn rx.rxBmBasePsn < 128)
    (hnew : rx.rxBm.get (psnOffset pp.psn rx.rxBmBasePsn) = none) (r : RxSide × AckHdr × List Out)
    (hr : r = txAckPkt env ids (noteCloseReq rx (psnOffset pp.psn rx.rxBmBasePsn) (closeReqPkt pp))
      (closeReqPkt pp) .none .none) :
    RxStep env ids ini pp false rx r.2.2
      (storeAck r.1 (psnOffset pp.psn rx.rxBmBasePsn) (closeReqPkt pp) r.2.1)
  | commanded {rx} (ht : pp.isCtrl .close) (hi : ini = false)
    (hc : psnAfter pp.psn rx.cackPsn = true) :
    RxStep env ids ini pp true rx [] (commandedRx rx)
  | commandAck {rx} (ht : pp.isCtrl .close) (hi : ini = false)
    (hc : psnAfter pp.psn rx.cackPsn = true) :
    RxStep env ids ini pp true rx
      (txAckPkt env ids (commandedRx rx) { psn := pp.psn, pp } .none .none).2.2
      (txAckPkt env ids (commandedRx rx) { psn := pp.psn, pp } .none .none).1
  | commandEpsn {rx} (ht : pp.isCtrl .close) (hi : ini = false)
    (hc : psnAfter pp.psn rx.cackPsn = true) (v : BitVec 32) :
    RxStep env ids ini pp true rx (txCloseAckEpsn env ids (commandedRx rx) pp v) (commandedRx rx)

section

variable {env : Env} {ids : PdcIds} {ini : Bool} {pp : ParsedPkt}

theorem txNack_refusal (env : Env) (i : PdcId) (orig : ParsedPkt) {c : NackCode} (v : BitVec 32)
    (hc : (c != .newStartPsn) = true) : ∀ o ∈ txNack env i orig c v, o.refusal = true := by
  intro o ho
  rw [txNack, sendFrame] at ho
  split_ifs at ho
  · rw [List.mem_singleton.1 ho]
    exact hc
  · cases ho

theorem upcallSesRxReq_split (env : Env) (ids : PdcIds) (rx : RxSide) (i : Int) (t : RxPkt) :
    (∃ g nh rsp, env.ses t.pp.psn = .ok g nh rsp ∧ upcallSesRxReq env ids rx i t =
      ((acceptReq env ids rx i t g nh rsp).1, (acceptReq env ids rx i t g nh rsp).2, true)) ∨
    ∃ os, upcallSesRxReq env ids rx i t = (rx, os, false) ∧ ∀ o ∈ os, o.refusal = true := by
  rw [upcallSesRxReq]
  cases hs : env.ses t.pp.psn with
  | ok g nh rsp => exact Or.inl ⟨g, nh, rsp, rfl, rfl⟩
  | sesNack =>
    exact Or.inr ⟨_, rfl, List.forall_mem_cons.2 ⟨rfl, txNack_refusal _ _ _ _ rfl⟩⟩
  | fail =>
    exact Or.inr ⟨_, rfl, List.forall_mem_cons.2 ⟨rfl, txNack_refusal _ _ _ _ rfl⟩⟩
  | noBuf => exact Or.inr ⟨_, rfl, txNack_refusal _ _ _ _ rfl⟩

theorem acceptReq_get_none (env : Env) (ids : PdcIds) (rx : RxSide) (i : Nat) (t : RxPkt) (g : Bool)
    (nh : NextHdr) (rsp : List (BitVec 8)) (hg : rx.rxBm.get i = some t) (j : Int) :
    (markReordered (acceptReq env ids rx i t g nh rsp).1 i).rxBm.get j = none ↔ rx.rxBm.get j = none := by
  have hacc := acceptReq_accepted env ids rx i t g nh rsp rx.rxBmBasePsn.toInt
    (Uet.Serial.wrap_toInt _).symm
  obtain ⟨ack, hbm⟩ := hacc.bm
  have hrange := PtrBitmap.get_range rx.rxBm i (by rw [hg]; simp)
  have hget : (acceptReq env ids rx i t g nh rsp).1.rxBm.get i = some { t with needsClear := g, ack } := by
    rw [hbm, PtrBitmap.get_set, if_pos ⟨rfl, hrange⟩]
  simp only [markReordered, hget]
  rw [hbm, PtrBitmap.set_set, PtrBitmap.get_set]
  split_ifs with h
  · simp [h.1, hg]
  · rfl

theorem rodDeliver_loop (n : Nat) (rx : RxSide) (i : Nat)
    (hfuel : ∀ j : Int, i + n ≤ j → rx.rxBm.get j = none) :
    ∃ k, RodLoop env ids i rx (rodDeliver env ids n rx i).2 k (rodDeliver env ids n rx i).1 ∧
      (rodDeliver env ids n rx i).1.rxBm.get k = none := by
  induction n generalizing rx i with
  | zero => exact ⟨i, .refl, hfuel i (by omega)⟩
  | succ n ih =>
    rw [rodDeliver]
    cases hg : rx.rxBm.get i with
    | none => exact ⟨i, .refl, hg⟩
    | some t =>
      dsimp only
      by_cases hr : t.reordered = true
      · rw [if_pos hr]
        obtain ⟨k, hl, hk⟩ := ih rx (i + 1) fun j hj => hfuel j (by omega)
        exact ⟨k, .skip t hg hr hl, hk⟩
      rw [if_neg hr]
      have hr' : t.reordered = false := by simpa using hr
      rcases upcallSesRxReq_split env ids rx i t with ⟨g, nh, rsp, hs, hup⟩ | ⟨os, hup, hos⟩
      · simp only [hup]
        obtain ⟨k, hl, hk⟩ := ih (markReordered (acceptReq env ids rx i t g nh rsp).1 i) (i + 1)
          fun j hj => (acceptReq_get_none env ids rx i t g nh rsp hg j).2 (hfuel j (by omega))
        exact ⟨k, .deliver t g nh rsp hg hr' hs hl, hk⟩
      · simp only [hup]
        exact ⟨i, .drop t os hg hr' hos, by rw [PtrBitmap.get_unset, if_pos rfl]⟩

variable (rx : RxSide)

/-- `uet_pds_process_data_pkt` for a request just placed. -/
theorem processDataPkt_step (ht : pp.isReq)
    (h0 : 0 ≤ psnOffset pp.psn rx.rxBmBasePsn) (h1 : psnOffset pp.psn rx.rxBmBasePsn < 128)
    (hnew : rx.rxBm.get (psnOffset pp.psn rx.rxBmBasePsn) = none) :
    let r := processDataPkt env ids (placeReq rx pp) (psnOffset pp.psn rx.rxBmBasePsn) (newRxPkt pp)
    RxStep env ids ini pp false rx r.2 r.1 := by
  rw [processDataPkt]
  rcases ht with ht | ht
  · rw [show (newRxPkt pp).pp.pdsType = .rudReq from ht]
    rcases upcallSesRxReq_split env ids (placeReq rx pp) (psnOffset pp.psn rx.rxBmBasePsn)
      (newRxPkt pp) with ⟨g, nh, rsp, hs, hup⟩ | ⟨os, hup, hos⟩
    · simp only [hup]
      exact .accept ht h0 h1 hnew g nh rsp hs
    simp only [hup]
    rw [unset_placeReq rx pp hnew]
    exact .refuse os hos
  · rw [show (newRxPkt pp).pp.pdsType = .rodReq from ht]
    obtain ⟨k, hl, hk⟩ := @rodDeliver_loop env ids
      ((placeReq rx pp).rxBm.max + 1).toNat (placeReq rx pp) 0
      fun j hj => get_above_max _ j (by omega)
    exact .deliver ht h0 h1 hnew _ k _ hl hk

theorem replyNoAck_step (orig : RxPkt) (nacked q : ParsedPkt) (hq : Answers rx pp q) :
    RxStep env ids ini pp false rx (replyNoAck env ids rx orig nacked q).2
      (replyNoAck env ids rx orig nacked q).1 := by
  rw [replyNoAck]
  split_ifs
  · exact .refuse _ (txNack_refusal _ _ _ _ rfl)
  · exact .answer q hq

theorem checkDuplicateAndRtx_step (ht : pp.isReq) :
    (checkDuplicateAndRtx env ids rx pp).2.2 = .newPsn ∨
    RxStep env ids ini pp false rx (checkDuplicateAndRtx env ids rx pp).2.1
      (checkDuplicateAndRtx env ids rx pp).1 := by
  rw [checkDuplicateAndRtx]
  by_cases h1 : psnInPriorMpr pp.psn rx.rxBmBasePsn = true
  · rw [if_pos h1]
    exact Or.inr (.answer pp (Or.inl ⟨ht, rfl, Or.inl h1⟩))
  rw [if_neg h1]
  by_cases h2 : psnInMpr pp.psn rx.rxBmBasePsn = true
  · rw [if_pos h2]
    cases hg : rx.rxBm.get (psnOffset pp.psn rx.rxBmBasePsn) with
    | none => exact Or.inl rfl
    | some orig =>
      cases hack : orig.ack with
      | some h =>
        simp only [hack]
        exact Or.inr (.resend _ orig h hg hack)
      | none =>
        simp only [hack]
        exact Or.inr (replyNoAck_step rx orig pp pp (Or.inl ⟨ht, rfl, Or.inr ⟨orig, hg⟩⟩))
  · rw [if_neg h2]
    refine Or.inr (.refuse _ (txNack_refusal _ _ _ _ ?_))
    split_ifs <;> rfl

theorem receiveReq_step (d : Bool) (rx : RxSide) (ht : pp.isReq) :
    RxStep env ids ini pp false rx (receiveReq env ids d rx pp).2 (receiveReq env ids d rx pp).1 := by
  rcases receiveReq_cases env ids d rx pp with ⟨rx', outs, hr, -, -⟩ | ⟨-, h0, h1, hnew, hr⟩
  · rcases checkDuplicateAndRtx_cases env ids rx pp with ⟨hc, h0, h1, hg⟩ | ⟨rx1, os, v, hc, hv, -, -⟩
    · -- a new PSN that the caller wants dropped
      cases d with
      | true =>
        rw [receiveReq, hc]
        exact .refuse [] (by simp)
      | false =>
        rw [receiveReq, hc]
        dsimp only
        rw [if_neg (by decide)]
        split_ifs
        · exact processDataPkt_step rx ht h0 h1 hg
        · exact .refuse [] (by simp)
    · have hs := @checkDuplicateAndRtx_step env ids ini pp rx ht
      rw [receiveReq]
      rw [hc] at hs ⊢
      rcases hs with hs | hs
      · exact absurd hs hv
      cases v with
      | newPsn => exact absurd rfl hv
      | rtx => exact hs
      | invalid => exact hs
  · rw [hr]
    exact processDataPkt_step rx ht h0 h1 hnew

theorem processAckReqCp_step (ht : pp.isCtrl .ackReq) :
    RxStep env ids ini pp false rx (processAckReqCp env ids rx pp).2 (processAckReqCp env ids rx pp).1 := by
  rw [processAckReqCp]
  split_ifs
  · cases hg : rx.rxBm.get (psnOffset pp.psn rx.rxBmBasePsn) with
    | none => exact .refuse _ (txNack_refusal _ _ _ _ rfl)
    | some orig =>
      cases hack : orig.ack with
      | some h =>
        simp only [hack]
        exact .resend _ orig h hg hack
      | none =>
        simp only [hack]
        exact replyNoAck_step rx orig pp orig.pp (Or.inr ⟨ht, _, orig, hg, rfl⟩)
  · exact .refuse [] (by simp)

end

end Uet.Pds
