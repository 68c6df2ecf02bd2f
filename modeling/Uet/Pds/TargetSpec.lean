import Uet.Pds.Target

/-!
# What the receive-side functions do

One lemma per function of `Target`, over unbounded PSNs: `B` is the unbounded
`rx_bm_base_psn`. The proofs about delivery use these and do not unfold the
functions again.
-/

namespace Uet.Pds

open Uet.Serial

/-! ## The cumulative acknowledgement -/

/-- `r` is where the loop of `uet_pds_update_cack` stops: every entry before it
passes and the one at it does not. -/
structure CackAt (bm : PtrBitmap RxPkt 2) (mc : Psn) (r : Nat) : Prop where
  passes : ∀ j : Nat, j < r → cackPasses mc (bm.get j) = true
  stops : cackPasses mc (bm.get r) = false

theorem CackAt.le {bm : PtrBitmap RxPkt 2} {mc : Psn} {r : Nat} (h : CackAt bm mc r) : r ≤ 128 := by
  by_contra hlt
  have hp := h.passes 128 (by omega)
  rw [bm.get_of_out _ (Or.inr (by decide))] at hp
  cases hp

theorem CackAt.unique {bm bm' : PtrBitmap RxPkt 2} {mc : Psn} {r r' : Nat} (h : CackAt bm mc r)
    (h' : CackAt bm' mc r')
    (heq : ∀ j : Nat, cackPasses mc (bm.get j) = cackPasses mc (bm'.get j)) : r = r' := by
  rcases Nat.lt_trichotomy r r' with hlt | he | hgt
  · have := h'.passes r hlt
    rw [← heq, h.stops] at this
    cases this
  · exact he
  · have := h.passes r' hgt
    rw [heq, h'.stops] at this
    cases this

variable (bm : PtrBitmap RxPkt 2) (env : Env) (ids : PdcIds) (rx : RxSide) (i : Int) (pp : ParsedPkt) (pkt : RxPkt)
  (B : Int) (nh : NextHdr)

variable (mc : Psn)

theorem cackScan_spec (n i : Nat) : i ≤ cackScan bm mc n i ∧ cackScan bm mc n i ≤ i + n ∧
    (∀ j : Nat, i ≤ j → j < cackScan bm mc n i → cackPasses mc (bm.get j) = true) ∧
    (cackScan bm mc n i < i + n → cackPasses mc (bm.get (cackScan bm mc n i)) = false) := by
  induction n generalizing i with
  | zero => exact ⟨le_rfl, le_rfl, fun j h1 h2 => by simp only [cackScan] at h2; omega,
      fun h => by simp only [cackScan] at h; omega⟩
  | succ n ih =>
    rw [cackScan]
    by_cases hp : cackPasses mc (bm.get i) = true
    · rw [if_pos hp]
      obtain ⟨h1, h2, h3, h4⟩ := ih (i + 1)
      refine ⟨by omega, by omega, fun j hj1 hj2 => ?_, fun h => h4 (by omega)⟩
      rcases Nat.eq_or_lt_of_le hj1 with he | hlt
      · exact he ▸ hp
      · exact h3 j hlt hj2
    · rw [if_neg hp]
      exact ⟨le_rfl, by omega, fun j h1 h2 => by omega, fun _ => Bool.eq_false_iff.2 hp⟩

/-- The number of entries the loop of `uet_pds_update_cack` passes. -/
def cackLen (bm : PtrBitmap RxPkt 2) (mc : Psn) : Nat := cackScan bm mc (bm.max + 1).toNat 0

theorem cackLen_at : CackAt bm mc (cackLen bm mc) := by
  obtain ⟨-, h2, h3, h4⟩ := cackScan_spec bm mc (bm.max + 1).toNat 0
  refine ⟨fun j hj => h3 j (Nat.zero_le _) hj, ?_⟩
  by_cases hlt : cackLen bm mc < 0 + (bm.max + 1).toNat
  · exact h4 hlt
  -- the loop ran up to the highest entry; nothing is set above it
  have hnone : bm.get (cackLen bm mc) = none := by
    rcases bm.max_spec with ⟨-, hall⟩ | ⟨h0, -, hmax⟩
    · exact hall _
    by_contra hne
    have := hmax _ hne
    omega
  rw [hnone]
  rfl

/-- The loop looks at an entry's PSN and `needs_clear` flag only. -/
theorem cackLen_congr {bm bm' : PtrBitmap RxPkt 2}
    (h : ∀ j : Nat, cackPasses mc (bm.get j) = cackPasses mc (bm'.get j)) : cackLen bm mc = cackLen bm' mc :=
  (cackLen_at bm mc).unique (cackLen_at bm' mc) h

theorem ofNat_eq_pw (r : Nat) : BitVec.ofNat 32 r = pw r := by
  apply BitVec.eq_of_toNat_eq
  rw [BitVec.toNat_ofNat, BitVec.toNat_ofInt]
  omega

theorem updateCack_eq (hB : rx.rxBmBasePsn = pw B) (c : Psn) : updateCack rx c = { rx with
        maxClearPsn := updatePsn rx.maxClearPsn c
        cackPsn := pw (B + cackLen rx.rxBm (updatePsn rx.maxClearPsn c) - 1) } := by
  have h1 : (1 : Psn) = pw 1 := rfl
  simp only [updateCack, cackLen, hB, ofNat_eq_pw, h1, pw_add, pw_sub]

/-! ## The receive window -/

theorem shiftRight_zero {α : Type} (b : PtrBitmap α 2) : b.shiftRight 0 = b := by
  refine PtrBitmap.ext_get fun i => ?_
  by_cases h : 0 ≤ i
  · rw [PtrBitmap.get_shiftRight _ _ _ h]
    simp
  · rw [PtrBitmap.get_of_out _ _ (Or.inl (by omega)), PtrBitmap.get_of_out _ _ (Or.inl (by omega))]

/-- `uet_pds_shift_rx_window` when `cack_psn` is `r` entries into the window. -/
theorem shiftRxWindow_eq (r : Nat) (hB : rx.rxBmBasePsn = pw B) (hc : rx.cackPsn = pw (B + r - 1)) (hr : r ≤ 128) :
    shiftRxWindow rx = { rx with rxBm := rx.rxBm.shiftRight r, rxBmBasePsn := pw (B + r) } := by
  have h1 : (1 : Psn) = pw 1 := rfl
  have hoff : psnOffset (rx.cackPsn + 1) rx.rxBmBasePsn = r := by
    rw [hc, hB, h1, pw_add, psnOffset_pw (by simp only [InRange]; omega)]
    omega
  rw [shiftRxWindow, hoff]
  by_cases h0 : r = 0
  · subst h0
    simp [shiftRight_zero, ← hB]
  rw [if_neg (by omega), Int.toNat_natCast, hB]
  congr 1
  exact pw_add B r

/-! ## Building ACKs -/

/-- The receive state an ACK leaves behind differs in `sack_base_track` at most. -/
structure SackOnly (rx rx' : RxSide) : Prop where
  bm : rx'.rxBm = rx.rxBm
  base : rx'.rxBmBasePsn = rx.rxBmBasePsn
  cack : rx'.cackPsn = rx.cackPsn
  maxClear : rx'.maxClearPsn = rx.maxClearPsn
  prevAr : rx'.prevArPsn = rx.prevArPsn
  maxRcvd : rx'.maxRcvdPsn = rx.maxRcvdPsn
  bytes : rx'.acceptedBytes = rx.acceptedBytes

theorem SackOnly.refl : SackOnly rx rx := ⟨rfl, rfl, rfl, rfl, rfl, rfl, rfl⟩

theorem updateSackBase_sackOnly (psn : Psn) (t : Bool) : SackOnly rx (updateSackBase rx psn t) := by
  rw [updateSackBase]
  split_ifs <;> exact ⟨rfl, rfl, rfl, rfl, rfl, rfl, rfl⟩

theorem buildAckCcExt_sackOnly (psn : Psn) (h : AckHdr) : SackOnly rx (buildAckCcExt env rx psn h).1 := by
  rw [buildAckCcExt]
  split_ifs
  · exact .refl rx
  · exact updateSackBase_sackOnly rx psn true

theorem buildAckPkt_sackOnly (rc : Bool) (ses : SesHdr) : SackOnly rx (buildAckPkt env ids rx pp nh rc ses).1 := by
  rw [buildAckPkt]
  split_ifs
  · exact buildAckCcExt_sackOnly env rx pp.psn _
  · exact .refl rx

theorem buildAckPkt_hdr (rc : Bool) (ses : SesHdr) : let h := (buildAckPkt env ids rx pp nh rc ses).2
    h.cackPsn = rx.cackPsn ∧ h.ackPsnOffset = psn2cOffset rx.cackPsn pp.psn ∧
      h.pdsType = env.cfg.ackType.pdsType ∧ h.nextHdr = nh ∧ h.reqClr = rc ∧ h.ses = ses ∧
      h.spdcid = ids.pdcId ∧ h.dpdcid = ids.dpdcid := by
  simp only [buildAckPkt]
  split_ifs <;> simp [buildAckCcExt]

theorem txAckPkt_sackOnly (ses : SesHdr) : SackOnly rx (txAckPkt env ids rx pkt nh ses).1 :=
  buildAckPkt_sackOnly env ids rx pkt.pp nh pkt.needsClear ses

theorem txDefRspAckPkt_sackOnly : SackOnly rx (txDefRspAckPkt env ids rx pp).1 :=
  buildAckPkt_sackOnly env ids rx pp .rsp false _

/-! ## The SES upcall -/

/-- The receive state after SES accepted the packet `pkt` at index `i`. -/
structure Accepted (env : Env) (B : Int) (rx : RxSide) (i : Int) (pkt : RxPkt) (gtdDel : Bool)
    (rx' : RxSide) : Prop where
  bm : ∃ ack, rx'.rxBm = rx.rxBm.set i { pkt with needsClear := gtdDel, ack }
  base : rx'.rxBmBasePsn = rx.rxBmBasePsn
  maxClear : rx'.maxClearPsn = updatePsn rx.maxClearPsn pkt.pp.clearPsn
  cack : rx'.cackPsn = pw (B + cackLen rx'.rxBm rx'.maxClearPsn - 1)
  maxRcvd : rx'.maxRcvdPsn = updatePsn rx.maxRcvdPsn pkt.pp.psn

theorem cackPasses_set_ack (i j : Int) (pkt : RxPkt) (a : Option AckHdr) :
    cackPasses mc ((bm.set i { pkt with ack := a }).get j) = cackPasses mc ((bm.set i pkt).get j) := by
  rw [PtrBitmap.get_set, PtrBitmap.get_set]
  split_ifs <;> rfl

theorem takeAnswer_accepted (hB : rx.rxBmBasePsn = pw B) :
    Accepted env B rx i pkt pkt.needsClear (takeAnswer env rx i pkt) := by
  have h := updateSackBase_sackOnly
    (updateCack (noteAccepted env rx i pkt) pkt.pp.clearPsn) pkt.pp.psn false
  rw [updateCack_eq _ B (by exact hB)] at h
  rw [takeAnswer, updateCack_eq _ B (by exact hB)]
  refine ⟨⟨pkt.ack, h.bm⟩, h.base, h.maxClear, ?_, h.maxRcvd⟩
  rw [h.cack, h.bm, h.maxClear]

theorem acceptReq_accepted (g : Bool) (nh : NextHdr) (rsp : List (BitVec 8)) (B : Int) (hB : rx.rxBmBasePsn = pw B) :
    Accepted env B rx i pkt g (acceptReq env ids rx i pkt g nh rsp).1 := by
  have h := takeAnswer_accepted env rx i { pkt with needsClear := g } B hB
  rw [acceptReq]
  dsimp only
  split_ifs
  · have ha := txAckPkt_sackOnly env ids (takeAnswer env rx i { pkt with needsClear := g })
      { pkt with needsClear := g } nh (.rsp rsp)
    obtain ⟨a, hbm⟩ := h.bm
    refine ⟨⟨some (txAckPkt env ids (takeAnswer env rx i { pkt with needsClear := g })
      { pkt with needsClear := g } nh (.rsp rsp)).2.1, ?_⟩, ha.base.trans h.base, ha.maxClear.trans h.maxClear, ?_,
      ha.maxRcvd.trans h.maxRcvd⟩
    · rw [ha.bm, hbm, PtrBitmap.set_set]
    · rw [ha.cack, h.cack, ha.maxClear, ha.bm, hbm, PtrBitmap.set_set]
      refine congrArg pw (congrArg (fun r : Nat => B + (r : Int) - 1) (cackLen_congr _ fun j => ?_))
      exact (cackPasses_set_ack _ _ _ _ { pkt with needsClear := g } _).trans
        (cackPasses_set_ack _ _ _ _ { pkt with needsClear := g } _).symm
  · exact ⟨h.bm, h.base, h.maxClear, h.cack, h.maxRcvd⟩

theorem takeAnswer_bm : (takeAnswer env rx i pkt).rxBm = rx.rxBm.set i pkt :=
  (updateSackBase_sackOnly _ pkt.pp.psn false).bm

theorem acceptReq_split (g : Bool) (nh : NextHdr) (rsp : List (BitVec 8)) :
    let m := takeAnswer env rx i { pkt with needsClear := g }
    let b := buildAckPkt env ids m pkt.pp nh g (.rsp rsp)
    let upcall := Out.rxReq pkt.pp.psn (.ok g nh rsp) m.cackPsn
    acceptReq env ids rx i pkt g nh rsp = (m, [upcall]) ∨
    acceptReq env ids rx i pkt g nh rsp =
      ({ b.1 with
          rxBm := rx.rxBm.set i { pkt with needsClear := g, ack := some b.2 }
          acceptedBytes := 0 }, upcall :: sendAck env pkt.pp.psn false (ackFrame pkt.pp b.2)) := by
  rw [acceptReq]
  split_ifs
  · refine Or.inr ?_
    have hbm := (buildAckPkt_sackOnly env ids (takeAnswer env rx i { pkt with needsClear := g })
      pkt.pp nh g (.rsp rsp)).bm
    rw [takeAnswer_bm] at hbm
    dsimp only [txAckPkt]
    rw [hbm, PtrBitmap.set_set]
  · exact Or.inl rfl

def rxReqs (os : List Out) : List (Psn × SesOutcome × Psn) :=
  os.filterMap fun
    | .rxReq psn ans cack => some (psn, ans, cack)
    | _ => none

@[simp] theorem rxReqs_append (a b : List Out) : rxReqs (a ++ b) = rxReqs a ++ rxReqs b :=
  List.filterMap_append

@[simp] theorem rxReqs_sendAck (a : Psn) (b : Bool) (f : Frame) : rxReqs (sendAck env a b f) = [] := by
  rw [sendAck]
  split_ifs <;> rfl

@[simp] theorem rxReqs_sendFrame (f : Frame) : rxReqs (sendFrame env f) = [] := by
  rw [sendFrame]
  split_ifs <;> rfl

@[simp] theorem rxReqs_txNack (i : PdcId) (pp : ParsedPkt) (c : NackCode) (v : BitVec 32) :
    rxReqs (txNack env i pp c v) = [] := rxReqs_sendFrame _ _

@[simp] theorem rxReqs_cons_rxReq (p : Psn) (a : SesOutcome) (c : Psn) (os : List Out) :
    rxReqs (.rxReq p a c :: os) = (p, a, c) :: rxReqs os := rfl

theorem acceptReq_rxReqs (g : Bool) (nh : NextHdr) (rsp : List (BitVec 8)) :
    rxReqs (acceptReq env ids rx i pkt g nh rsp).2 =
      [(pkt.pp.psn, .ok g nh rsp, (acceptReq env ids rx i pkt g nh rsp).1.cackPsn)] := by
  rw [acceptReq]
  split_ifs
  · have ha := txAckPkt_sackOnly env ids (takeAnswer env rx i { pkt with needsClear := g })
      { pkt with needsClear := g } nh (.rsp rsp)
    rw [rxReqs_cons_rxReq, ha.cack]
    simp [txAckPkt]
  · rfl

/-- What an `rx_req` upcall can do: SES accepts the packet, or the state is unchanged. -/
theorem upcallSesRxReq_cases (hB : rx.rxBmBasePsn = pw B) : (∃ g nh rsp rx' outs, env.ses pkt.pp.psn = .ok g nh rsp ∧
      upcallSesRxReq env ids rx i pkt = (rx', outs, true) ∧ Accepted env B rx i pkt g rx' ∧
      rxReqs outs = [(pkt.pp.psn, .ok g nh rsp, rx'.cackPsn)]) ∨
    (∃ outs, (∀ g nh rsp, env.ses pkt.pp.psn ≠ .ok g nh rsp) ∧
      upcallSesRxReq env ids rx i pkt = (rx, outs, false) ∧
      ∀ e ∈ rxReqs outs, e.1 = pkt.pp.psn ∧ (∀ g nh rsp, e.2.1 ≠ .ok g nh rsp) ∧ e.2.2 = rx.cackPsn) := by
  rw [upcallSesRxReq]
  cases hs : env.ses pkt.pp.psn with
  | ok g nh rsp =>
    exact Or.inl ⟨g, nh, rsp, _, _, rfl, rfl, acceptReq_accepted env ids rx i pkt g nh rsp B hB,
      acceptReq_rxReqs env ids rx i pkt g nh rsp⟩
  | sesNack => exact Or.inr ⟨_, by simp, rfl, by simp⟩
  | fail => exact Or.inr ⟨_, by simp, rfl, by simp⟩
  | noBuf => exact Or.inr ⟨_, by simp, rfl, by simp⟩

theorem get_above_max (j : Int) (hj : ((bm.max + 1).toNat : Int) ≤ j) : bm.get j = none := by
  by_contra hne
  rcases bm.max_spec with ⟨-, hall⟩ | ⟨-, -, hmax⟩
  · exact hne (hall j)
  · have := hmax j hne
    omega

/-! ## Arrival of a request -/

@[simp] theorem rxReqs_txDefRspAckPkt : rxReqs (txDefRspAckPkt env ids rx pp).2 = [] := by
  simp [txDefRspAckPkt]

theorem replyNoAck_sackOnly (orig : RxPkt) (nacked pp : ParsedPkt) :
    SackOnly rx (replyNoAck env ids rx orig nacked pp).1 ∧
      rxReqs (replyNoAck env ids rx orig nacked pp).2 = [] := by
  rw [replyNoAck]
  split_ifs
  · exact ⟨.refl rx, rxReqs_txNack _ _ _ _ _⟩
  · exact ⟨txDefRspAckPkt_sackOnly env ids rx pp, rxReqs_txDefRspAckPkt env ids rx pp⟩

theorem checkDuplicateAndRtx_cases : (checkDuplicateAndRtx env ids rx pp = (rx, [], .newPsn) ∧
      0 ≤ psnOffset pp.psn rx.rxBmBasePsn ∧ psnOffset pp.psn rx.rxBmBasePsn < 128 ∧
      rx.rxBm.get (psnOffset pp.psn rx.rxBmBasePsn) = none) ∨
    ∃ rx' outs v, checkDuplicateAndRtx env ids rx pp = (rx', outs, v) ∧ v ≠ .newPsn ∧
      SackOnly rx rx' ∧ rxReqs outs = [] := by
  rw [checkDuplicateAndRtx]
  by_cases h1 : psnInPriorMpr pp.psn rx.rxBmBasePsn = true
  · rw [if_pos h1]
    exact Or.inr ⟨_, _, _, rfl, by decide, txDefRspAckPkt_sackOnly env ids rx pp,
      rxReqs_txDefRspAckPkt env ids rx pp⟩
  rw [if_neg h1]
  by_cases h2 : psnInMpr pp.psn rx.rxBmBasePsn = true
  · rw [if_pos h2]
    cases hg : rx.rxBm.get (psnOffset pp.psn rx.rxBmBasePsn) with
    | none =>
      obtain ⟨ha, hb⟩ := (psnInMpr_iff _ _).1 h2
      exact Or.inl ⟨rfl, ha, hb, rfl⟩
    | some orig =>
      cases hack : orig.ack with
      | some h =>
        simp only [hack]
        exact Or.inr ⟨_, _, _, rfl, by decide, .refl rx, rxReqs_sendAck _ _ _ _⟩
      | none =>
        simp only [hack]
        obtain ⟨ha, hb⟩ := replyNoAck_sackOnly env ids rx orig pp pp
        exact Or.inr ⟨_, _, _, rfl, by decide, ha, hb⟩
  · rw [if_neg h2]
    exact Or.inr ⟨_, _, _, rfl, by decide, .refl rx, rxReqs_txNack _ _ _ _ _⟩

def newRxPkt (pp : ParsedPkt) : RxPkt := { psn := pp.psn, pp }

def placeReq (rx : RxSide) (pp : ParsedPkt) : RxSide :=
  { rx with rxBm := rx.rxBm.set (psnOffset pp.psn rx.rxBmBasePsn) (newRxPkt pp) }

/-- A request changes nothing that delivery depends on, or it is new, inside the
window, and goes to `uet_pds_process_data_pkt`. -/
theorem receiveReq_cases (d : Bool) (rx : RxSide) (pp : ParsedPkt) :
    (∃ rx' outs, receiveReq env ids d rx pp = (rx', outs) ∧ SackOnly rx rx' ∧ rxReqs outs = []) ∨
    (d = false ∧ 0 ≤ psnOffset pp.psn rx.rxBmBasePsn ∧ psnOffset pp.psn rx.rxBmBasePsn < 128 ∧
      rx.rxBm.get (psnOffset pp.psn rx.rxBmBasePsn) = none ∧
      receiveReq env ids d rx pp =
        processDataPkt env ids (placeReq rx pp) (psnOffset pp.psn rx.rxBmBasePsn) (newRxPkt pp)) := by
  rw [receiveReq]
  rcases checkDuplicateAndRtx_cases env ids rx pp with ⟨h, h0, h1, hg⟩ | ⟨rx', outs, v, h, hv, hs, ho⟩
  · rw [h]
    cases d with
    | true => exact Or.inl ⟨_, _, rfl, .refl rx, rfl⟩
    | false =>
      have hset : rx.rxBm.settable (psnOffset pp.psn rx.rxBmBasePsn) (newRxPkt pp) = true :=
        (PtrBitmap.settable_iff _ _ _).2 ⟨h0, h1⟩
      refine Or.inr ⟨rfl, h0, h1, hg, ?_⟩
      dsimp only
      rw [if_neg (by decide)]
      exact if_pos hset
  · rw [h]
    cases v with
    | newPsn => exact absurd rfl hv
    | rtx => exact Or.inl ⟨_, _, rfl, hs, ho⟩
    | invalid => exact Or.inl ⟨_, _, rfl, hs, ho⟩

theorem unset_placeReq (hg : rx.rxBm.get (psnOffset pp.psn rx.rxBmBasePsn) = none) : { placeReq rx pp with
      rxBm := (placeReq rx pp).rxBm.unset (psnOffset pp.psn rx.rxBmBasePsn) } = rx := by
  simp only [placeReq]
  rw [PtrBitmap.unset_set _ _ _ hg]

end Uet.Pds
