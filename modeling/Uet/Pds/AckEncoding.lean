import Uet.Pds.RxInvariant
import Uet.Pds.TxInvariant

/-!
# The PSN an ACK names

An ACK carries `cack_psn` and a signed 16-bit offset to the PSN it acknowledges.
A target keeps `cack_psn` next to its window from the start. An initiator does not
set `cack_psn` when it is handed out, and a Close Command makes `cack_psn` the
highest received PSN whatever its own PSN is; `ackReady` is what the encoding needs
at these two places.
-/

namespace Uet.Pds

open Uet.Serial

/-! ## When the encoding is sound -/

/-- `cack_psn` is where a maintained one can be: before the end of the window and
near enough to be named from every PSN around it. -/
def cackUsable (rx : RxSide) : Bool :=
  decide (-32640 ≤ psnOffset rx.cackPsn rx.rxBmBasePsn) &&
    decide (psnOffset rx.cackPsn rx.rxBmBasePsn ≤ 127)

def isNewReq (rx : RxSide) (pp : ParsedPkt) : Bool :=
  psnInMpr pp.psn rx.rxBmBasePsn && (rx.rxBm.get (psnOffset pp.psn rx.rxBmBasePsn)).isNone

def sesTakes (env : Env) (psn : Psn) : Bool :=
  match env.ses psn with
  | .ok .. => true
  | _ => false

/-- The packet is answered, or the window shifted, by `cack_psn` as it stands and not
as `uet_pds_update_cack` computes it for the packet. -/
def readsCack (env : Env) (rx : RxSide) (pp : ParsedPkt) : Bool :=
  match pp.pdsType with
  | .rudReq => !isNewReq rx pp
  | .rodReq => !(isNewReq rx pp && pp.psn == rx.rxBmBasePsn && sesTakes env pp.psn)
  | .ctrl => pp.ctrlType == .ackReq || pp.ctrlType == .closeReq
  | _ => false

/-- An initiator that reads `cack_psn` has a usable one and is not given a new
Start_PSN while it tracks received packets; a target is told to close by a PSN at
most 32767 after the highest it received. -/
def ackReady (env : Env) (p : Pdc) : Event → Bool
  | .rx f =>
    let pp := parsePkt f
    if p.isInitiator then
      (!readsCack env p.rx pp || cackUsable p.rx) &&
        !(pp.nackCode == .newStartPsn && p.state == .syn && decide (0 < p.rx.rxBm.count))
    else
      !(pp.pdsType == .ctrl && pp.ctrlType == .close &&
        psnAfter pp.psn (p.rx.maxRcvdPsn + 32767))
  | _ => true

/-! ## One packet -/

def RxInv (ini : Bool) (rx : RxSide) : Prop :=
  if ini then ∃ B, RxCore B rx else ∃ B M K, RxIdle B M K rx

variable {env : Env} {rx : RxSide} {pp : ParsedPkt} {rx' : RxSide} {os : List Out}

/-- A packet that is answered by its default response reads `cack_psn`. -/
theorem readsCack_of_answers {q : ParsedPkt} (hq : Answers rx pp q) : readsCack env rx pp = true := by
  have hold : (psnInPriorMpr pp.psn rx.rxBmBasePsn = true ∨
      ∃ t, rx.rxBm.get (psnOffset pp.psn rx.rxBmBasePsn) = some t) → isNewReq rx pp = false := by
    rintro (hin | ⟨t, ht⟩)
    · rw [isNewReq, Bool.and_eq_false_iff]
      refine Or.inl (Bool.eq_false_iff.2 fun hc => ?_)
      have h1 := (psnInPriorMpr_iff _ _).1 hin
      have h2 := (psnInMpr_iff _ _).1 hc
      omega
    · simp [isNewReq, ht]
  rcases hq with ⟨ht | ht, -, h⟩ | ⟨⟨ht, hc⟩, -⟩
  · simp [readsCack, ht, hold h]
  · simp [readsCack, ht, hold h]
  · simp [readsCack, ht, hc]

/-- The PSN of a maintained or usable `cack_psn` near the window at `B`. -/
theorem cackUsable_near {B : Int} (hb : rx.rxBmBasePsn = pw B) (h : cackUsable rx = true) :
    ∃ C, rx.cackPsn = pw C ∧ B - 32640 ≤ C ∧ C ≤ B + 127 := by
  simp only [cackUsable, Bool.and_eq_true, decide_eq_true_iff] at h
  exact ⟨_, psn_at B hb rx.cackPsn, by omega, by omega⟩

theorem RxCore.step {B : Int} {ids : PdcIds} (h : RxCore B rx)
    (hr : readsCack env rx pp = true → cackUsable rx = true) (hs : RxStep env ids true pp false rx os rx') :
    (∃ B', RxCore B' rx') ∧ AcksName os := by
  cases hs with
  | refuse os hos => exact ⟨⟨B, h⟩, .of_refusal hos⟩
  | answer q hq =>
    obtain ⟨C, hc, h1, h2⟩ := cackUsable_near h.base (hr (readsCack_of_answers hq))
    obtain ⟨n, hn, h3, h4⟩ := answers_near h hq
    have hnames := buildAckPkt_names env ids rx q .rsp false (.defRsp q.sesMsgId) hn hc (by omega)
      (by omega)
    exact ⟨⟨B, h.sackOnly (txDefRspAckPkt_sackOnly env ids rx q)⟩, sendAck_names env false q hnames⟩
  | resend i t hd hg ha => exact ⟨⟨B, h⟩, sendAck_names env true t.pp ((h.entry i t hg).2.2 hd ha)⟩
  | accept ht h0 h1 hnew g nh rsp hses =>
    have hget : (placeReq rx pp).rxBm.get (psnOffset pp.psn rx.rxBmBasePsn) = some (newRxPkt pp) := by
      rw [placeReq]
      exact (PtrBitmap.get_set _ _ _ _).trans (if_pos ⟨rfl, h0, h1⟩)
    obtain ⟨hcore, hn⟩ := (h.place pp).accept env ids g nh rsp hget
    exact ⟨hcore.shift, hn⟩
  | deliver ht h0 h1 hnew os k rx1 hl hend =>
    obtain ⟨hcore, hn⟩ := (h.place pp).loop hl
    exact ⟨hcore.shift, hn⟩
  | clear ht =>
    refine ⟨RxCore.shift (B := B) ?_, .nil⟩
    rw [updateCack_eq rx B h.base]
    exact h.congr rfl rfl
  | closeOld ht hi hin =>
    obtain ⟨C, hc, h1, h2⟩ := cackUsable_near h.base (hr (by simp [readsCack, ht.1, ht.2]))
    have hw := (psnInPriorMpr_iff _ _).1 hin
    have hnames := buildAckPkt_names env ids rx pp .none false .none (psn_at B h.base pp.psn) hc
      (by omega) (by omega)
    exact ⟨⟨B, h.sackOnly (buildAckPkt_sackOnly env ids rx pp .none false .none)⟩,
      sendAck_names env false pp hnames⟩
  | closeReq ht hi h0 h1 hnew r hres =>
    obtain ⟨C, hc, h2, h3⟩ := cackUsable_near h.base (hr (by simp [readsCack, ht.1, ht.2]))
    have hp := psn_at B h.base pp.psn
    have hbuilt := buildAckPkt_names env ids
      (noteCloseReq rx (psnOffset pp.psn rx.rxBmBasePsn) (closeReqPkt pp)) pp .none false .none hp hc
      (by omega) (by omega)
    have hnames : r.2.1.Names pp.psn := by
      rw [hres]
      exact hbuilt
    have houts : AcksName r.2.2 := by
      rw [hres]
      exact sendAck_names env false pp hbuilt
    have hsack : SackOnly (noteCloseReq rx (psnOffset pp.psn rx.rxBmBasePsn) (closeReqPkt pp)) r.1 := by
      rw [hres]
      exact txAckPkt_sackOnly _ _ _ _ _ _
    refine ⟨⟨B, h.set (t := { closeReqPkt pp with ack := some r.2.1 }) hp rfl ?_ hsack.base ?_⟩, houts⟩
    · intro a ha
      cases ha
      exact hnames
    · rw [storeAck]
      rw [hsack.bm]
      exact PtrBitmap.set_set _ _ _ _

/-- A Close Command at a target: `cack_psn` becomes the highest received PSN. -/
theorem RxIdle.command {B M K : Int} {ids : PdcIds} (h : RxIdle B M K rx)
    (hr : psnAfter pp.psn (rx.maxRcvdPsn + 32767) = false) (hs : RxStep env ids false pp true rx os rx') :
    AcksName os := by
  have hcack : (commandedRx rx).cackPsn = pw M := by
    rw [commandedRx, shiftRxWindow]
    split_ifs <;> exact h.at_.rcvd
  have h1 := h.at_.rcvd_ge
  have h2 := h.at_.rcvd_le
  have hnear : psnAfter pp.psn rx.cackPsn = true → ∃ n, pp.psn = pw n ∧ -32768 ≤ n - M ∧ n - M < 32768 := by
    intro hc
    have hrange := psnOffset_range pp.psn rx.cackPsn
    have hp := pw_add_psnOffset (B - 1) pp.psn
    rw [← h.at_.cack] at hp
    have hpos : 0 < psnOffset pp.psn rx.cackPsn := of_decide_eq_true hc
    have h3 : rx.maxRcvdPsn + 32767 = pw (M + 32767) := by
      rw [h.at_.rcvd]
      exact pw_add M 32767
    rw [h3, ← hp, psnAfter_pw (by simp only [InRange]; omega)] at hr
    have := of_decide_eq_false hr
    exact ⟨_, hp.symm, by omega, by omega⟩
  cases hs with
  | commanded ht hi hc => exact .nil
  | commandAck ht hi hc =>
    obtain ⟨n, hn, h3, h4⟩ := hnear hc
    exact sendAck_names env false pp
      (buildAckPkt_names env ids (commandedRx rx) pp .none false .none hn hcack h3 h4)
  | commandEpsn ht hi hc v =>
    obtain ⟨n, hn, h3, h4⟩ := hnear hc
    exact sendAck_names env false pp (AckHdr.names_of hn hcack rfl h3 h4)

theorem AcksName.of_tx (h : ∀ o ∈ os, o.isRx = false) : AcksName os := by
  intro a r f hm
  cases h _ hm

structure AckState (p : Pdc) : Prop where
  target : p.isInitiator = false → p.state ≠ .syn
  rx : p.state = .unalloc ∨ RxInv p.isInitiator p.rx

theorem RxFrom.acks {p : Pdc} {e : Event} {c : Bool} (h : RxFrom env p e c rx os rx') (hp : RxInv p.isInitiator p.rx)
    (hq : ackReady env p e = true) : AcksName os ∧ (c = false → RxInv p.isInitiator rx') := by
  obtain ⟨rfl, f, rfl, -, hs⟩ := h
  rw [ackReady] at hq
  rw [RxInv] at hp ⊢
  cases hi : p.isInitiator with
  | true =>
    rw [hi] at hp hs
    simp only [hi, if_true, Bool.and_eq_true, Bool.or_eq_true, Bool.not_eq_true'] at hq hp ⊢
    obtain ⟨B, hcore⟩ := hp
    cases c with
    | false =>
      obtain ⟨h1, h2⟩ := hcore.step (fun hr => hq.1.resolve_left (by rw [hr]; decide)) hs
      exact ⟨h2, fun _ => h1⟩
    | true =>
      cases hs with
      | commanded ht hi' hc => cases hi'
      | commandAck ht hi' hc => cases hi'
      | commandEpsn ht hi' hc v => cases hi'
  | false =>
    rw [hi] at hp hs
    simp only [hi, if_false, Bool.false_eq_true] at hq hp ⊢
    obtain ⟨B, M, K, hidle⟩ := hp
    cases c with
    | false =>
      obtain ⟨B', M', K', h1, h2, -⟩ := hidle.step hs
      exact ⟨h2, fun _ => ⟨B', M', K', h1⟩⟩
    | true =>
      have ht : (parsePkt f).isCtrl .close := by cases hs <;> assumption
      exact ⟨hidle.command (by simpa [ht.1, ht.2] using hq) hs, fun hc => by cases hc⟩

theorem nack_of_newStartPsn {f : Frame} (h : (parsePkt f).nackCode = .newStartPsn) : ¬ (parsePkt f).isRx := by
  rw [parsePkt] at h ⊢
  cases hf : f.hdr with
  | nack n => simp [ParsedPkt.isRx, ParsedPkt.isReq, parseNack]
  | req r => simp [hf, parseReq] at h
  | ack a => simp [hf, parseAck] at h
  | ctrl c => simp [hf, parseCtrl] at h

theorem AckState.step {p : Pdc} {e : Event} {log : List Out} (h : AckState p) (hacct : Acct none log p.tx)
    (hrel : p.released) (hq : ackReady env p e = true) :
    AckState (Uet.Pds.step env p e).1 ∧ AcksName (Uet.Pds.step env p e).2 := by
  rcases h.rx with hu | hrx
  · obtain ⟨outs, hs, hm⟩ := step_unalloc env p e hrel hu
    rw [hs]
    exact ⟨h, .of_tx fun o ho => Out.isRx_of_mute (hm o ho)⟩
  -- a re-base happens while nothing is tracked on the receive side
  have hempty : ∀ pp, e.pkt = some pp → pp.nackCode = .newStartPsn → p.state = .syn →
      ∀ i, p.rx.rxBm.get i = none := by
    intro pp he hc hsyn
    cases e with
    | rx f =>
      cases he
      have hini : p.isInitiator = true := by
        by_contra hc'
        exact h.target (by simpa using hc') hsyn
      simp only [ackReady, hini, if_true, hc, hsyn, Bool.and_eq_true] at hq
      exact (PtrBitmap.count_eq_zero _).1 (by simpa using hq.2)
    | _ => cases he
  have hkeep := (step_moves (b := True) env p e hrel fun _ => trivial).keep
    (P := fun u os q => Acct u (log ++ os) q.tx ∧ AcksName os ∧ AckState q ∧
      q.isInitiator = p.isInitiator ∧ ∀ pp, e.pkt = some pp → pp.nackCode = .newStartPsn →
        q.state = .syn → ∀ i, q.rx.rxBm.get i = none)
    (l := []) ?_ ⟨by rw [List.append_nil]; exact hacct, .nil, h, rfl, hempty⟩
  · rw [List.nil_append] at hkeep
    exact ⟨hkeep.2.2.1, hkeep.2.1⟩
  rintro u q os os' u' q' ⟨ha, hn, hst, hini, hemp⟩ m
  rw [← List.append_assoc]
  refine ⟨ha.move m, ?_⟩
  rcases m.rx_cases with ⟨hrx', hi', hs', hu', ho⟩ | ⟨rx, hR, rfl⟩ | ⟨rx, os1, hR, rfl, rfl⟩ |
    ⟨rfl, rfl⟩ | ⟨env', pp, hw, hc, rfl, rfl⟩
  · refine ⟨hn.append (.of_tx ho), ⟨fun ht hsyn => ?_, ?_⟩, hi'.trans hini, ?_⟩
    · exact hst.target (hi'.symm.trans ht) (hs' hsyn)
    · rw [hrx', hi', hu']
      exact hst.rx
    · rw [hrx']
      exact fun pp he hc hsyn => hemp pp he hc (hs' hsyn)
  · obtain ⟨h1, h2⟩ := hR.acks hrx hq
    refine ⟨hn.append h1, ⟨hst.target, Or.inr ?_⟩, hini, fun pp he hc => ?_⟩
    · rw [hini]
      exact h2 rfl
    · obtain ⟨-, f, rfl, hrx', -⟩ := hR
      cases he
      exact absurd hrx' (nack_of_newStartPsn hc)
  · obtain ⟨h1, -⟩ := hR.acks hrx hq
    exact ⟨hn.append (h1.append (.of_tx (freePdc_outs _))), ⟨fun _ => by simp [freePdc], Or.inl rfl⟩,
      hini, fun _ _ _ hsyn => by cases hsyn⟩
  · exact ⟨hn.append (.of_tx (freePdc_outs _)), ⟨fun _ => by simp [freePdc], Or.inl rfl⟩, hini,
      fun _ _ _ hsyn => by cases hsyn⟩
  · rcases reestablishStartPsn_cases env' q pp.payload ha.inv with heq | ⟨hsyn, heq, ho⟩
    · rw [heq, List.append_nil]
      exact ⟨hn, hst, hini, hemp⟩
    · have hg := hemp pp hw hc hsyn
      rw [heq]
      refine ⟨hn.append (.of_tx fun o ho' => ?_), ⟨hst.target, Or.inr ?_⟩, hini, fun _ _ _ _ => hg⟩
      · obtain ⟨id, -, k, -, rfl⟩ := ho o ho'
        rfl
      · have hi : q.isInitiator = true := by
          by_contra hc'
          exact hst.target (by simpa using hc') hsyn
        simp only [RxInv, hi, if_true]
        exact ⟨_, .empty (wrap_toInt _).symm hg⟩

theorem Handout.ackState (slot : Pdc) (sec : Bool) (h : Handout) : AckState (h.pdc slot sec) := by
  cases h with
  | ini l q s =>
    exact ⟨fun hc => (by cases hc), Or.inr ⟨s.toInt, .empty (wrap_toInt s).symm
      fun i => PtrBitmap.get_clear _ i⟩⟩
  | tgt syn base pending =>
    have hb : base = pw base.toInt := (wrap_toInt base).symm
    have hb1 : base - 1 = pw (base.toInt - 1) := by
      conv_lhs => rw [hb]
      exact pw_sub _ 1
    have hg : ∀ i, (newTgtPdc slot sec syn base).rx.rxBm.get i = none := fun i => PtrBitmap.get_clear _ i
    have hidle : RxIdle base.toInt (base.toInt - 1) (base.toInt - 1)
        (newTgtPdc slot sec syn base).rx := by
      refine ⟨⟨.empty hb hg, hb1, hb1, hb1, by omega, by omega, by omega, by omega, by omega, by omega,
        fun i t ht => ?_⟩, fun t ht => ?_⟩
      · rw [hg] at ht
        cases ht
      · rw [hg] at ht
        cases ht
    cases pending <;> exact ⟨fun _ => by simp [Handout.pdc, newTgtPdc, initPdc, seedTgtPsns, getSdi],
      Or.inr ⟨_, _, _, hidle⟩⟩

/-- Every ACK a PDC sends names the packet it acknowledges: in every run whose steps
are all ready, the acknowledged PSN minus the `cack_psn` of the header fits a signed
16-bit value and the parser computes that PSN. -/
theorem ack_names_packet (slot : Pdc) (sec : Bool) (h : Handout) (es : List (Env × Event))
    (hready : (h.pdc slot sec).always ackReady es = true) :
    ∀ a r f, Out.txAck a r f ∈ ((h.pdc slot sec).run es).2 →
      -32768 ≤ psnOffset a (parsePkt f).cackPsn ∧ psnOffset a (parsePkt f).cackPsn < 32768 ∧
        (parsePkt f).psn = a := by
  have hrun := Pdc.run_keep (q := ackReady)
    (P := fun log p => Acct none log p.tx ∧ p.released ∧ AckState p ∧ AcksName log) ?_
    ⟨Handout.acct slot sec h, Handout.released slot sec h, Handout.ackState slot sec h, .nil⟩ es hready
  · intro a r f hm
    rw [List.nil_append] at hrun
    obtain ⟨q, hd, rfl, hn⟩ := hrun.2.2.2 a r f hm
    exact ⟨hn.ge, hn.lt, hn.decode⟩
  · rintro env p e log ⟨hacct, hrel, hst, hn⟩ hq
    obtain ⟨h1, h2⟩ := (step_moves (b := True) env p e hrel fun _ => trivial).keep
      (P := fun u log p => Acct u log p.tx ∧ p.released)
      (fun _ _ _ _ _ _ hp m => ⟨hp.1.move m, hp.2.move m⟩) ⟨hacct, hrel⟩
    obtain ⟨h3, h4⟩ := hst.step hacct hrel hq
    exact ⟨h1, h2, h3, hn.append h4⟩

def acksOf (os : List Out) : List (Psn × Psn) :=
  os.filterMap fun
    | .txAck a _ f => some (a, (parsePkt f).psn)
    | _ => none

/-- A message of an initiator at Start_PSN `s`, its ACK, and a Close Request of the target. -/
def closeReqRun (s : Psn) : List (Env × Event) :=
  [sendMsg 1, ackOf s 0,
    (calmEnv fun _ => .noBuf, .rx ⟨.v4 2, .v4 1, .ctrl
      { ctrlType := .closeReq, retx := false, ar := true, syn := false, psn := s, spdcid := 7,
        pdcInfo := 1, payload := 0 }⟩)]

def iniAt (s : Psn) : Pdc := Handout.pdc (freshSlot 1) false (.ini (.v4 1) (.v4 2) s)

/-- The Close Request 100000 is acknowledged from a `cack_psn` that was never set. -/
theorem close_request_misnamed :
    acksOf ((iniAt 100000).run (closeReqRun 100000)).2 = [(100000, 4294936224)] := by
  decide +kernel

theorem ack_names_close_request :
    (iniAt 1000).always ackReady (closeReqRun 1000) = true ∧
    acksOf ((iniAt 1000).run (closeReqRun 1000)).2 = [(1000, 1000)] ∧
    ∀ a r f, Out.txAck a r f ∈ ((iniAt 1000).run (closeReqRun 1000)).2 →
      -32768 ≤ psnOffset a (parsePkt f).cackPsn ∧ psnOffset a (parsePkt f).cackPsn < 32768 ∧
        (parsePkt f).psn = a :=
  have hq : (iniAt 1000).always ackReady (closeReqRun 1000) = true := by decide +kernel
  ⟨hq, by decide +kernel, ack_names_packet (freshSlot 1) false (.ini (.v4 1) (.v4 2) 1000) _ hq⟩

end Uet.Pds
