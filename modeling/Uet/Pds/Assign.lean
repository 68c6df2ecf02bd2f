import Uet.Pds.Step

/-!
# Handing out a PDC slot

`uet_init_pdc` and the field values `uet_pdsm_assign_ini_pdc` and
`uet_pdsm_assign_tgt_pdc` give a slot they hand out. Fields that none of the three
assigns keep what the slot's previous connection left in them. A free slot tracks
no packet, so its packet heap is empty.
-/

namespace Uet.Pds

/-- A slot as `uet_pds_initialize` leaves it. -/
def freshSlot (pdcId : PdcId) : Pdc :=
  { state := .unalloc, isInitiator := false, pdcId, dpdcid := 0, activeMsgId := 0,
    activeMsgIdValid := false, closeRequested := false, closeStarted := false, closeCmdPsn := 0,
    srcAddr := .v4 0, dstAddr := .v4 0, synOffset := 0, startPsn := 0, pendingTime := 0,
    closeReqTime := 0, secEnabled := false, sdi := 0
    tx := { txPktList := [], txBm := .empty PktId 2, pkts := fun _ => none, nextId := 0, nextPsn := 0,
            txBmBasePsn := 0, maxCackPsn := 0, peerMpRange := 0, mprUpdateCackPsn := 0,
            mprUpdateValid := false }
    rx := { rxBm := .empty RxPkt 2, rxBmBasePsn := 0, cackPsn := 0, maxClearPsn := 0, prevArPsn := 0,
            maxRcvdPsn := 0, acceptedBytes := 0, sackBaseTrack := 0 } }

/-- The settings `uet_pds_initialize` makes without environment variables. -/
def defaultCfg : Cfg :=
  { perPktAckEnabled := false, ackType := .ack, ackGenMinPktAdd := 1024, ackGenTrigger := 16384,
    maxTxRetries := 5, txTimeout := 5, newPdcTimeMs := 1000, closeReqTimeMs := 1000,
    psnMethod := .zeroRtt }

/-- Surroundings where nothing fails and SES answers by `ses`. -/
def calmEnv (ses : Psn → SesOutcome) : Env :=
  { cfg := defaultCfg, now := 0, ses, nic := fun _ => true, rspOk := true, mapOk := true,
    randClose := false, sd := ⟨0, 0⟩ }

/-- `uet_init_pdc`. -/
def initPdc (slot : Pdc) (state : PdcState) (isInitiator : Bool) : Pdc :=
  { slot with
    state
    isInitiator
    dpdcid := 0
    activeMsgId := 0
    activeMsgIdValid := false
    closeRequested := false
    closeStarted := false
    closeCmdPsn := 0
    closeReqTime := 0
    pendingTime := 0
    synOffset := 0
    tx := { slot.tx with
      txPktList := []
      pkts := fun _ => none
      nextPsn := 0
      txBm := slot.tx.txBm.clear
      txBmBasePsn := 0
      maxCackPsn := 0
      peerMpRange := BitVec.ofNat 32 mpRange
      mprUpdateCackPsn := 0
      mprUpdateValid := false }
    rx := { slot.rx with rxBm := slot.rx.rxBm.clear, rxBmBasePsn := 0 } }

/-- `uet_pdsm_get_sdi`: `sec` is whether `UET_SEC_MODE` is set; the SDI is fixed. -/
def getSdi (sec : Bool) (p : Pdc) : Pdc := { p with secEnabled := sec, sdi := 1 }

/-- The PSN fields `uet_pdsm_assign_tgt_pdc` seeds from the chosen base. -/
def seedTgtPsns (base : Psn) (p : Pdc) : Pdc :=
  { p with
    startPsn := base
    tx := { p.tx with txBmBasePsn := base, nextPsn := base, maxCackPsn := base - 1 }
    rx := { p.rx with
      rxBmBasePsn := base
      cackPsn := base - 1
      maxClearPsn := base - 1
      prevArPsn := base - 1
      maxRcvdPsn := base - 1
      sackBaseTrack := base - 1 } }

/-- The target PDC `uet_pdsm_assign_tgt_pdc` makes of a free slot for a SYN request. -/
def newTgtPdc (slot : Pdc) (sec : Bool) (pp : ParsedPkt) (base : Psn) : Pdc :=
  let p := initPdc slot .established false
  let p := { p with
    srcAddr := pp.dst
    dstAddr := pp.src
    dpdcid := pp.spdcid
    rx := { p.rx with acceptedBytes := 0 } }
  seedTgtPsns base (getSdi sec p)

/-- The initiator PDC `uet_pdsm_assign_ini_pdc` makes of a free slot. -/
def newIniPdc (slot : Pdc) (sec : Bool) (local_ peer : Fa) (startPsn : Psn) : Pdc :=
  let p := getSdi sec { initPdc slot .syn true with srcAddr := local_, dstAddr := peer }
  { p with
    startPsn
    tx := { p.tx with nextPsn := startPsn, txBmBasePsn := startPsn, maxCackPsn := startPsn - 1 }
    rx := { p.rx with rxBmBasePsn := startPsn } }

/-- How a slot is handed out: to an initiator, or to a target that accepts the
SYN's Start_PSN (`none`) or waits PENDING for another one since some time. -/
inductive Handout where
  | ini (local_ peer : Fa) (startPsn : Psn)
  | tgt (syn : ParsedPkt) (base : Psn) (pending : Option Nat)

def Handout.pdc (slot : Pdc) (sec : Bool) : Handout → Pdc
  | .ini local_ peer startPsn => newIniPdc slot sec local_ peer startPsn
  | .tgt syn base none => newTgtPdc slot sec syn base
  | .tgt syn base (some t) =>
    { newTgtPdc slot sec syn base with state := .pending, pendingTime := t }

def Pdc.run (p : Pdc) : List (Env × Event) → Pdc × List Out
  | [] => (p, [])
  | (env, e) :: es =>
    let (p, outs) := step env p e
    let (p, rest) := p.run es
    (p, outs ++ rest)

/-- A one-packet message with SES handle `h`. -/
def sendMsg (h : Handle) : Env × Event :=
  (calmEnv fun _ => .noBuf,
    .txPkt { handle := some h, mode := .rud, pdsInfo := false, som := true, eom := true,
             maintainPdc := false, msgId := 5, nextHdr := .reqStd, dstFa := .v4 2,
             payloadLen := 64 })

/-- An ACK of `cack + off` from the target. -/
def ackOf (cack : Psn) (off : BitVec 16) : Env × Event :=
  (calmEnv fun _ => .noBuf,
    .rx ⟨.v4 2, .v4 1, .ack
      { pdsType := .ack, nextHdr := .none, reqClr := false, epsn := false, ackPsnOffset := off,
        cackPsn := cack, spdcid := 7, dpdcid := 1, mpr := 0, sackPsnOffset := 0, sackBitmap := 0,
        payload := 0, ses := .none }⟩)

/-- Every step of a run meets `q` in the state it finds. -/
def Pdc.always (q : Env → Pdc → Event → Bool) (p : Pdc) : List (Env × Event) → Bool
  | [] => true
  | (env, e) :: es => q env p e && (step env p e).1.always q es

/-- What steps that meet `q` keep, a run of them keeps. -/
theorem Pdc.run_keep {P : List Out → Pdc → Prop} {q : Env → Pdc → Event → Bool}
    (hstep : ∀ env p e log, P log p → q env p e = true →
      P (log ++ (step env p e).2) (step env p e).1)
    {log : List Out} {p : Pdc} (h : P log p) (es : List (Env × Event))
    (hq : p.always q es = true) : P (log ++ (p.run es).2) (p.run es).1 := by
  induction es generalizing log p with
  | nil =>
    rw [Pdc.run, List.append_nil]
    exact h
  | cons e es ih =>
    obtain ⟨hq1, hq2⟩ := Bool.and_eq_true_iff.1 hq
    have := ih (hstep e.1 p e.2 log h hq1) hq2
    rw [List.append_assoc] at this
    exact this

theorem Pdc.always_true (p : Pdc) (es : List (Env × Event)) : p.always (fun _ _ _ => true) es = true := by
  induction es generalizing p with
  | nil => rfl
  | cons e es ih => exact ih _

end Uet.Pds
