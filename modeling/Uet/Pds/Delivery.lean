import Uet.Pds.Assign
import Uet.Pds.TargetSpec

/-!
# Runs of request arrivals at a target PDC

A run is a list of request packets, each with whatever SES, the NIC and the clock
answer while it is processed. The history beside the PDC reads its PSNs over the
integers: every 32-bit PSN names the unbounded one nearest to the window, and the
unbounded window base moves by the signed distance the 32-bit base moves.
-/

namespace Uet.Pds

open Uet.Serial

/-- A request packet of type `t` on the wire, with the surroundings of its arrival. -/
structure Arrival (t : PdsType) where
  env : Env
  src : Fa
  dst : Fa
  hdr : ReqHdr
  isType : hdr.pdsType = t

def Arrival.frame {t : PdsType} (a : Arrival t) : Frame := ⟨a.src, a.dst, .req a.hdr⟩

/-- The packet as `uet_parse_pkt` hands it over. -/
def Arrival.pp {t : PdsType} (a : Arrival t) : ParsedPkt := parseReq a.src a.dst a.hdr

def Arrival.data (t : PdsType) (ses : Psn → SesOutcome) (psn : Psn) : Arrival t where
  env := calmEnv ses
  src := .v4 1
  dst := .v4 2
  hdr := { pdsType := t, nextHdr := .none, retx := false, ar := false, syn := false,
           clearPsnOffset := -1, psn, spdcid := 1, pdcInfo := 2, sesMsgId := 0, payloadLen := 64 }
  isType := rfl

/-- A target PDC with the unbounded reading of its window and the PSNs SES has
accepted so far, each with its `gtd_del` answer, oldest first. -/
structure Hist where
  pdc : Pdc
  base : Int
  cack : Int
  accepted : List (Int × Bool)

def Hist.abs (h : Hist) (x : Psn) : Int := h.base + psnOffset x h.pdc.rx.rxBmBasePsn

/-- The acceptances in a list of upcalls, PSNs read by `abs`. -/
def acceptedIn (abs : Psn → Int) (log : List (Psn × SesOutcome × Psn)) : List (Int × Bool) :=
  log.filterMap fun e =>
    match e.2.1 with
    | .ok g _ _ => some (abs e.1, g)
    | _ => none

def Hist.newlyAccepted (h : Hist) (outs : List Out) : List (Int × Bool) :=
  acceptedIn h.abs (rxReqs outs)

/-- The history when the PDC becomes `p` and SES accepted `new`. -/
def Hist.advance (h : Hist) (p : Pdc) (new : List (Int × Bool)) : Hist :=
  { pdc := p
    base := h.abs p.rx.rxBmBasePsn
    cack := h.cack + psnOffset p.rx.cackPsn h.pdc.rx.cackPsn
    accepted := h.accepted ++ new }

def Hist.arrive {t : PdsType} (h : Hist) (a : Arrival t) : Hist :=
  let r := step a.env h.pdc (.rx a.frame)
  h.advance r.1 (h.newlyAccepted r.2)

def Hist.run {t : PdsType} (h : Hist) (as : List (Arrival t)) : Hist := as.foldl Hist.arrive h

/-- An ESTABLISHED target PDC as it is handed out for a SYN request, its Start_PSN
being the unbounded PSN `start`. -/
def Hist.init (slot : Pdc) (sec : Bool) (syn : ParsedPkt) (start : Int) : Hist :=
  { pdc := newTgtPdc slot sec syn (pw start), base := start, cack := start - 1, accepted := [] }

theorem Hist.run_induction {t : PdsType} {P : Hist → Prop} {h : Hist} (h0 : P h)
    (hstep : ∀ h (a : Arrival t), P h → P (h.arrive a)) (as : List (Arrival t)) : P (h.run as) := by
  induction as generalizing h with
  | nil => exact h0
  | cons a as ih => exact ih (hstep h a h0)

theorem Hist.abs_pw (h : Hist) (hb : h.pdc.rx.rxBmBasePsn = pw h.base) {n : Int}
    (hr : InRange n h.base) : h.abs (pw n) = n := by
  rw [Hist.abs, hb, psnOffset_pw hr]
  omega

theorem Hist.pw_abs (h : Hist) (hb : h.pdc.rx.rxBmBasePsn = pw h.base) (x : Psn) : pw (h.abs x) = x := by
  rw [Hist.abs, hb]
  exact pw_add_psnOffset h.base x

theorem step_request {t : PdsType} (a : Arrival t) (ht : t = .rudReq ∨ t = .rodReq) (p : Pdc)
    (hs : p.state = .established) (hi : p.isInitiator = false) :
    (∃ outs, step a.env p (.rx a.frame) = (p, outs) ∧ rxReqs outs = []) ∨
    step a.env p (.rx a.frame) =
      ({ p with rx := (receiveReq a.env p.ids false p.rx a.pp).1 },
        (receiveReq a.env p.ids false p.rx a.pp).2) := by
  have hpp : parsePkt a.frame = a.pp := rfl
  have htype : a.pp.pdsType = .rudReq ∨ a.pp.pdsType = .rodReq := by
    have : a.pp.pdsType = t := a.isType
    rw [this]
    exact ht
  have hdisp : step a.env p (.rx a.frame) =
      if a.pp.syn then processSynPkt a.env p a.pp else processRequest a.env p a.pp := by
    simp only [step, progressRx, hpp, hs, hi]
    rcases htype with h | h <;> simp [h]
  rw [hdisp]
  by_cases hsyn : a.pp.syn = true
  · rw [if_pos hsyn, processSynPkt]
    simp only [hs]
    split_ifs with h1 h2 h3 <;> simp_all
  rw [if_neg hsyn, processRequest]
  simp only [hs, hi]
  split_ifs <;> simp_all

end Uet.Pds
