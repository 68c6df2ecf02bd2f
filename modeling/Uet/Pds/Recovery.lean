import Uet.Pds.AckUpcall

/-!
# Recovery of a PDC

What follows when packets are lost: `uet_pds_close_pdc_in_error` reports every outstanding packet and starts the close, a
NACK asks for a packet again, and the timeout sweep sends again what is due.
-/

namespace Uet.Pds

/-! ## Closing in error -/

def Pdc.Closing (p : Pdc) : Prop :=
  p.state = .unalloc ∨ p.state = .closing ∧ ∃ id ∈ p.tx.txPktList, ∃ k h, p.tx.pkts id = some k ∧
    k.hdr = .ctrl h ∧ h.ctrlType = .close ∧ k.psn = p.closeCmdPsn

/-- Nothing keeps `uet_pds_initiate_pdc_close` from ending or sending the Close Command: the window allows the next PSN,
its place in `tx_bm` is free, and the NIC takes the packet. -/
def closeGoes (env : Env) (p : Pdc) : Bool :=
  p.state == .syn || (txPsnAllowed p.tx p.tx.nextPsn && !cannotTrack p.tx p.tx.nextPsn &&
    env.nic (p.frame (.ctrl (p.ctrlHdr .close true p.tx.nextPsn 0))))

def Pdc.Leads (p : Pdc) : Prop :=
  p.Closing ∨ p.activeMsgIdValid = true ∧ ∀ env, closeGoes env p = true → (msgCmplInd env p).1.Closing

def Pdc.drained (p : Pdc) : Pdc := { p with tx := (drainTxPkts p.tx).1 }

variable {p : Pdc}

theorem initiatePdcClose_closes {env : Env} (hini : p.isInitiator = true) (hstart : p.closeStarted = false)
    (hmsg : p.activeMsgIdValid = false) (hlist : p.tx.txPktList = []) (hgo : closeGoes env p = true) :
    (initiatePdcClose env p).1.Closing := by
  rw [initiatePdcClose, if_neg (by rw [hstart, Bool.and_false]; decide), if_neg (by rw [hini]; decide)]
  rw [if_neg (by rw [hmsg]; decide), if_neg (by rw [hlist]; decide)]
  split
  · exact .inl rfl
  rename_i hsyn
  rw [closeGoes, Bool.or_eq_true, Bool.and_eq_true, Bool.and_eq_true, Bool.not_eq_true'] at hgo
  obtain ⟨⟨hal, hct⟩, hnic⟩ := hgo.resolve_left hsyn
  have hsend : sendTrackedCtrl env { p with closeRequested := true } .close =
      ({ p with closeRequested := true, tx := trackPkt p.tx (ctrlPkt p .close env.now) },
        [.tx (p.frame (.ctrl (p.ctrlHdr .close true p.tx.nextPsn 0)))], .ok) := by
    rw [sendTrackedCtrl]
    rw [if_neg (by rw [hal]; decide), if_neg (by rw [hct]; decide)]
    exact if_pos hnic
  rw [hsend]
  refine .inr ⟨rfl, p.tx.nextId, ?_, ctrlPkt p .close env.now, _, ?_, rfl, rfl, rfl⟩
  · exact List.mem_append_right _ (List.mem_singleton.mpr rfl)
  · exact if_pos rfl

def fullWindow : Pdc :=
  ((iniHandout.pdc (freshSlot 1) false).run ([sendMsg 0, ackOf 1000 0] ++ List.replicate 128 (sendMsg 1))).1

def ResendsLater (p : Pdc) (id : PktId) : Prop :=
  id ∈ p.tx.txPktList ∧ ∃ k, p.tx.pkts id = some k ∧ k.txPktAcked = false ∧ ∀ env : Env,
    (k.txTime : Int) + env.cfg.txTimeout ≤ env.now → txPsnAllowed p.tx k.psn = true →
    k.txRetryCnt < env.cfg.maxTxRetries → env.nic (p.frame (setRetx k.hdr)) = true →
    .tx (p.frame (setRetx k.hdr)) ∈ (progressTxPkt env p id).2

theorem rtxPkt_sends (env : Env) (id : PktId) {k : TxPkt} (hr : k.dstRecvd = false)
    (hal : txPsnAllowed p.tx k.psn = true) (hnic : env.nic (p.frame (setRetx k.hdr)) = true) :
    ∃ q, rtxPkt env p id k = (q, [.tx (p.frame (setRetx k.hdr))], .ok) := by
  rw [rtxPkt, if_neg (by rw [hr]; exact Bool.false_ne_true), if_neg (by rw [hal]; decide)]
  exact ⟨_, if_pos hnic⟩

theorem resendsLater {id : PktId} {k : TxPkt} (hl : id ∈ p.tx.txPktList) (hk : p.tx.pkts id = some k)
    (hun : k.txPktAcked = false) (hr : k.dstRecvd = false) : ResendsLater p id := by
  refine ⟨hl, k, hk, hun, fun env hdue hal hcnt hnic => ?_⟩
  obtain ⟨q, hq⟩ := rtxPkt_sends env id hr hal hnic
  have hcheck : checkRtxPkt env p id k = (q, [.tx (p.frame (setRetx k.hdr))], .again) := by
    rw [checkRtxPkt, if_neg (by rw [hun]; exact Bool.false_ne_true), if_neg (by omega),
      if_neg (by rw [hal, Bool.not_true, Bool.and_false]; decide), if_neg (by omega), hq]
  rw [progressTxPkt, hk]
  dsimp only
  rw [hcheck]
  exact List.mem_singleton.mpr rfl

structure Asks (env : Env) (p : Pdc) (pp : ParsedPkt) (id : PktId) (k : TxPkt) : Prop where
  src : p.dstAddr = pp.src
  code : nackAction pp.nackCode = .retx
  first : psnAfter p.tx.txBmBasePsn pp.psn = false
  last : psnAfter pp.psn (p.tx.nextPsn - 1) = false
  tracked : p.tx.txBm.get (psnOffset pp.psn p.tx.txBmBasePsn) = some id
  pkt : p.tx.pkts id = some k
  unacked : k.txPktAcked = false
  retries : k.txRetryCnt < env.cfg.maxTxRetries

theorem nackRetx_resends {env : Env} {pp : ParsedPkt} {id : PktId} {k : TxPkt} (hinv : TxInv p.tx)
    (hg : p.tx.txBm.get (psnOffset pp.psn p.tx.txBmBasePsn) = some id) (hk : p.tx.pkts id = some k)
    (hun : k.txPktAcked = false) (hcnt : k.txRetryCnt < env.cfg.maxTxRetries) (hr : k.dstRecvd = false) :
    .tx (p.frame (setRetx k.hdr)) ∈ (nackRetx env p pp).2 ∨ ResendsLater (nackRetx env p pp).1 id := by
  have hl : id ∈ p.tx.txPktList := (hinv.listed id).mpr ⟨k, hk, hun⟩
  rw [nackRetx, hg]
  dsimp only
  rw [hk]
  dsimp only
  rw [if_neg (by rw [hun]; exact Bool.false_ne_true)]
  cases hal : txPsnAllowed p.tx k.psn with
  | false =>
    rw [if_pos (by rw [hr]; rfl)]
    exact .inr (resendsLater hl hk hun hr)
  | true =>
    rw [if_neg (by rw [Bool.not_true, Bool.and_false]; decide), if_neg (by omega)]
    cases hnic : env.nic (p.frame (setRetx k.hdr)) with
    | true =>
      obtain ⟨q, hq⟩ := rtxPkt_sends env id hr hal hnic
      rw [hq]
      exact .inl (List.mem_singleton.mpr rfl)
    | false =>
      -- the packet stays where it is, with a new time
      have hfail : rtxPkt env p id k = ({ p with tx := p.tx.modPkt id fun k' =>
          { k' with hdr := setRetx k.hdr, txTime := env.now } }, [], .err) := by
        rw [rtxPkt, if_neg (by rw [hr]; exact Bool.false_ne_true), if_neg (by rw [hal]; decide)]
        exact if_neg (Bool.eq_false_iff.mp hnic)
      rw [hfail]
      refine .inr (resendsLater (k := { k with hdr := setRetx k.hdr, txTime := env.now }) hl ?_ hun hr)
      rw [TxSide.modPkt, setPkt_pkts, if_pos rfl, hk]
      rfl

/-- An ACK of PSN 1000 that reports PSN 1002 as received. -/
def sackOf1002 : Env × Event :=
  (calmEnv fun _ => .noBuf,
    .rx ⟨.v4 2, .v4 1, .ack
      { pdsType := .ackCc, nextHdr := .none, reqClr := false, epsn := false, ackPsnOffset := 0, cackPsn := 1000
        spdcid := 7, dpdcid := 1, mpr := 16, sackPsnOffset := 1, sackBitmap := 2, payload := 0, ses := .none }⟩)

end Uet.Pds
