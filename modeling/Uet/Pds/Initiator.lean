import Uet.Pds.Target

/-!
# The transmit side of a PDC

Transmission, retransmission, acknowledgement and the ways a tracked packet ends,
as `uet_pds.c` computes them, with the PDC close procedures they start. `Rc` is
what the callers distinguish in a C return code.
-/

namespace Uet.Pds

/-- 0, `-EAGAIN` or another negative errno. -/
inductive Rc where
  | ok | again | err
  deriving DecidableEq, Repr

/-! ## The packet heap -/

namespace TxSide

/-- Replace the packet stored under `id`; `none` frees it. -/
def setPkt (tx : TxSide) (id : PktId) (p : Option TxPkt) : TxSide :=
  { tx with pkts := fun j => if j = id then p else tx.pkts j }

def modPkt (tx : TxSide) (id : PktId) (f : TxPkt → TxPkt) : TxSide :=
  tx.setPkt id ((tx.pkts id).map f)

def acked (tx : TxSide) (id : PktId) : Bool := ((tx.pkts id).map (·.txPktAcked)).getD false

def handle (tx : TxSide) (id : PktId) : Option Handle := (tx.pkts id).bind (·.txPktHandle)

/-- `dlist_remove`. -/
def unlink (tx : TxSide) (id : PktId) : TxSide := { tx with txPktList := tx.txPktList.erase id }

/-- `dlist_insert_tail`. -/
def linkTail (tx : TxSide) (id : PktId) : TxSide := { tx with txPktList := tx.txPktList ++ [id] }

end TxSide

/-- `uet_pds_tx_psn_allowed`. -/
def txPsnAllowed (tx : TxSide) (psn : Psn) : Bool :=
  psnInMpr psn tx.txBmBasePsn &&
    (tx.peerMpRange == 0 || !psnAfter psn (tx.maxCackPsn + tx.peerMpRange))

/-! ## Releasing packets and the PDC -/

/-- The packets `uet_pdsm_free_pdc_pkts` visits in a bitmap. -/
def trackedPkts {α : Type} (bm : PtrBitmap α 2) : List α :=
  (List.range mpRange).filterMap fun i : Nat => bm.get i

/-- `uet_pdsm_free_pdc_pkts`, transmit half. -/
def freeTxPkts (tx : TxSide) : TxSide × List Out :=
  let ids := trackedPkts tx.txBm
  ({ tx with
      pkts := fun j => if j ∈ ids then none else tx.pkts j
      txBm := tx.txBm.clear
      txPktList := [] },
    ids.map .freedPkt)

/-- `uet_pdsm_free_pdc`. -/
def freePdc (p : Pdc) : Pdc × List Out :=
  let (tx, outs) := freeTxPkts p.tx
  ({ p with
      state := .unalloc
      tx
      rx := { p.rx with rxBm := p.rx.rxBm.clear }
      closeRequested := false
      closeStarted := false
      closeCmdPsn := 0
      closeReqTime := 0
      activeMsgId := 0
      activeMsgIdValid := false },
    outs ++ [.freedPdc])

/-- Take a packet out of `tx_bm`, as both abandoning loops do. -/
def unsetTracked (tx : TxSide) (psn : Psn) : TxSide :=
  if psnInMpr psn tx.txBmBasePsn then { tx with txBm := tx.txBm.unset (psnOffset psn tx.txBmBasePsn) }
  else tx

/-- One iteration of `uet_pdsm_drain_tx_pkts`. -/
def drainPkt (tx : TxSide) (id : PktId) : TxSide × List Out :=
  match tx.pkts id with
  | none => (tx, [])
  | some pkt =>
    (((unsetTracked tx pkt.psn).unlink id).setPkt id none,
      (match pkt.txPktHandle with
        | some h => [.pdsErr id h]
        | none => []) ++ [.freedPkt id])

/-- The loops over `tx_pkt_list_head` that may release the packet they visit. -/
def foldPkts (f : TxSide → PktId → TxSide × List Out) : List PktId → TxSide → TxSide × List Out
  | [], tx => (tx, [])
  | id :: ids, tx =>
    let (tx, outs) := f tx id
    let (tx, rest) := foldPkts f ids tx
    (tx, outs ++ rest)

/-- `uet_pdsm_drain_tx_pkts`. -/
def drainTxPkts (tx : TxSide) : TxSide × List Out := foldPkts drainPkt tx.txPktList tx

/-- One iteration of `uet_pds_drop_tx_pkts`. -/
def dropPkt (h : Handle) (tx : TxSide) (id : PktId) : TxSide × List Out :=
  match tx.pkts id with
  | none => (tx, [])
  | some pkt =>
    if pkt.txPktHandle = some h then
      (((unsetTracked tx pkt.psn).unlink id).setPkt id none, [.dropped id, .freedPkt id])
    else (tx, [])

/-- `uet_pds_drop_tx_pkts` on one PDC. -/
def dropTxPkts (h : Handle) (tx : TxSide) : TxSide × List Out :=
  foldPkts (dropPkt h) tx.txPktList tx

/-! ## Tracking a new packet -/

/-- `bm_set` of a new packet that was sent, the PSN it takes and its place on the list. -/
def trackPkt (tx : TxSide) (pkt : TxPkt) : TxSide :=
  { tx with
    txBm := tx.txBm.set (psnOffset pkt.psn tx.txBmBasePsn) tx.nextId
    pkts := fun j => if j = tx.nextId then some pkt else tx.pkts j
    nextId := tx.nextId + 1
    nextPsn := tx.nextPsn + 1
    txPktList := tx.txPktList ++ [tx.nextId] }

/-- Whether `bm_get` or `bm_set` refuses the next PSN. -/
def cannotTrack (tx : TxSide) (psn : Psn) : Bool :=
  let idx := psnOffset psn tx.txBmBasePsn
  (tx.txBm.get idx).isSome || !tx.txBm.settable idx tx.nextId

def Pdc.frame (p : Pdc) (h : PdsHdr) : Frame := ⟨p.srcAddr, p.dstAddr, h⟩

def Pdc.ctrlHdr (p : Pdc) (ctrlType : CtrlType) (ar : Bool) (psn : Psn) (payload : BitVec 32) :
    CtrlHdr :=
  { ctrlType, retx := false, ar, syn := false, psn, spdcid := p.pdcId, pdcInfo := p.dpdcid, payload }

/-- `uet_pds_send_ctrl_pkt` for the tracked types, `CLOSE` and `CLOSE_REQ`. -/
def sendTrackedCtrl (env : Env) (p : Pdc) (ctrlType : CtrlType) : Pdc × List Out × Rc :=
  let h := PdsHdr.ctrl (p.ctrlHdr ctrlType true p.tx.nextPsn 0)
  if !txPsnAllowed p.tx p.tx.nextPsn then (p, [], .again)
  else if cannotTrack p.tx p.tx.nextPsn then (p, [], .err)
  else if env.nic (p.frame h) then
    let pkt : TxPkt :=
      { psn := p.tx.nextPsn, msgId := 0, txPktHandle := none, hdr := h, txTime := env.now }
    ({ p with tx := trackPkt p.tx pkt }, [.tx (p.frame h)], .ok)
  else (p, [], .err)

/-- `uet_pds_send_ctrl_pkt` for the untracked types, `ACK_REQ` and `CLEAR`. -/
def sendUntrackedCtrl (env : Env) (p : Pdc) (ctrlType : CtrlType) (psn : Psn)
    (payload : BitVec 32) : List Out × Rc :=
  let f := p.frame (.ctrl (p.ctrlHdr ctrlType false psn payload))
  (sendFrame env f, if env.nic f then .ok else .err)

/-! ## Close procedures -/

/-- `uet_pds_initiate_pdc_close`. -/
def initiatePdcClose (env : Env) (p : Pdc) : Pdc × List Out × Rc :=
  if p.closeRequested && p.closeStarted then (p, [], .ok)
  else if !p.isInitiator then (p, [], .err)
  else
    let p := { p with closeRequested := true }
    if p.activeMsgIdValid then (p, [], .again)
    else if !p.tx.txPktList.isEmpty then (p, [], .again)
    else if p.state == .syn then
      let (p, outs) := freePdc p
      (p, outs, .ok)
    else
      let closePsn := p.tx.nextPsn
      match sendTrackedCtrl env p .close with
      | (p, outs, .ok) =>
        ({ p with closeStarted := true, closeCmdPsn := closePsn, state := .closing }, outs, .ok)
      | r => r

/-- `uet_pds_target_pdc_close`. -/
def targetPdcClose (env : Env) (p : Pdc) : Pdc × List Out × Rc :=
  if p.closeStarted then (p, [], .ok)
  else if p.state != .established then (p, [], .err)
  else if !p.tx.txPktList.isEmpty then (p, [], .again)
  else
    match sendTrackedCtrl env p .closeReq with
    | (p, outs, .ok) => ({ p with closeStarted := true, closeReqTime := env.now }, outs, .ok)
    | r => r

/-- `uet_pds_close_pdc_in_error`. -/
def closePdcInError (env : Env) (p : Pdc) : Pdc × List Out :=
  let (tx, outs) := drainTxPkts p.tx
  let p := { p with tx }
  if p.closeStarted then
    let (p, outs') := freePdc p
    (p, outs ++ outs')
  else
    let (p, outs', _) := if p.isInitiator then initiatePdcClose env p else targetPdcClose env p
    (p, outs ++ outs')

/-! ## Transmission -/

/-- The delivery modes of `uet_pds_mode_t` that use a PDC. -/
inductive PdsMode where
  | rud | rod
  deriving DecidableEq, Repr

def PdsMode.pdsType : PdsMode → PdsType
  | .rud => .rudReq
  | .rod => .rodReq

/-- The arguments of `uet_pds_tx_pkt` for a RUD or ROD packet. `dstFa` is the
address of the AV entry. -/
structure TxReq where
  handle : Option Handle
  mode : PdsMode
  pdsInfo : Bool
  som : Bool
  eom : Bool
  maintainPdc : Bool
  msgId : MsgId
  nextHdr : NextHdr
  dstFa : Fa
  payloadLen : BitVec 16

/-- How `uet_pds_tx_pkt` comes by the PDC: named by `pds_info`, looked up for a
start of message, or mapped to the message. -/
def txLookup (p : Pdc) (r : TxReq) : Rc :=
  if r.pdsInfo then
    if p.state == .unalloc || p.state == .error || p.isInitiator then .err else .ok
  else if r.som then
    if !p.isInitiator || p.state == .unalloc || p.closeRequested then .again
    else if p.activeMsgIdValid then .again
    else .ok
  else .ok

/-- The request header `uet_pds_tx_pkt` builds. -/
def reqHdr (env : Env) (p : Pdc) (r : TxReq) : ReqHdr :=
  { pdsType := r.mode.pdsType, nextHdr := r.nextHdr, retx := false,
    ar := env.cfg.perPktAckEnabled || r.eom, syn := p.state == .syn,
    clearPsnOffset := psn2cOffset p.tx.nextPsn (p.tx.txBmBasePsn - 1),
    psn := p.tx.nextPsn, spdcid := p.pdcId,
    pdcInfo := if p.state == .syn then p.synOffset &&& reqPsnOffsetMask else p.dpdcid,
    sesMsgId := r.msgId, payloadLen := r.payloadLen }

/-- The end-of-message bookkeeping of `uet_pds_tx_pkt`. -/
def txEndOfMsg (env : Env) (p : Pdc) (r : TxReq) : Pdc :=
  if !r.pdsInfo && r.eom && !r.maintainPdc then
    let p := { p with activeMsgId := 0, activeMsgIdValid := false }
    let p := if p.isInitiator && !p.closeRequested && env.randClose then
        { p with closeRequested := true } else p
    if p.secEnabled && p.isInitiator && !p.closeRequested &&
        decide (2147483648 ≤ (p.tx.nextPsn - p.startPsn).toNat) then
      { p with closeRequested := true }
    else p
  else p

/-- The start of a close that had been requested, as `uet_pds_tx_pkt` ends. -/
def txClose (env : Env) (p : Pdc) : Pdc × List Out :=
  if p.state == .established && p.isInitiator && p.closeRequested && !p.closeStarted then
    let (p, outs, _) := initiatePdcClose env p
    (p, outs)
  else (p, [])

def sentReq (env : Env) (p : Pdc) (r : TxReq) : Pdc :=
  { p with
    tx := trackPkt p.tx { psn := p.tx.nextPsn, msgId := r.msgId, txPktHandle := r.handle,
                          hdr := .req (reqHdr env p r), txTime := env.now }
    synOffset := if p.state == .syn then p.synOffset + 1 else p.synOffset }

def mapMsg (p : Pdc) (r : TxReq) : Pdc :=
  if !r.pdsInfo && r.som then { p with activeMsgId := r.msgId, activeMsgIdValid := true } else p

/-- `uet_pds_tx_pkt` undoes the mapping when the packet could not be sent. -/
def unmapMsg (p : Pdc) (r : TxReq) : Pdc :=
  if !r.pdsInfo && r.som then { p with activeMsgId := 0, activeMsgIdValid := false } else p

/-- The part of `uet_pds_tx_pkt` after the last check: track and send the packet. -/
def txSend (env : Env) (p : Pdc) (r : TxReq) : Pdc × List Out × Rc :=
  let f := p.frame (.req (reqHdr env p r))
  if !r.pdsInfo && r.som && !env.mapOk then (p, [], .err)
  else if !env.nic f then (unmapMsg p r, [], .err)
  else
    let (p, outs) := txClose env (txEndOfMsg env (mapMsg (sentReq env p r) r) r)
    (p, .tx f :: outs, .ok)

/-- `uet_pds_tx_pkt` on the PDC it resolves to. -/
def txPkt (env : Env) (p : Pdc) (r : TxReq) : Pdc × List Out × Rc :=
  match txLookup p r with
  | .ok =>
    if r.nextHdr != .reqStd && r.nextHdr != .rspData then (p, [], .err)
    else if p.dstAddr ≠ r.dstFa then (p, [], .err)
    else if !txPsnAllowed p.tx p.tx.nextPsn then (p, [], .again)
    else if !r.som && (!p.activeMsgIdValid || p.activeMsgId != r.msgId) then (p, [], .err)
    else if cannotTrack p.tx p.tx.nextPsn then (p, [], .err)
    else txSend env p r
  | rc => (p, [], rc)

/-! ## Retransmission -/

def setRetx : PdsHdr → PdsHdr
  | .req h => .req { h with retx := true, ar := true }
  | .ctrl h => .ctrl { h with retx := true, ar := true }
  | h => h

/-- `uet_pds_rtx_pkt`. -/
def rtxPkt (env : Env) (p : Pdc) (id : PktId) (pkt : TxPkt) : Pdc × List Out × Rc :=
  if pkt.dstRecvd && decide (pkt.txRetryCnt < env.cfg.maxTxRetries) then
    match sendUntrackedCtrl env p .ackReq pkt.psn (pkt.msgId.setWidth 32) with
    | (outs, .ok) =>
      ({ p with tx := p.tx.modPkt id fun k =>
          { k with txRetryCnt := k.txRetryCnt + 1, txTime := env.now } }, outs, .ok)
    | (outs, rc) => (p, outs, rc)
  else if !txPsnAllowed p.tx pkt.psn then (p, [], .again)
  else
    let h := setRetx pkt.hdr
    let p := { p with tx := p.tx.modPkt id fun k => { k with hdr := h, txTime := env.now } }
    if env.nic (p.frame h) then
      ({ p with tx := p.tx.modPkt id fun k => { k with txRetryCnt := k.txRetryCnt + 1 } },
        [.tx (p.frame h)], .ok)
    else (p, [], .err)

/-- `uet_pds_check_rtx_pkt`: `.ok` is 0, `.err` is `-EIO`, `.again` a retransmission. -/
def checkRtxPkt (env : Env) (p : Pdc) (id : PktId) (pkt : TxPkt) : Pdc × List Out × Rc :=
  if pkt.txPktAcked then (p, [], .ok)
  else if (env.now : Int) - pkt.txTime < env.cfg.txTimeout then (p, [], .ok)
  else if !pkt.dstRecvd && !txPsnAllowed p.tx pkt.psn then (p, [], .ok)
  else if env.cfg.maxTxRetries ≤ pkt.txRetryCnt then (p, [], .err)
  else
    match rtxPkt env p id pkt with
    | (p, outs, .ok) => (p, outs, .again)
    | (p, outs, .again) => (p, outs, .ok)
    | (p, outs, .err) => (p, outs, .err)

/-- `uet_pds_progress_tx_pkt` for a packet on the list. The drop of the failed
message's packets reaches every PDC; here it is this one's share. -/
def progressTxPkt (env : Env) (p : Pdc) (id : PktId) : Pdc × List Out :=
  match p.tx.pkts id with
  | none => (p, [])
  | some pkt =>
    match checkRtxPkt env p id pkt with
    | (p, outs, .ok) => (p, outs)
    | (p, outs, .err) =>
      let (p, outs1) := closePdcInError env p
      match pkt.txPktHandle with
      | none => (p, outs ++ outs1)
      | some h =>
        let (tx, outs2) := dropTxPkts h p.tx
        ({ p with tx }, outs ++ outs1 ++ outs2)
    | (p, outs, .again) => ({ p with tx := (p.tx.unlink id).linkTail id }, outs)

/-! ## Acknowledgement -/

/-- The loop of `uet_pds_shift_tx_window`, `n` iterations at most. -/
def shiftTxGo : (n : Nat) → TxSide → TxSide × List Out
  | 0, tx => (tx, [])
  | n + 1, tx =>
    match tx.txBm.get 0 with
    | none => (tx, [])
    | some id =>
      if tx.acked id then
        let tx := { tx with txBm := tx.txBm.shiftRight 1, txBmBasePsn := tx.txBmBasePsn + 1 }
        let (tx, outs) := shiftTxGo n (tx.setPkt id none)
        (tx, .freedPkt id :: outs)
      else (tx, [])

/-- `uet_pds_shift_tx_window`; every iteration takes one of the 128 entries out. -/
def shiftTxWindow (tx : TxSide) : TxSide × List Out := shiftTxGo mpRange tx

/-- One iteration of `uet_pds_process_sack_bitmap`. -/
def sackStep (pp : ParsedPkt) (tx : TxSide) (i : Nat) : TxSide :=
  let psn := pp.sackBasePsn + BitVec.ofNat 32 i
  if psnAfterEq tx.maxCackPsn psn then tx
  else if !pp.sackBitmap.getLsbD i then tx
  else
    let idx := psnOffset psn tx.txBmBasePsn
    if idx < 0 then tx
    else
      match tx.txBm.get idx with
      | none => tx
      | some id => tx.modPkt id fun k => { k with dstRecvd := true }

/-- `uet_pds_process_sack_bitmap`. -/
def processSackBitmap (tx : TxSide) (pp : ParsedPkt) : TxSide :=
  (List.range 64).foldl (sackStep pp) tx

/-- `tx_pkt_acked = true` and `dlist_remove`. -/
def markAcked (tx : TxSide) (id : PktId) : TxSide :=
  (tx.modPkt id fun k => { k with txPktAcked := true }).unlink id

/-- One iteration of `uet_pds_process_cack`. -/
def cackStep (st : TxSide × List Out) (i : Nat) : TxSide × List Out :=
  match st.1.txBm.get i with
  | none => st
  | some id =>
    if st.1.acked id then st
    else (markAcked st.1 id, st.2 ++ [.rxRsp id (st.1.handle id) none])

/-- `uet_pds_process_cack`. -/
def processCack (tx : TxSide) (pp : ParsedPkt) : TxSide × List Out :=
  let tx := { tx with maxCackPsn := updatePsn tx.maxCackPsn pp.cackPsn }
  let shiftCount := psnOffset (tx.maxCackPsn + 1) tx.txBmBasePsn
  (List.range shiftCount.toNat).foldl cackStep (tx, [])

/-- `uet_pds_process_mpr`. -/
def processMpr (tx : TxSide) (pp : ParsedPkt) : TxSide :=
  if tx.mprUpdateValid && !psnAfter pp.cackPsn tx.mprUpdateCackPsn then tx
  else { tx with
    peerMpRange := decodeMpr pp.mpr
    mprUpdateCackPsn := pp.cackPsn
    mprUpdateValid := true }

/-- The MPR, CACK and SACK part of `uet_pds_process_ack`. -/
def processAckState (tx : TxSide) (pp : ParsedPkt) : TxSide × List Out :=
  let tx := if isCcAck pp.pdsType then processMpr tx pp else tx
  let (tx, outs) := processCack tx pp
  (if isCcAck pp.pdsType then processSackBitmap tx pp else tx, outs)

/-- What `uet_pds_process_ack` makes of the explicit PSN. -/
inductive AckPsn where
  | invalid
  | duplicate
  | tracked (id : PktId)
  deriving DecidableEq, Repr

def classifyAck (tx : TxSide) (pp : ParsedPkt) : AckPsn :=
  if psnAfter tx.txBmBasePsn pp.psn then .duplicate
  else if !psnInMpr pp.psn tx.txBmBasePsn then .invalid
  else
    match tx.txBm.get (psnOffset pp.psn tx.txBmBasePsn) with
    | none => .invalid
    | some id => if tx.acked id then .duplicate else .tracked id

/-- The SDI's `ini_start_psn` taken from a closing ACK. -/
def adoptEpsn (env : Env) (p : Pdc) (pp : ParsedPkt) : List Out :=
  if p.secEnabled && env.cfg.psnMethod == .zeroRtt && pp.epsn &&
      psnAfter pp.payload env.sd.iniStartPsn then
    [.setIniStartPsn pp.payload]
  else []

/-- The CLEAR control packet `uet_pds_process_ack` sends when the ACK asks for it. -/
def ackClear (env : Env) (p : Pdc) (pp : ParsedPkt) : List Out :=
  if p.isInitiator && pp.reqClr then
    (sendUntrackedCtrl env p .clear 0 (p.tx.txBmBasePsn - 1)).1
  else []

/-- The close check at the end of `uet_pds_process_ack`. -/
def ackClose (env : Env) (p : Pdc) : Pdc × List Out :=
  if p.state == .established && p.isInitiator && p.closeRequested && !p.closeStarted &&
      !p.activeMsgIdValid then
    let (p, outs, _) := initiatePdcClose env p
    (p, outs)
  else (p, [])

def ackEstablish (p : Pdc) (pp : ParsedPkt) : Pdc :=
  if p.state == .syn then { p with state := .established, dpdcid := pp.spdcid } else p

/-- The `rx_rsp` upcall for an explicit ACK. -/
def ackUpcall (p : Pdc) (pp : ParsedPkt) (id : PktId) : List Out :=
  if pp.nextHdr == .none then [] else [.rxRsp id (p.tx.handle id) (some pp.ses)]

/-- The end of `uet_pds_process_ack` for a packet acknowledged for the first time
on a PDC that is not waiting for its Close Command: establishment, the SES
response, the window, the CLEAR and the close. -/
def ackDeliver (env : Env) (p : Pdc) (pp : ParsedPkt) (id : PktId) : Pdc × List Out :=
  let p := ackEstablish p pp
  let outs := ackUpcall p pp id
  if pp.nextHdr != .none && !env.rspOk then (p, outs)
  else
    let (tx, outs1) := shiftTxWindow p.tx
    let p := { p with tx }
    let outs2 := ackClear env p pp
    let (p, outs3) := ackClose env p
    (p, outs ++ outs1 ++ outs2 ++ outs3)

/-- `uet_pds_process_ack` once the explicit PSN has been found in `tx_bm`. -/
def ackTracked (env : Env) (p : Pdc) (pp : ParsedPkt) (id : PktId) : Pdc × List Out :=
  let (tx, outs) := processAckState (markAcked p.tx id) pp
  let p := { p with tx }
  if p.state == .closing && pp.psn == p.closeCmdPsn then
    let outs1 := adoptEpsn env p pp
    let (tx, outs2) := shiftTxWindow p.tx
    let (p, outs3) := freePdc { p with tx }
    (p, outs ++ outs1 ++ outs2 ++ outs3)
  else
    let (p, outs') := ackDeliver env p pp id
    (p, outs ++ outs')

/-- `uet_pds_process_ack` on the PDC it names. -/
def processAck (env : Env) (p : Pdc) (pp : ParsedPkt) : Pdc × List Out :=
  if p.dstAddr ≠ pp.src then (p, [])
  else if p.state != .syn && p.dpdcid != pp.spdcid then (p, [])
  else if psnAfter pp.cackPsn (p.tx.nextPsn - 1) then (p, [])
  else
    match classifyAck p.tx pp with
    | .invalid => (p, [])
    | .duplicate =>
      let (tx, outs) := processAckState p.tx pp
      let (tx, outs') := shiftTxWindow tx
      ({ p with tx }, outs ++ outs')
    | .tracked id => ackTracked env p pp id

/-! ## NACKs -/

/-- The `UET_NACK_ACTION_*` values. -/
inductive NackAction where
  | drop | retx | close
  deriving DecidableEq, Repr

/-- `uet_pds_nack_action`. -/
def nackAction : NackCode → NackAction
  | .trimmed | .trimmedLastHop | .trimmedAck | .noPdcAvail | .noCccAvail | .noBitmap | .noPktBuf
  | .noGtdDelAvail | .noSesMsgAvail | .noResource | .psnOorWindow | .rodOoo | .pktNotRcvd
  | .ackWithData | .newStartPsn | .rcvrInferLess | .expNackNormal | .expNackErr => .retx
  | .invDpdcid | .pdcHdrMismatch | .closing | .closingInErr | .gtdRespUnavail | .invalidSyn
  | .pdcModeMismatch | .unexpEvent | .expNackFatal => .close
  | .rcvdSesProcg | .none | .reserved => .drop

def setHdrPsn (psn : Psn) : PdsHdr → PdsHdr
  | .req h => .req { h with psn }
  | .ctrl h => .ctrl { h with psn }
  | h => h

/-- One iteration of `uet_pds_reestablish_start_psn`. -/
def restampPkt (env : Env) (p : Pdc) (delta : Psn) (tx : TxSide) (id : PktId) :
    TxSide × List Out :=
  match tx.pkts id with
  | none => (tx, [])
  | some pkt =>
    if pkt.txPktAcked then (tx, [])
    else
      let psn := pkt.psn + delta
      let h := setHdrPsn psn pkt.hdr
      (tx.setPkt id (some { pkt with psn, hdr := h, txRetryCnt := 0, txTime := env.now }),
        sendFrame env (p.frame h))

/-- `uet_pds_reestablish_start_psn`. -/
def reestablishStartPsn (env : Env) (p : Pdc) (newStartPsn : Psn) : Pdc × List Out :=
  if p.state != .syn then (p, [])
  else
    let delta := newStartPsn - p.startPsn
    if delta == 0 then (p, [])
    else
      let p := { p with
        startPsn := p.startPsn + delta
        tx := { p.tx with
          nextPsn := p.tx.nextPsn + delta
          txBmBasePsn := p.tx.txBmBasePsn + delta
          maxCackPsn := p.tx.maxCackPsn + delta }
        rx := { p.rx with rxBmBasePsn := p.rx.rxBmBasePsn + delta } }
      let (tx, outs) := foldPkts (restampPkt env p delta) p.tx.txPktList p.tx
      ({ p with tx }, outs)

/-- The retransmission `uet_pds_process_nack` ends with. -/
def nackRetx (env : Env) (p : Pdc) (pp : ParsedPkt) : Pdc × List Out :=
  match p.tx.txBm.get (psnOffset pp.psn p.tx.txBmBasePsn) with
  | none => (p, [])
  | some id =>
    match p.tx.pkts id with
    | none => (p, [])
    | some pkt =>
      if pkt.txPktAcked then (p, [])
      else if !pkt.dstRecvd && !txPsnAllowed p.tx pkt.psn then (p, [])
      else if env.cfg.maxTxRetries ≤ pkt.txRetryCnt then closePdcInError env p
      else
        match rtxPkt env p id pkt with
        | (p, outs, .ok) => ({ p with tx := (p.tx.unlink id).linkTail id }, outs)
        | (p, outs, _) => (p, outs)

def nackEstablish (p : Pdc) (pp : ParsedPkt) : Pdc :=
  if p.state == .syn && pp.spdcid != 0 then { p with state := .established, dpdcid := pp.spdcid }
  else p

/-- `uet_pds_process_nack` on the PDC it names. -/
def processNack (env : Env) (p : Pdc) (pp : ParsedPkt) : Pdc × List Out :=
  if p.dstAddr ≠ pp.src then (p, [])
  else if pp.nackCode == .newStartPsn then reestablishStartPsn env p pp.payload
  else if nackAction pp.nackCode == .drop then (p, [])
  else if psnAfter p.tx.txBmBasePsn pp.psn || psnAfter pp.psn (p.tx.nextPsn - 1) then (p, [])
  else
    let p := nackEstablish p pp
    if nackAction pp.nackCode == .close then closePdcInError env p else nackRetx env p pp

end Uet.Pds
