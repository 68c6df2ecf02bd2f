import Uet.Pds.TxWindow

/-!
# The SES upcalls of an acknowledgement

`uet_pds_process_ack` tells SES of every packet that an ACK acknowledges for the first time: of those
up to the cumulative PSN, and of the one that the ACK names. Close Commands and Close Requests are tracked in
the same bitmap, with no handle of SES. Neither path looks at the kind of the packet.
-/

namespace Uet.Pds

open List

/-! ## Upcalls -/

/-- The packet and the handle of an `rx_rsp` upcall. -/
def Out.rsp? : Out → Option (PktId × Option Handle)
  | .rxRsp id h _ => some (id, h)
  | _ => none

def rspsOf (os : List Out) : List (PktId × Option Handle) := os.filterMap Out.rsp?

@[simp] theorem rspsOf_append (a b : List Out) : rspsOf (a ++ b) = rspsOf a ++ rspsOf b := filterMap_append

theorem rspsOf_shiftTxGo (n : Nat) (tx : TxSide) : rspsOf (shiftTxGo n tx).2 = [] := by
  induction n generalizing tx with
  | zero => rfl
  | succ n ih =>
    unfold shiftTxGo
    split
    · rfl
    split
    · exact ih _
    · rfl

variable (env : Env) (p : Pdc)

theorem rspsOf_freePdc : rspsOf (freePdc p).2 = [] := by
  have hpkts : ∀ ids : List PktId, rspsOf (ids.map .freedPkt) = [] := by
    intro ids
    rw [rspsOf, filterMap_map]
    exact filterMap_eq_nil_iff.mpr fun _ _ => rfl
  exact (rspsOf_append _ _).trans (congrArg (· ++ []) (hpkts _))

theorem rspsOf_sendFrame (f : Frame) : rspsOf (sendFrame env f) = [] := by
  unfold sendFrame
  split <;> rfl

theorem rspsOf_initiatePdcClose : rspsOf (initiatePdcClose env p).2.1 = [] := by
  unfold initiatePdcClose
  dsimp only
  split
  · rfl
  split
  · rfl
  split
  · rfl
  · split
    · rfl
    · split
      · exact rspsOf_freePdc _
      · rcases sendTrackedCtrl_cases env { p with closeRequested := true } .close with
          ⟨rc, heq, hrc⟩ | ⟨-, -, heq⟩
        · rw [heq]
          cases rc with
          | ok => exact absurd rfl hrc
          | again => rfl
          | err => rfl
        · rw [heq]
          rfl

theorem rspsOf_ackClose : rspsOf (ackClose env p).2 = [] := by
  unfold ackClose
  split
  · exact rspsOf_initiatePdcClose env p
  · rfl

theorem rspsOf_ackClear (pp : ParsedPkt) : rspsOf (ackClear env p pp) = [] := by
  unfold ackClear
  split
  · exact rspsOf_sendFrame env _
  · rfl

theorem rspsOf_adoptEpsn (pp : ParsedPkt) : rspsOf (adoptEpsn env p pp) = [] := by
  unfold adoptEpsn
  split <;> rfl

/-! ## The packets that are told of -/

structure Since (tx tx' : TxSide) : Prop where
  bm : tx'.txBm = tx.txBm
  base : tx'.txBmBasePsn = tx.txBmBasePsn
  handle : ∀ id, tx'.handle id = tx.handle id
  unacked : ∀ id, tx'.acked id = false → tx.acked id = false

namespace Since

variable {tx tx' tx'' : TxSide}

theorem refl (tx : TxSide) : Since tx tx := ⟨rfl, rfl, fun _ => rfl, fun _ h => h⟩

theorem trans (h : Since tx tx') (h' : Since tx' tx'') : Since tx tx'' :=
  ⟨h'.bm.trans h.bm, h'.base.trans h.base, fun id => (h'.handle id).trans (h.handle id), fun id hu =>
    h.unacked id (h'.unacked id hu)⟩

theorem modPkt (tx : TxSide) (id : PktId) {f : TxPkt → TxPkt} (hf : ∀ k, (f k).txPktHandle = k.txPktHandle)
    (ha : ∀ k, (f k).txPktAcked = false → k.txPktAcked = false) : Since tx (tx.modPkt id f) := by
  have hpkts : ∀ j, (tx.modPkt id f).pkts j = if j = id then (tx.pkts id).map f else tx.pkts j := fun _ => rfl
  refine ⟨rfl, rfl, fun j => ?_, fun j => ?_⟩
  · rw [TxSide.handle, TxSide.handle, hpkts]
    split
    · rename_i hj
      rw [hj]
      cases tx.pkts id with
      | none => rfl
      | some => exact hf ..
    · rfl
  · rw [TxSide.acked, TxSide.acked, hpkts]
    split
    · rename_i hj
      rw [hj]
      cases tx.pkts id with
      | none => exact fun h => h
      | some k => exact ha k
    · exact fun h => h

theorem markAcked (tx : TxSide) (id : PktId) : Since tx (markAcked tx id) :=
  have h := Since.modPkt tx id (f := fun k => { k with txPktAcked := true }) (fun _ => rfl) (fun _ h => nomatch h)
  ⟨h.bm, h.base, h.handle, h.unacked⟩

theorem sackStep (pp : ParsedPkt) (tx : TxSide) (i : Nat) : Since tx (sackStep pp tx i) := by
  unfold Pds.sackStep
  dsimp only
  split
  · exact refl tx
  split
  · exact refl tx
  split
  · exact refl tx
  · split
    · exact refl tx
    · exact modPkt tx _ (fun _ => rfl) (fun _ h => h)

theorem processMpr (tx : TxSide) (pp : ParsedPkt) : Since tx (processMpr tx pp) := by
  unfold Pds.processMpr
  split <;> exact ⟨rfl, rfl, fun _ => rfl, fun _ h => h⟩

end Since

theorem cackFold_rsps (tx : TxSide) (l : List Nat) (st : TxSide × List Out) (hst : Since tx st.1) :
    Since tx (l.foldl cackStep st).1 ∧ ∀ x ∈ rspsOf (l.foldl cackStep st).2, x ∈ rspsOf st.2 ∨
      ∃ i ∈ l, tx.txBm.get i = some x.1 ∧ tx.acked x.1 = false ∧ x.2 = tx.handle x.1 := by
  induction l generalizing st with
  | nil => exact ⟨hst, fun x hx => .inl hx⟩
  | cons i l ih =>
    have hstep : Since tx (cackStep st i).1 ∧ ∀ x ∈ rspsOf (cackStep st i).2, x ∈ rspsOf st.2 ∨
        tx.txBm.get i = some x.1 ∧ tx.acked x.1 = false ∧ x.2 = tx.handle x.1 := by
      unfold cackStep
      split
      · exact ⟨hst, fun x hx => .inl hx⟩
      rename_i id hid
      split
      · exact ⟨hst, fun x hx => .inl hx⟩
      rename_i hun
      refine ⟨hst.trans (.markAcked _ id), fun x hx => ?_⟩
      rw [rspsOf_append] at hx
      rcases mem_append.mp hx with hx | hx
      · exact .inl hx
      rw [mem_singleton.mp hx]
      rw [hst.bm] at hid
      exact .inr ⟨hid, hst.unacked id (Bool.eq_false_iff.mpr hun), hst.handle id⟩
    obtain ⟨hs, hrest⟩ := ih (cackStep st i) hstep.1
    refine ⟨hs, fun x hx => ?_⟩
    rcases hrest x hx with hx | ⟨j, hj, hx⟩
    · rcases hstep.2 x hx with hx | hx
      · exact .inl hx
      · exact .inr ⟨i, mem_cons_self, hx⟩
    · exact .inr ⟨j, mem_cons_of_mem _ hj, hx⟩

/-- The indices of `tx_bm` up to the cumulative PSN of an ACK. -/
def cackRange (tx : TxSide) (pp : ParsedPkt) : List Nat :=
  List.range (psnOffset (updatePsn tx.maxCackPsn pp.cackPsn + 1) tx.txBmBasePsn).toNat

theorem processAckState_rsps (tx : TxSide) (pp : ParsedPkt) : Since tx (processAckState tx pp).1 ∧
    ∀ x ∈ rspsOf (processAckState tx pp).2, ∃ i ∈ cackRange tx pp,
      tx.txBm.get i = some x.1 ∧ tx.acked x.1 = false ∧ x.2 = tx.handle x.1 := by
  have hmpr : ∃ tx1, tx1 = (if isCcAck pp.pdsType then processMpr tx pp else tx) ∧ Since tx tx1 ∧
      tx1.maxCackPsn = tx.maxCackPsn := by
    refine ⟨_, rfl, ?_⟩
    split
    · refine ⟨.processMpr tx pp, ?_⟩
      unfold processMpr
      split <;> rfl
    · exact ⟨.refl tx, rfl⟩
  obtain ⟨tx1, heq, hs, hmax⟩ := hmpr
  have hfold := cackFold_rsps tx (cackRange tx pp)
    ({ tx1 with maxCackPsn := updatePsn tx1.maxCackPsn pp.cackPsn }, []) ⟨hs.bm, hs.base, hs.handle, hs.unacked⟩
  have hcack : processCack tx1 pp = (cackRange tx pp).foldl cackStep
      ({ tx1 with maxCackPsn := updatePsn tx1.maxCackPsn pp.cackPsn }, []) := by
    simp only [processCack, cackRange, hmax, hs.base]
  rw [processAckState, ← heq]
  dsimp only
  rw [hcack]
  refine ⟨?_, fun x hx => (hfold.2 x hx).resolve_left not_mem_nil⟩
  split
  · exact foldlRecOn (range 64) _ hfold.1 fun tx' h i _ => h.trans (.sackStep pp tx' i)
  · exact hfold.1

/-! ## Data packets and control packets -/

def PdsHdr.isReq : PdsHdr → Bool
  | .req _ => true
  | _ => false

/-- Each tracked packet is a data packet with a handle of SES, or a control packet, which has none. -/
def Tracks (tx : TxSide) : Prop :=
  ∀ i id, tx.txBm.get i = some id → ∃ k, tx.pkts id = some k ∧ k.hdr.isReq = k.txPktHandle.isSome

theorem Tracks.of_all {tx : TxSide} (h : (List.range mpRange).all fun i : Nat => (tx.txBm.get i).all fun id =>
    (tx.pkts id).any fun k => k.hdr.isReq == k.txPktHandle.isSome) : Tracks tx := by
  intro i id hg
  obtain ⟨hi, hlt⟩ := PtrBitmap.get_range _ i (by rw [hg]; exact nofun)
  obtain ⟨n, rfl⟩ := Int.eq_ofNat_of_zero_le hi
  have hn := all_eq_true.mp h n (mem_range.mpr (Int.ofNat_lt.mp hlt))
  rw [hg, Option.all_some, Option.any_eq_true] at hn
  obtain ⟨k, hk, heq⟩ := hn
  exact ⟨k, hk, beq_iff_eq.mp heq⟩

def TxSide.isCtrl (tx : TxSide) (id : PktId) : Bool := (tx.handle id).isNone

/-- The cumulative PSN of an ACK covers a control packet that has not been acknowledged, other than the packet that the
ACK names. -/
def cackCoversCtrl (tx : TxSide) (pp : ParsedPkt) (named : Option PktId) : Bool :=
  (cackRange tx pp).any fun i =>
    ((tx.txBm.get i).filter fun id => !tx.acked id && tx.isCtrl id && named != some id).isSome

/-- `uet_pds_process_ack` takes the ACK, and tells SES of a control packet: one that the cumulative PSN covers, or the one
that the ACK names where it carries a response of SES and does not end the close. -/
def acksCtrl (p : Pdc) (pp : ParsedPkt) : Bool :=
  p.dstAddr == pp.src && (p.state == .syn || p.dpdcid == pp.spdcid) && !psnAfter pp.cackPsn (p.tx.nextPsn - 1) &&
    match classifyAck p.tx pp with
    | .invalid => false
    | .duplicate => cackCoversCtrl p.tx pp none
    | .tracked id => cackCoversCtrl p.tx pp (some id) ||
        (p.tx.isCtrl id && pp.nextHdr != .none && !(p.state == .closing && pp.psn == p.closeCmdPsn))

/-- The upcall is for a data packet that is in `tx_bm`, with its handle, which is not NULL. -/
def OwnData (tx : TxSide) (x : PktId × Option Handle) : Prop :=
  ∃ i k h, tx.txBm.get i = some x.1 ∧ tx.pkts x.1 = some k ∧ k.hdr.isReq = true ∧ k.txPktHandle = some h ∧ x.2 = some h

section

variable {tx : TxSide} {pp : ParsedPkt}

theorem Tracks.own (ht : Tracks tx) {i : Int} {x : PktId × Option Handle} (hg : tx.txBm.get i = some x.1)
    (hc : tx.isCtrl x.1 = false) (hx : x.2 = tx.handle x.1) : OwnData tx x := by
  obtain ⟨k, hk, hreq⟩ := ht i x.1 hg
  have hhandle : tx.handle x.1 = k.txPktHandle := by rw [TxSide.handle, hk]; rfl
  rw [TxSide.isCtrl, hhandle] at hc
  obtain ⟨h, hh⟩ := Option.isSome_iff_exists.mp (Option.isNone_eq_false_iff.mp hc)
  refine ⟨i, k, h, hg, hk, ?_, hh, ?_⟩
  · rw [hreq, hh]
    rfl
  · rw [hx, hhandle, hh]

variable {id : PktId}

theorem cackCoversCtrl_false {named : Option PktId} (hc : cackCoversCtrl tx pp named = false) {i : Nat}
    (hi : i ∈ cackRange tx pp) (hg : tx.txBm.get i = some id) (hun : tx.acked id = false) (hn : named ≠ some id) :
    tx.isCtrl id = false := by
  have hnone := any_eq_false.mp hc i hi
  rw [hg, Bool.not_eq_true, Option.isSome_eq_false_iff, Option.isNone_iff_eq_none, Option.filter_eq_none_iff] at hnone
  have hid := hnone id rfl
  rw [hun, bne_iff_ne.mpr hn] at hid
  simpa using hid

theorem Tracks.cack (ht : Tracks tx) (hc : cackCoversCtrl tx pp none = false) :
    ∀ x ∈ rspsOf (processAckState tx pp).2, OwnData tx x := by
  intro x hx
  obtain ⟨i, hi, hg, hun, hh⟩ := (processAckState_rsps tx pp).2 x hx
  exact ht.own hg (cackCoversCtrl_false hc hi hg hun nofun) hh

theorem Tracks.cack_named (ht : Tracks tx) {j : Int} (hj : tx.txBm.get j = some id)
    (hc : cackCoversCtrl tx pp (some id) = false) :
    ∀ x ∈ rspsOf (processAckState (markAcked tx id) pp).2, OwnData tx x := by
  intro x hx
  have hs := Since.markAcked tx id
  obtain ⟨i, hi, hg, hun, hh⟩ := (processAckState_rsps (markAcked tx id) pp).2 x hx
  have hne : some id ≠ some x.1 := by
    intro heq
    obtain ⟨k, hk, -⟩ := ht j id hj
    rw [← Option.some.inj heq, acked_eq ((markAcked_pkts hk id).trans (if_pos rfl))] at hun
    cases hun
  rw [hs.bm] at hg
  exact ht.own hg (cackCoversCtrl_false hc hi hg (hs.unacked _ hun) hne) (hh.trans (hs.handle _))

theorem rspsOf_ackDeliver (env : Env) (p : Pdc) (id : PktId) :
    rspsOf (ackDeliver env p pp id).2 = rspsOf (ackUpcall p pp id) := by
  have hsame : ackUpcall (ackEstablish p pp) pp id = ackUpcall p pp id := by
    unfold ackEstablish
    split <;> rfl
  unfold ackDeliver
  dsimp only
  rw [hsame]
  split
  · rfl
  · simp only [rspsOf_append, shiftTxWindow, rspsOf_shiftTxGo, rspsOf_ackClear, rspsOf_ackClose, append_nil]

theorem rspsOf_ackTracked (env : Env) (p : Pdc) (id : PktId) (x : PktId × Option Handle)
    (hx : x ∈ rspsOf (ackTracked env p pp id).2) :
    x ∈ rspsOf (processAckState (markAcked p.tx id) pp).2 ∨
      (p.state == .closing && pp.psn == p.closeCmdPsn) = false ∧ pp.nextHdr ≠ .none ∧ x = (id, p.tx.handle id) := by
  have hs := (Since.markAcked p.tx id).trans (processAckState_rsps (markAcked p.tx id) pp).1
  unfold ackTracked at hx
  dsimp only at hx
  split at hx
  · simp only [rspsOf_append, shiftTxWindow, rspsOf_shiftTxGo, rspsOf_adoptEpsn, rspsOf_freePdc, append_nil] at hx
    exact .inl hx
  rename_i hclosing
  rw [rspsOf_append, rspsOf_ackDeliver, ackUpcall] at hx
  rcases mem_append.mp hx with hx | hx
  · exact .inl hx
  split at hx
  · cases hx
  · rename_i hnext
    refine .inr ⟨Bool.eq_false_iff.mpr hclosing, fun h => hnext (beq_iff_eq.mpr h), ?_⟩
    rw [mem_singleton.mp hx, ← hs.handle id]

theorem classifyAck_tracked (h : classifyAck tx pp = .tracked id) :
    tx.txBm.get (psnOffset pp.psn tx.txBmBasePsn) = some id := by
  unfold classifyAck at h
  split at h
  · cases h
  split at h
  · cases h
  split at h
  · cases h
  · rename_i hg
    split at h
    · cases h
    · cases h
      exact hg

end

def nackOf (code : NackCode) (psn : Psn) : Env × Event :=
  (calmEnv fun _ => .noBuf, .rx ⟨.v4 2, .v4 1, .nack ⟨false, code, psn, 7, 1, 0⟩⟩)

/-- PSN 1000 is acknowledged and 1001 is refused, so that 1002 is a Close Command. -/
def closingRun : List (Env × Event) := [sendMsg 1, ackOf 1000 0, sendMsg 2, nackOf .closing 1001]

end Uet.Pds
