import Uet.Assoc
import Uet.Pds.Manager
import Uet.Ses.TxPlaces

/-!
# Flush and the packet layer

`uet_ep_flush` completes every message of the transmit ring, and tells the packet layer to
drop the packets of each. Nothing tells the packet layer that the messages have ended: a PDC
keeps the message it has active, and the mapping of the message. So the path to a peer is
free after a flush if no message was under way: begun, and neither sent to its end nor
completed.
-/

namespace Uet.Ses

open Uet.Pds (Pdsm Pdc Handle TxArgs PdsCall)

variable {n m : Nat}

/-- `uet_ep_flush` with the packet layer: `hd` is the handle of a descriptor. -/
def flushPath (hd : Fin n → Handle) : Nat → TxEp n m × Pdsm → TxEp n m × Pdsm
  | 0, x => x
  | k + 1, x =>
    if x.1.ring.cnt = 0 then x
    else flushPath hd k (flushOne x.1.ring.atTail x.1, x.2.dropTxPkts (hd x.1.ring.atTail))

theorem flushPath_fst (hd : Fin n → Handle) (k : Nat) (x : TxEp n m × Pdsm) :
    (flushPath hd k x).1 = epFlush k x.1 := by
  induction k generalizing x with
  | zero => rfl
  | succ k ih =>
    rw [flushPath, epFlush]
    split
    · rfl
    · exact ih _

/-! ## The ring -/

theorem flushOne_ring (d : Fin n) (s : TxEp n m) : (flushOne d s).ring = s.ring.tailAdvance := by
  have hrecycle : ∀ (s : TxEp n m) b, (txDescRecycle d b s).ring = s.ring.tailAdvance := by
    intro s b
    cases b with
    | false => exact (txDescRecycle_out d s).ring
    | true => exact (txDescRecycle_out d s).ring
  unfold flushOne txCqPostErr incNextTxSeqNum
  dsimp only
  split
  · exact hrecycle _ _
  · split <;> exact hrecycle _ _

theorem epFlush_empty (k : Nat) (s : TxEp n m) (h : s.ring.cnt ≤ k) : (epFlush k s).ring.cnt = 0 := by
  induction k generalizing s with
  | zero => exact Nat.le_zero.1 h
  | succ k ih =>
    rw [epFlush]
    split
    · assumption
    rename_i hne
    refine ih _ ?_
    rw [flushOne_ring, RingBuf.cnt_tailAdvance _ (pos_of_ne_zero hne)]
    omega

/-! ## The packet layer -/

structure SamePath (s s' : Pdsm) : Prop where
  free : s'.free = s.free
  iniHt : s'.iniHt = s.iniHt
  msgidHt : s'.msgidHt = s.msgidHt
  msg : ∀ i, (s'.pdc i).msg = (s.pdc i).msg
  takesMsgs : ∀ i, (s'.pdc i).takesMsgs = (s.pdc i).takesMsgs
  window : ∀ i, Pds.txPsnAllowed (s'.pdc i).tx (s'.pdc i).tx.nextPsn =
    Pds.txPsnAllowed (s.pdc i).tx (s.pdc i).tx.nextPsn

theorem SamePath.refl (s : Pdsm) : SamePath s s :=
  ⟨rfl, rfl, rfl, fun _ => rfl, fun _ => rfl, fun _ => rfl⟩

theorem SamePath.trans {s s' s'' : Pdsm} (h : SamePath s s') (h' : SamePath s' s'') : SamePath s s'' :=
  ⟨h'.free.trans h.free, h'.iniHt.trans h.iniHt, h'.msgidHt.trans h.msgidHt,
    fun i => (h'.msg i).trans (h.msg i), fun i => (h'.takesMsgs i).trans (h.takesMsgs i),
    fun i => (h'.window i).trans (h.window i)⟩

theorem dropTxPkts_window (h : Handle) (tx : Pds.TxSide) :
    Pds.txPsnAllowed (Pds.dropTxPkts h tx).1 (Pds.dropTxPkts h tx).1.nextPsn =
      Pds.txPsnAllowed tx tx.nextPsn := by
  have hone : ∀ (tx : Pds.TxSide) id, Pds.txPsnAllowed (Pds.dropPkt h tx id).1
      (Pds.dropPkt h tx id).1.nextPsn = Pds.txPsnAllowed tx tx.nextPsn := by
    intro tx id
    unfold Pds.dropPkt Pds.unsetTracked
    cases tx.pkts id with
    | none => rfl
    | some pkt =>
      dsimp only
      split
      · split <;> rfl
      · rfl
  have hall : ∀ (ids : List Pds.PktId) (tx : Pds.TxSide),
      Pds.txPsnAllowed (Pds.foldPkts (Pds.dropPkt h) ids tx).1
        (Pds.foldPkts (Pds.dropPkt h) ids tx).1.nextPsn = Pds.txPsnAllowed tx tx.nextPsn := by
    intro ids
    induction ids with
    | nil => exact fun _ => rfl
    | cons _ _ ih => exact fun tx => (ih _).trans (hone ..)
  exact hall _ tx

theorem dropTxPkts_same (h : Handle) (s : Pdsm) : SamePath s (s.dropTxPkts h) := by
  have hpdc : ∀ i, (s.dropTxPkts h).pdc i = s.pdc i ∨
      (s.dropTxPkts h).pdc i = { s.pdc i with tx := (Pds.dropTxPkts h (s.pdc i).tx).1 } := by
    intro i
    unfold Pdsm.dropTxPkts
    dsimp only
    split
    · exact Or.inl rfl
    · exact Or.inr rfl
  refine ⟨rfl, rfl, rfl, fun i => ?_, fun i => ?_, fun i => ?_⟩
  all_goals rcases hpdc i with hi | hi <;> rw [hi]
  · rfl
  · rfl
  · exact dropTxPkts_window h _

theorem flushPath_same (hd : Fin n → Handle) (k : Nat) (x : TxEp n m × Pdsm) :
    SamePath x.2 (flushPath hd k x).2 := by
  induction k generalizing x with
  | zero => exact .refl x.2
  | succ k ih =>
    rw [flushPath]
    split
    · exact .refl x.2
    · exact (dropTxPkts_same (hd x.1.ring.atTail) x.2).trans
        (ih (flushOne x.1.ring.atTail x.1, x.2.dropTxPkts (hd x.1.ring.atTail)))

/-! ## The path after a flush -/

def OldestIs (p : Pdc) (h : Handle) : Prop :=
  ∃ id, p.tx.txBm.get 0 = some id ∧ p.tx.handle id = some h

/-- The messages of the endpoint that a flush completes; a read response goes out under the
message id of its request. -/
def TxEp.Sending (s : TxEp n m) (d : Fin n) : Prop := d ∈ s.ring.entries ∧ (s.desc d).op ≠ .readRsp

/-- The packet layer from `p` to `p'` knows nothing of the messages of `s`: none is active or
mapped, and none is the reason if a start of message is put off. -/
structure PathFreed (hd : Fin n → Handle) (s : TxEp n m) (p p' : Pdsm) : Prop where
  active : ∀ d, s.Sending d → ∀ i, (p'.pdc i).msg ≠ some (s.desc d).msgId
  unmapped : ∀ d, s.Sending d → p'.getMsgidPdc (s.desc d).msgId = none
  refusal : ∀ env q, q.req.pdsInfo = false → q.req.som = true → (p'.txPkt env q).2 = .again →
    p'.free = [] ∨ ∃ i, p'.iniHt.lookup q.key = some i ∧
      ((p'.pdc i).takesMsgs = false ∨
        (∃ id, (p'.pdc i).msg = some id ∧ ∀ d, s.Sending d → (s.desc d).msgId ≠ id) ∨
        Pds.txPsnAllowed (p'.pdc i).tx (p'.pdc i).tx.nextPsn = false ∧
          ∀ d, s.Sending d → ¬ OldestIs (p.pdc i) (hd d))

def toPeer (h : Handle) (msgId : Pds.MsgId) (som eom maintainPdc : Bool) : PdsCall :=
  .txPkt (Pds.calmEnv fun _ => .noBuf)
    { req := { handle := some h, mode := .rud, pdsInfo := false, som, eom, maintainPdc, msgId
               nextHdr := .reqStd, dstFa := .v4 2, payloadLen := 4 }
      infoPdc := 0, jobId := 1, localFa := .v4 1, sec := false, startPsn := 0 }

def partSent : TxEp 2 2 := txRun twoDescs [.send stillEnv ⟨none, [⟨true, .ok⟩, ⟨true, .eagain⟩]⟩ (aSend 10)]

def readSent : TxEp 2 2 :=
  txRun twoDescs [.send stillEnv ⟨none, [⟨true, .ok⟩]⟩ { aSend 2 with api := .read }]

def allSent : TxEp 2 2 :=
  txRun twoDescs [.send stillEnv ⟨none, List.replicate 128 ⟨true, .ok⟩⟩ (aSend 512)]

def windowOut : List PdsCall :=
  toPeer 1 0 true false false :: List.replicate 126 (toPeer 1 0 false false false) ++
    [toPeer 1 0 false true false]

def oneSent : TxEp 2 2 := txRun twoDescs [.send stillEnv ⟨none, [⟨true, .ok⟩]⟩ (aSend 2)]

def oneOut : List PdsCall := [toPeer 1 0 true true false]

end Uet.Ses
