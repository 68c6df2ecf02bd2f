import Mathlib

/-!
# The stop-and-go layer

`uet_pds_sng` keeps one packet of an endpoint on its way. The sender holds the parameters of that
packet for retransmissions and a PSN that moves on when the packet has been answered; a receiving
endpoint saves the last ACK that it sent to each source and answers a request with the same
PSN from there.

The contents of packets and responses are type variables here. The decisions of SES and the
outcomes of allocations and NIC calls come with each call.
-/

namespace Uet.Sng

open List

/-- Where a request comes from: its address and the header fields that are used for the endpoint. -/
structure Source where
  ip : Nat
  pidOnFep : Nat
  index : Nat
  deriving DecidableEq, Repr

/-- `uet_pds_mode_t`. -/
inductive Mode where
  | uud | rod | rud | rudi
  deriving DecidableEq, Repr

inductive NextHdr where
  | none | reqStd | rsp | rspData
  deriving DecidableEq, Repr

inductive ReqType where
  | rodReq | rudReq
  deriving DecidableEq, Repr

/-- The error codes of a transmission; `nic` stands for what `uet_nic_tx_pkt` returned. -/
inductive Rc where
  | ok | eagain | enomem | einval | eio | nic
  deriving DecidableEq, Repr

structure Cfg where
  txTimeout : Nat
  maxTxRetries : Nat
  msl : Nat
  deriving DecidableEq, Repr

/-- What SES hands over for transmission. `msgId` and `jobId` also stand in the SES header. -/
structure Pkt (α : Type) where
  handle : Nat
  msgId : Nat
  jobId : Nat
  mode : Mode
  nextHdr : NextHdr
  data : α
  deriving DecidableEq, Repr

structure Req (α : Type) where
  src : Source
  type : ReqType
  retx : Bool
  psn : BitVec 32
  msgId : Nat
  jobId : Nat
  data : α
  deriving DecidableEq, Repr

structure Ack (ρ : Type) where
  src : Source
  cackPsn : BitVec 32
  msgId : Nat
  jobId : Nat
  rsp : ρ
  deriving DecidableEq, Repr

/-- `struct uet_pds_sng_tx_state`; there are no parameters before the first packet. -/
structure TxState (α : Type) where
  txActive : Bool := false
  psn : BitVec 32 := 0
  startTime : Nat := 0
  retryCnt : Nat := 0
  pktParms : Option (Pkt α) := none
  deriving DecidableEq, Repr

structure Ini (α : Type) where
  src : Source
  jobId : Nat
  closeWait : Bool := false
  tx : TxState α := {}
  deriving DecidableEq, Repr

/-- `struct uet_pds_ack_state`. -/
structure AckState (ρ : Type) where
  ackTime : Nat
  ack : Ack ρ
  deriving DecidableEq, Repr

structure Tgt (ρ : Type) where
  closeWait : Bool := false
  ackStateList : List (AckState ρ) := []
  deriving DecidableEq, Repr

variable {α ρ : Type}

/-! ## Sending -/

def Pkt.reqType (p : Pkt α) : Option ReqType :=
  match p.nextHdr, p.mode with
  | .reqStd, .rod | .rspData, .rod => some .rodReq
  | .reqStd, .rud | .rspData, .rud => some .rudReq
  | _, _ => none

/-- `uet_pds_sng_tx_pkt`; `mem` and `nic` say whether the buffer is allocated and the NIC takes the
packet. -/
def txPkt (e : Ini α) (now : Nat) (retx : Bool) (p : Pkt α) (mem nic : Bool) :
    Rc × Ini α × Option (Req α) :=
  if e.tx.txActive && !retx then (.eagain, e, none)
  else if !mem then (.enomem, e, none)
  else
    match p.reqType with
    | none => (.einval, e, none)
    | some type =>
      let tx :=
        { e.tx with
          retryCnt := if retx then e.tx.retryCnt else 0
          startTime := now
          pktParms := some p }
      if nic then
        (.ok, { e with tx := { tx with txActive := true } },
          some ⟨e.src, type, retx, e.tx.psn, p.msgId, p.jobId, p.data⟩)
      else (.nic, { e with tx }, none)

/-- `uet_pds_sng_drop_tx_pkts`, with no handle for a null pointer. -/
def dropTxPkts (e : Ini α) (handle : Option Nat) : Ini α :=
  if e.tx.txActive ∧ handle ≠ none ∧ e.tx.pktParms.map (·.handle) = handle then
    { e with tx := { e.tx with txActive := false } }
  else e

/-- `uet_pds_sng_progress_tx`. -/
def progressTx (c : Cfg) (e : Ini α) (now : Nat) (mem nic : Bool) : Rc × Ini α × Option (Req α) :=
  match e.tx.txActive, e.tx.pktParms with
  | true, some p =>
    if now - e.tx.startTime < c.txTimeout then (.ok, e, none)
    else if c.maxTxRetries ≤ e.tx.retryCnt then
      -- the packet is given up, and its PSN goes to the next one
      (.eio, { e with tx := { e.tx with txActive := false } }, none)
    else
      txPkt { e with tx := { e.tx with retryCnt := e.tx.retryCnt + 1, startTime := now } } now true p
        mem nic
  | _, _ => (.eagain, e, none)

/-- The part of `uet_pds_sng_progress_rx` for an ACK, with the search for its endpoint; `ok` says
that the upcall returned 0. The second result is the packet of the upcall and the response. -/
def rxAckPkt (e : Ini α) (a : Ack ρ) (ok : Bool) : Ini α × Option (Pkt α × ρ) :=
  match e.tx.txActive, e.tx.pktParms with
  | true, some p =>
    if a.jobId ≠ e.jobId ∨ a.msgId ≠ p.msgId then (e, none)
    else if e.closeWait then (e, none)
    else if a.cackPsn ≠ e.tx.psn then (e, none)
    else if ok then
      ({ e with tx := { e.tx with psn := e.tx.psn + 1, txActive := false } }, some (p, a.rsp))
    else (e, some (p, a.rsp))
  | _, _ => (e, none)

/-! ## Receiving -/

/-- `uet_pds_is_dup_req`: the saved ACK with the PSN of the request, and the list that is left. -/
def isDupReq (msl now : Nat) (src : Source) (psn : BitVec 32) :
    List (AckState ρ) → Option (AckState ρ) × List (AckState ρ)
  | [] => (none, [])
  | a :: l =>
    if a.ack.src = src then
      if a.ack.cackPsn = psn then (some a, a :: l)
      else (none, l)
    else
      let r := isDupReq msl now src psn l
      if msl < now - a.ackTime then r else (r.1, a :: r.2)

/-- `uet_pds_build_ack_pkt`. SES answers with the message and job of the request. -/
def buildAckPkt (f : Req α) (rsp : ρ) : Ack ρ := ⟨f.src, f.psn, f.msgId, f.jobId, rsp⟩

/-- What the `rx_req` upcall returns. -/
structure SesOut (ρ : Type) where
  rc : Int
  sesNack : Bool
  rsp : ρ
  deriving DecidableEq, Repr

def SesOut.accepts (o : SesOut ρ) : Bool := o.rc = 0 && !o.sesNack

/-- What comes from outside with a request: the response to a packet that finds no endpoint, the
upcall, and the allocation and transmission of an ACK. -/
structure RxEnv (ρ : Type) where
  noEp : Option ρ := none
  ses : SesOut ρ
  mem : Bool := true
  nic : Bool := true
  deriving DecidableEq, Repr

structure RxRes (ρ : Type) where
  tgt : Tgt ρ
  sent : Option (Ack ρ)
  upcall : Option (SesOut ρ)

/-- `uet_pds_tx_ack_pkt`: the ACK is saved once it is on the wire. -/
def txAckPkt (t : Tgt ρ) (now : Nat) (ack : Ack ρ) (mem nic : Bool) : Tgt ρ × Option (Ack ρ) :=
  if mem && nic then ({ t with ackStateList := ⟨now, ack⟩ :: t.ackStateList }, some ack)
  else (t, none)

/-- The part of `uet_pds_sng_progress_rx` for a request. -/
def rxReqPkt (c : Cfg) (now : Nat) (t : Tgt ρ) (f : Req α) (env : RxEnv ρ) : RxRes ρ :=
  match env.noEp with
  | some rsp => ⟨t, if env.mem && env.nic then some (buildAckPkt f rsp) else none, none⟩
  | none =>
    match isDupReq c.msl now f.src f.psn t.ackStateList with
    | (some a, l) => ⟨{ t with ackStateList := l }, if env.nic then some a.ack else none, none⟩
    | (none, l) =>
      if t.closeWait then ⟨{ t with ackStateList := l }, none, none⟩
      else if !env.ses.accepts then ⟨{ t with ackStateList := l }, none, some env.ses⟩
      else
        let r := txAckPkt { t with ackStateList := l } now (buildAckPkt f env.ses.rsp) env.mem env.nic
        ⟨r.1, r.2, some env.ses⟩

/-! ## What is left of the saved ACKs -/

def savedFor (src : Source) (l : List (AckState ρ)) : List (AckState ρ) :=
  l.filter fun a => decide (a.ack.src = src)

theorem savedFor_cons_of_eq {src : Source} {a : AckState ρ} {l : List (AckState ρ)}
    (h : a.ack.src = src) : savedFor src (a :: l) = a :: savedFor src l :=
  filter_cons_of_pos (decide_eq_true h)

theorem savedFor_cons_of_ne {src : Source} {a : AckState ρ} {l : List (AckState ρ)}
    (h : a.ack.src ≠ src) : savedFor src (a :: l) = savedFor src l :=
  filter_cons_of_neg (by simpa using h)

section

variable {msl now : Nat} {src : Source} {psn : BitVec 32} {l : List (AckState ρ)}

theorem isDupReq_saved (hone : (savedFor src l).length ≤ 1) :
    (isDupReq msl now src psn l).1 = (savedFor src l).find? (fun a => a.ack.cackPsn == psn) ∧
      savedFor src (isDupReq msl now src psn l).2 = (savedFor src l).filter fun a => a.ack.cackPsn == psn := by
  induction l with
  | nil => exact ⟨rfl, rfl⟩
  | cons b l ih =>
    unfold isDupReq
    by_cases hb : b.ack.src = src
    · rw [savedFor_cons_of_eq hb, length_cons] at hone
      have hnil : savedFor src l = [] := eq_nil_of_length_eq_zero (by omega)
      rw [savedFor_cons_of_eq hb, if_pos hb, hnil]
      split
      · rename_i hpsn
        simp [savedFor_cons_of_eq hb, hnil, hpsn]
      · rename_i hpsn
        simp [hnil, hpsn]
    · rw [savedFor_cons_of_ne hb] at hone ⊢
      obtain ⟨hfound, hleft⟩ := ih hone
      rw [if_neg hb]
      split
      · exact ⟨hfound, hleft⟩
      · exact ⟨hfound, (savedFor_cons_of_ne hb).trans hleft⟩

variable (msl now psn) in
theorem isDupReq_cases (hone : (savedFor src l).length ≤ 1) :
    (∃ a, savedFor src l = [a] ∧ a.ack.cackPsn = psn ∧ (isDupReq msl now src psn l).1 = some a ∧
      savedFor src (isDupReq msl now src psn l).2 = [a]) ∨
    ((∀ a ∈ savedFor src l, a.ack.cackPsn ≠ psn) ∧ (isDupReq msl now src psn l).1 = none ∧
      savedFor src (isDupReq msl now src psn l).2 = []) := by
  have hsaved := @isDupReq_saved _ msl now _ psn _ hone
  rcases hs : savedFor src l with _ | ⟨a, r⟩
  · rw [hs] at hsaved
    exact .inr ⟨fun a ha => (not_mem_nil ha).elim, hsaved⟩
  rw [hs, length_cons] at hone
  obtain rfl : r = [] := eq_nil_of_length_eq_zero (by omega)
  rw [hs] at hsaved
  by_cases hpsn : a.ack.cackPsn = psn
  · exact .inl ⟨a, rfl, hpsn, by simpa [hpsn] using hsaved⟩
  · exact .inr ⟨by simpa using hpsn, by simpa [hpsn] using hsaved⟩

variable (msl now psn l) in
theorem isDupReq_other {src' : Source} (hne : src' ≠ src) :
    (savedFor src (isDupReq msl now src' psn l).2).Sublist (savedFor src l) ∧
    ∀ a ∈ savedFor src l, a ∈ savedFor src (isDupReq msl now src' psn l).2 ∨ msl < now - a.ackTime := by
  induction l with
  | nil => exact ⟨.slnil, fun a ha => .inl ha⟩
  | cons b l ih =>
    unfold isDupReq
    by_cases hb : b.ack.src = src'
    · -- the walk ends here; `b` is not ours
      have hb' : b.ack.src ≠ src := fun h => hne (hb.symm.trans h)
      rw [if_pos hb]
      split
      · exact ⟨Sublist.refl _, fun a ha => .inl ha⟩
      · rw [savedFor_cons_of_ne hb']
        exact ⟨Sublist.refl _, fun a ha => .inl ha⟩
    · obtain ⟨hsub, hkeep⟩ := ih
      rw [if_neg hb]
      by_cases hb' : b.ack.src = src
      · rw [savedFor_cons_of_eq hb']
        split
        · rename_i hold
          refine ⟨hsub.cons _, fun a ha => ?_⟩
          rcases mem_cons.1 ha with rfl | ha
          · exact .inr hold
          · exact hkeep a ha
        · rw [savedFor_cons_of_eq hb']
          refine ⟨hsub.cons_cons _, fun a ha => ?_⟩
          rcases mem_cons.1 ha with rfl | ha
          · exact .inl mem_cons_self
          · exact (hkeep a ha).imp (mem_cons_of_mem _) id
      · rw [savedFor_cons_of_ne hb']
        split
        · exact ⟨hsub, hkeep⟩
        · rw [savedFor_cons_of_ne hb']
          exact ⟨hsub, hkeep⟩

end

/-! ## What a call can do -/

/-- A transmission leaves the PSN alone. Either nothing is sent, and the parameters are replaced only
if the endpoint was free or they are sent again; or the packet goes out with the PSN. -/
theorem txPkt_cases (e : Ini α) (now : Nat) (retx : Bool) (p : Pkt α) (mem nic : Bool) :
    (txPkt e now retx p mem nic).2.1.src = e.src ∧
    (txPkt e now retx p mem nic).2.1.tx.psn = e.tx.psn ∧
    (((txPkt e now retx p mem nic).2.2 = none ∧
      (txPkt e now retx p mem nic).2.1.tx.txActive = e.tx.txActive ∧
      ((txPkt e now retx p mem nic).2.1.tx.pktParms = e.tx.pktParms ∨
        ((e.tx.txActive = true → retx = true) ∧
          (txPkt e now retx p mem nic).2.1.tx.pktParms = some p))) ∨
     ((e.tx.txActive = true → retx = true) ∧
      (txPkt e now retx p mem nic).2.1.tx.txActive = true ∧
      (txPkt e now retx p mem nic).2.1.tx.pktParms = some p ∧
      ∃ f, (txPkt e now retx p mem nic).2.2 = some f ∧ f.src = e.src ∧ f.psn = e.tx.psn ∧
        f.msgId = p.msgId ∧ f.data = p.data)) := by
  unfold txPkt
  split
  · exact ⟨rfl, rfl, .inl ⟨rfl, rfl, .inl rfl⟩⟩
  rename_i hbusy
  have hretx : e.tx.txActive = true → retx = true := by
    intro hact
    cases retx with
    | true => rfl
    | false => exact (hbusy (by rw [hact]; rfl)).elim
  split
  · exact ⟨rfl, rfl, .inl ⟨rfl, rfl, .inl rfl⟩⟩
  split
  · exact ⟨rfl, rfl, .inl ⟨rfl, rfl, .inl rfl⟩⟩
  dsimp only
  split
  · exact ⟨rfl, rfl, .inr ⟨hretx, rfl, rfl, _, rfl, rfl, rfl, rfl, rfl⟩⟩
  · exact ⟨rfl, rfl, .inl ⟨rfl, rfl, .inr ⟨hretx, rfl⟩⟩⟩

theorem rxAckPkt_cases (e : Ini α) (a : Ack ρ) (ok : Bool) :
    rxAckPkt e a ok = (e, none) ∨
    ∃ p, e.tx.txActive = true ∧ e.tx.pktParms = some p ∧ a.msgId = p.msgId ∧ a.cackPsn = e.tx.psn ∧
      rxAckPkt e a ok =
        (if ok then { e with tx := { e.tx with psn := e.tx.psn + 1, txActive := false } } else e,
          some (p, a.rsp)) := by
  unfold rxAckPkt
  split
  · rename_i p hact hparms
    split
    · exact .inl rfl
    rename_i hmatch
    split
    · exact .inl rfl
    split
    · exact .inl rfl
    rename_i hpsn
    refine .inr ⟨p, hact, hparms, ?_, Decidable.not_not.1 hpsn, ?_⟩
    · exact Decidable.not_not.1 fun h => hmatch (.inr h)
    · split <;> rfl
  · exact .inl rfl

/-- What becomes of a request that finds its endpoint: it is answered from the saved ACK with its PSN,
or not taken, or taken and its ACK saved and sent. Other ACKs to the source go. -/
inductive RxCase (now : Nat) (t : Tgt ρ) (f : Req α) (env : RxEnv ρ) (r : RxRes ρ) : Prop where
  | again (a : AckState ρ) (found : savedFor f.src t.ackStateList = [a]) (psn : a.ack.cackPsn = f.psn)
      (stays : savedFor f.src r.tgt.ackStateList = [a]) (quiet : r.upcall = none)
      (sent : ∀ b ∈ r.sent, b = a.ack)
  | refused (psn : ∀ a ∈ savedFor f.src t.ackStateList, a.ack.cackPsn ≠ f.psn)
      (gone : savedFor f.src r.tgt.ackStateList = []) (sent : r.sent = none)
      (upcall : ∀ o ∈ r.upcall, o.accepts = false)
  | taken (psn : ∀ a ∈ savedFor f.src t.ackStateList, a.ack.cackPsn ≠ f.psn)
      (saved : savedFor f.src r.tgt.ackStateList = [⟨now, buildAckPkt f env.ses.rsp⟩])
      (sent : r.sent = some (buildAckPkt f env.ses.rsp)) (upcall : r.upcall = some env.ses)
      (accepts : env.ses.accepts = true)

theorem rxReqPkt_cases {c : Cfg} {now : Nat} {t : Tgt ρ} {f : Req α} {env : RxEnv ρ}
    (hno : env.noEp = none) (hone : (savedFor f.src t.ackStateList).length ≤ 1)
    (hsent : ∀ o ∈ (rxReqPkt c now t f env).upcall, o.accepts = true → env.mem = true ∧ env.nic = true) :
    RxCase now t f env (rxReqPkt c now t f env) := by
  unfold rxReqPkt at hsent ⊢
  rw [hno] at hsent ⊢
  rcases isDupReq_cases c.msl now f.psn hone with
    ⟨a, hs, hpsn, hd, hl⟩ | ⟨hpsn, hd, hl⟩
  · rcases hr : isDupReq c.msl now f.src f.psn t.ackStateList with ⟨d, l⟩
    rw [hr] at hd hl
    subst hd
    refine .again a hs hpsn hl rfl fun b hb => ?_
    dsimp only at hb
    split at hb
    · exact (Option.some.inj hb).symm
    · cases hb
  · rcases hr : isDupReq c.msl now f.src f.psn t.ackStateList with ⟨d, l⟩
    rw [hr] at hd hl hsent
    subst hd
    dsimp only at hl hsent ⊢
    split
    · exact .refused hpsn hl rfl fun o ho => by cases ho
    rename_i hopen
    rw [if_neg hopen] at hsent
    split
    · rename_i hrej
      refine .refused hpsn hl rfl fun o ho => ?_
      rw [← Option.some.inj ho]
      exact Bool.not_eq_true' _ ▸ hrej
    · rename_i hacc
      rw [if_neg hacc] at hsent
      have hok : env.ses.accepts = true := by simpa using hacc
      obtain ⟨hmem, hnic⟩ := hsent env.ses rfl hok
      refine .taken hpsn ?_ ?_ rfl hok
      · unfold txAckPkt
        rw [hmem, hnic]
        exact (savedFor_cons_of_eq rfl).trans (congrArg _ hl)
      · unfold txAckPkt
        rw [hmem, hnic]
        rfl

theorem rxReqPkt_other (c : Cfg) (now : Nat) (t : Tgt ρ) {f : Req α} (env : RxEnv ρ) {src : Source}
    (hne : f.src ≠ src) :
    (savedFor src (rxReqPkt c now t f env).tgt.ackStateList).Sublist (savedFor src t.ackStateList) ∧
    ∀ a ∈ savedFor src t.ackStateList,
      a ∈ savedFor src (rxReqPkt c now t f env).tgt.ackStateList ∨ c.msl < now - a.ackTime := by
  have hother := isDupReq_other c.msl now f.psn t.ackStateList hne
  unfold rxReqPkt
  split
  · exact ⟨Sublist.refl _, fun a ha => .inl ha⟩
  split
  · rename_i hr
    rw [hr] at hother
    exact hother
  rename_i hr
  rw [hr] at hother
  split
  · exact hother
  split
  · exact hother
  unfold txAckPkt
  split
  · rw [savedFor_cons_of_ne (by exact hne)]
    exact hother
  · exact hother

end Uet.Sng
