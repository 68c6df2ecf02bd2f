import Uet.Ses.RodSeqs

/-!
# The order of messages over ROD

In every run of the transmit side the messages to a destination are sent one after the other, in
the order they were posted, as long as nothing takes a later one off the ring before an earlier
one. The first messages of each destination is what a turn takes and what a flush of everything
takes; a flush with a limit takes what is at the tail of the ring.
-/

namespace Uet.Ses

variable {n m : Nat} {s s' : TxEp n m} {d : Fin n}

/-- A flush with a limit, or the time-out of deferred sends, takes the first messages of each
destination. -/
def TakesFirst (s : TxEp n m) : TxEvent n → Prop
  | .flush k => CutOk k s
  | .dsendAge now => CutOk (s.deferList.takeWhile (dsendAged now s)).length s
  | _ => True

instance (s : TxEp n m) (ev : TxEvent n) : Decidable (TakesFirst s ev) := by
  induction ev using TxEvent.casesOn <;> dsimp only [TakesFirst] <;> infer_instance

def KeepsOrder (s : TxEp n m) (ev : TxEvent n) : Prop := KeepsPlaces s ev ∧ TakesFirst s ev

instance (s : TxEp n m) (ev : TxEvent n) : Decidable (KeepsOrder s ev) :=
  inferInstanceAs (Decidable (KeepsPlaces s ev ∧ TakesFirst s ev))

def NextFirst (s : TxEp n m) : Prop :=
  ∀ a, ∀ d ∈ s.ring.entries, (s.desc d).rodFor a = true →
    (∀ e ∈ s.ring.entries, (s.desc e).rodFor a = true → (s.desc d).seqNum ≤ (s.desc e).seqNum) →
      (s.desc d).seqNum = (s.av a).nextTxSeqNum

theorem RodInv.nextFirst (h : RodInv s) : NextFirst s := by
  intro a d hd hrod hmin
  obtain ⟨e, he, hre, hseq⟩ := h.next_mem hd hrod
  have hle := hmin e he hre
  have hge := h.next_le hd hrod
  omega

theorem CutOk.zero (s : TxEp n m) : CutOk 0 s := fun e he => by cases he

/-- Every event but the turns of `uet_tx_msg_try`. -/
theorem txStep_effect (hcq : n ≤ m) (h : Placed none s) (hi : RodInv s) (ev : TxEvent n)
    (hev : KeepsOrder s ev) (htry : ∀ env turns, ev ≠ .msgTry env turns) :
    RodInv (txStep s ev) ∧ InOrder s (txStep s ev) := by
  have heff : ∀ {k s'}, Effect k none s s' → CutOk k s → RodInv s' ∧ InOrder s s' :=
    fun he hc => ⟨hi.effect he hc, he.inOrder⟩
  have hsame : ∀ {s'}, Effect 0 none s s' → RodInv s' ∧ InOrder s s' := fun he => heff he (.zero s)
  have hins : ∀ {s'}, (Effect 0 none s s' ∨ ∃ d, Inserts d s s') → RodInv s' ∧ InOrder s s' := by
    rintro s' (he | ⟨d, hd⟩)
    · exact hsame he
    · exact ⟨hd.inv hi, .of_no_packet fun p => hd.pds ▸ le_rfl⟩
  obtain ⟨hplace, hcut⟩ := hev
  cases ev with
  | send env c r =>
    obtain ⟨h1, h2⟩ := sendReqApi_effect h env c r
    exact ⟨h1 hi, h2⟩
  | rdReq => exact hins (getRdTxDesc_effect h ..)
  | dsend => exact hsame (rxDsend_effect h ..)
  | recv k => exact hins (txRtrTry_effect h hi.peer k)
  | rtrReq => exact hsame (rxRtrReqPkt_effect ..)
  | rsp now i r =>
    rw [txStep]
    cases s.pds[i]? with
    | none => exact hsame (.refl none s)
    | some t =>
      refine hsame ((untrack_effect i).first (pdsToSesRxRsp_effect now r fun hds => ?_))
      exact (h.dsend t.desc hds).2
  | pdsErr i =>
    rw [txStep]
    cases s.pds[i]? with
    | none => exact hsame (.refl none s)
    | some t =>
      exact hsame ((untrack_effect i).first (.mod ⟨⟨rfl, rfl, rfl, rfl⟩, .inr (.inl rfl)⟩))
  | letGo => exact hsame (untrack_effect ..)
  | rdRspData => exact hsame (rdRspData_effect ..)
  | rdTimeout d => exact hsame rdTimeout_effect
  | msgTry env turns => exact absurd rfl (htry env turns)
  | dsendAge now => exact heff (dsendMsgAge_effect hcq now h hplace) hcut
  | rtrAge now =>
    have hbuf : ∀ (s : TxEp n m) d, d ∈ s.bufRtr → d ∈ s.bufRtr ∨ d ∈ s.bufTagRtr := fun _ _ hd => .inl hd
    have h1 := rtrMsgAgeLoop_effect now s.bufRtr.length hbuf h
    have h2 := rtrMsgAgeLoop_placed now s.bufRtr.length hbuf h
    exact hsame (h1.first (rtrMsgAgeLoop_effect now _ (fun _ _ hd => .inr hd) h2))
  | flush k => exact heff (epFlush_effect hcq k h) hcut
  | cqRead count => exact hsame (txCqRead_effect count h)
  | cqReaderr => exact hsame (txCqReaderr_effect h hplace)

theorem txMsgTryLoop_succ (env : TxEnv) (turns : Nat → TxTurn) (k i : Nat) (start : Option (Fin n))
    (s : TxEp n m) :
    txMsgTryLoop env turns (k + 1) i start s = txMsgTryLoop env turns k i start s ∨
      0 < (txMsgTryLoop env turns k i start s).ring.cnt ∧ ∃ t,
        txMsgTryLoop env turns (k + 1) i start s =
          txTurn env t (txMsgTryLoop env turns k i start s).ring.atTail
            (txMsgTryLoop env turns k i start s) := by
  induction k generalizing i start s with
  | zero =>
    simp only [txMsgTryLoop]
    split_ifs with hstop
    · exact .inl rfl
    · simp only [Bool.or_eq_true, decide_eq_true_eq, not_or] at hstop
      exact .inr ⟨Nat.pos_of_ne_zero hstop.1, _, rfl⟩
  | succ k ih =>
    have hk : ∀ k, txMsgTryLoop env turns (k + 1) i start s =
        if s.ring.cnt = 0 || start == some s.ring.atTail then s
        else txMsgTryLoop env turns k (i + 1) (start.or (some s.ring.atTail))
          (txTurn env (turns i) s.ring.atTail s) := fun k => rfl
    rw [hk, hk]
    split_ifs with hstop
    · exact .inl rfl
    · exact ih _ _ _

/-- The state after some turns of a call of `uet_tx_msg_try`. -/
def txTurns (env : TxEnv) (turns : Nat → TxTurn) (k : Nat) (s : TxEp n m) : TxEp n m :=
  txMsgTryLoop env turns k 0 none s

theorem txTurns_order (hcq : n ≤ m) (h : Placed none s) (hi : RodInv s) (env : TxEnv)
    (turns : Nat → TxTurn) (k : Nat) :
    RodInv (txTurns env turns k s) ∧ InOrder (txTurns env turns k s) (txTurns env turns (k + 1) s) := by
  have hone : ∀ k, RodInv (txTurns env turns k s) → RodInv (txTurns env turns (k + 1) s) ∧
      InOrder (txTurns env turns k s) (txTurns env turns (k + 1) s) := by
    intro k hk
    have hplaced := txMsgTryLoop_placed hcq env turns k 0 none h
    rcases txMsgTryLoop_succ env turns k 0 none s with heq | ⟨hc, t, heq⟩
    · rw [txTurns, txTurns, heq]
      exact ⟨hk, .of_no_packet fun p => le_rfl⟩
    have hr := RingBuf.entries_eq_cons (txMsgTryLoop env turns k 0 none s).ring hc
    have hturn := txTurn_effect hplaced (hk.peer _) hr env t
    rw [txTurns, txTurns, heq]
    exact ⟨hturn.inv hk, hturn.inOrder hk (by rw [hr]; exact List.mem_cons_self)⟩
  have hall : ∀ k, RodInv (txTurns env turns k s) := by
    intro k
    induction k with
    | zero => exact hi
    | succ k ih => exact (hone k ih).1
  exact ⟨hall k, (hone k (hall k)).2⟩

theorem txStep_rodInv (hcq : n ≤ m) (h : Placed none s) (hi : RodInv s) (ev : TxEvent n)
    (hev : KeepsOrder s ev) : RodInv (txStep s ev) := by
  by_cases htry : ∀ env turns, ev ≠ .msgTry env turns
  · exact (txStep_effect hcq h hi ev hev htry).1
  push Not at htry
  obtain ⟨env, turns, rfl⟩ := htry
  exact (txTurns_order hcq h hi env turns n).1

theorem init_rodInv [NeZero n] (cfg : TxCfg) (maxRetx : Option Nat) (idleDsend idleRtr maxRtr : Nat)
    (untagged tagged : Nat → BitVec 32) :
    RodInv (TxEp.init n m cfg maxRetx idleDsend idleRtr maxRtr fun a =>
      ⟨0, 0, untagged a, tagged a⟩) := by
  refine ⟨fun a => ?_, fun a => ?_, fun d hp => by cases hp⟩
  all_goals simp only [TxEp.init, RingBuf.entries_init, TxEp.rodSeqs]
  · exact List.Perm.refl _
  · rfl

/-- While each flush with a limit takes the first messages of each destination, the message with
the smallest number in the ring is always the next one, and the packets of a message are handed on
when no message to its destination with a smaller number is left; this holds before every event and
between the turns of `uet_tx_msg_try`. -/
theorem rod_order (n cqSize : Nat) [NeZero n] (cfg : TxCfg) (maxRetx : Option Nat)
    (idleDsend idleRtr maxRtr : Nat) (untagged tagged : Nat → BitVec 32) (evs : List (TxEvent n))
    (hrun : (TxEp.init n (max cqSize n) cfg maxRetx idleDsend idleRtr maxRtr fun a =>
      ⟨0, 0, untagged a, tagged a⟩).RunMeets KeepsOrder evs) :
    let s := txRun (TxEp.init n (max cqSize n) cfg maxRetx idleDsend idleRtr maxRtr fun a =>
      ⟨0, 0, untagged a, tagged a⟩) evs
    NextFirst s ∧
      (∀ ev, KeepsOrder s ev → (∀ env turns, ev ≠ .msgTry env turns) → InOrder s (txStep s ev)) ∧
      ∀ env turns k, NextFirst (txTurns env turns k s) ∧
        InOrder (txTurns env turns k s) (txTurns env turns (k + 1) s) := by
  intro s
  have hcq : n ≤ max cqSize n := le_max_right _ _
  obtain ⟨h, hi⟩ : Placed none s ∧ RodInv s :=
    txRun_keep (C := KeepsOrder) (P := fun s => Placed none s ∧ RodInv s)
      (fun _ ev hs hev => ⟨txStep_placed hcq hs.1 ev hev.1, txStep_rodInv hcq hs.1 hs.2 ev hev⟩)
      ⟨init_placed cfg maxRetx idleDsend idleRtr maxRtr _,
        init_rodInv cfg maxRetx idleDsend idleRtr maxRtr untagged tagged⟩ hrun
  refine ⟨hi.nextFirst, fun ev hev htry => (txStep_effect hcq h hi ev hev htry).2, fun env turns k => ?_⟩
  obtain ⟨h1, h2⟩ := txTurns_order hcq h hi env turns k
  exact ⟨h1.nextFirst, h2⟩

/-- An endpoint with four descriptors and a send over ROD. -/
theorem neZero_four : NeZero 4 := ⟨by decide⟩

def fourDescs : TxEp 4 4 := @TxEp.init 4 4 neZero_four fourByteSends none 10 10 4 fun _ => ⟨0, 0, 0, 0⟩

def aRodSend : SendReq := { aSend 2 with pdsMode := .rod }

def takenTurns : Nat → TxTurn := fun _ => ⟨.ok, ⟨none, [⟨true, .ok⟩]⟩, 0⟩

/-- Three sends; the first is acknowledged and completes, and the ring goes on turning until each
descriptor could have had a turn. -/
def threeRodSends : List (TxEvent 4) :=
  [.send stillEnv ⟨none, [⟨true, .ok⟩]⟩ aRodSend, .send stillEnv ⟨none, []⟩ aRodSend,
    .send stillEnv ⟨none, []⟩ aRodSend, .rsp 0 0 none, .msgTry stillEnv takenTurns]

def flushedOne : TxEp 4 4 := txStep (txRun fourDescs threeRodSends) (.flush 1)

/-- The third message is at the tail, and the flush completes it. The number of the second is
passed over: neither it nor any message after it will be sent. -/
theorem flush_passes_over :
    (txRun fourDescs threeRodSends).ring.entries = [1, 2] ∧ flushedOne.ring.entries = [2] ∧
      (flushedOne.desc 2).seqNum = 1 ∧ (flushedOne.av 0).nextTxSeqNum = 2 ∧ ¬NextFirst flushedOne := by
  have hring : flushedOne.ring.entries = [2] := by decide +kernel
  have hseq : (flushedOne.desc 2).seqNum = 1 := by decide +kernel
  have hnext : (flushedOne.av 0).nextTxSeqNum = 2 := by decide +kernel
  refine ⟨by decide +kernel, hring, hseq, hnext, fun h => ?_⟩
  have heq := h 0 2 (by rw [hring]; exact List.mem_singleton_self _) (by decide +kernel) ?_
  · rw [hseq, hnext] at heq
    cases heq
  · intro e he _
    rw [hring, List.mem_singleton] at he
    rw [he]

/-- Before the flush the second message is the next one, although it is not at the tail. -/
theorem rod_order_three :
    fourDescs.RunMeets KeepsOrder threeRodSends ∧
      ((txRun fourDescs threeRodSends).desc 2).seqNum = 1 ∧
      ((txRun fourDescs threeRodSends).av 0).nextTxSeqNum = 1 ∧
      NextFirst (txRun fourDescs threeRodSends) := by
  have hrun : fourDescs.RunMeets KeepsOrder threeRodSends := by decide +kernel
  exact ⟨hrun, by decide +kernel, by decide +kernel,
    (rod_order 4 4 fourByteSends none 10 10 4 _ _ threeRodSends hrun).1⟩

end Uet.Ses
