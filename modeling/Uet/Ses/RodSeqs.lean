import Uet.Ses.TxPlaces

/-!
# The numbers of messages over ROD

A message over ROD gets the next number of its destination when it is posted, and
`uet_tx_msg_try` passes over every message whose number is not `next_tx_seq_num`. Nothing ties
that number to the messages in the ring: each completion adds one to it, whichever message
completes. What holds the order together is that only the message with the number is ever
completed in its turn, so that the ring has the numbers from `next_tx_seq_num` up to the next
one to be given out, without a gap. A flush with a limit takes messages from the tail of a
ring that rotates, and may leave a gap.

`Effect` says what a step may do to the numbers: it takes some messages off the tail of the
ring, counts those of each destination, and leaves the others alone.
-/

namespace Uet.Ses

open List Function

variable {n m : Nat} {s s' s'' : TxEp n m} {d e : Fin n} {x : Option (Fin n)}

/-! ## Numbers of the messages in the ring -/

def TxDesc.rodFor (a : Nat) (v : TxDesc) : Bool := v.pdsMode == .rod && !v.op.forPeer && v.dst == a

/-- The numbers of the messages to `a` among some of the descriptors. -/
def TxEp.rodSeqs (s : TxEp n m) (a : Nat) (l : List (Fin n)) : List Nat :=
  (l.filter fun d => (s.desc d).rodFor a).map fun d => (s.desc d).seqNum

def TxDesc.PeerOk (v : TxDesc) : Prop :=
  v.op.forPeer = true → v.seqNum = 0 ∧ v.state ≠ .retx ∧ v.state ≠ .defer ∧ v.state ≠ .restartWait

/-- The ring has the numbers from `next_tx_seq_num` to the next one given out. -/
structure RodInv (s : TxEp n m) : Prop where
  seqs : ∀ a, (s.rodSeqs a s.ring.entries).Perm
    (List.range' (s.av a).nextTxSeqNum (s.rodSeqs a s.ring.entries).length)
  total : ∀ a, (s.av a).nextTxSeqNum + (s.rodSeqs a s.ring.entries).length = (s.av a).seqNum
  peer : ∀ d, (s.desc d).PeerOk

variable {a : Nat} {l : List (Fin n)} {v v' : TxDesc} {k : Nat} {s1 : TxEp n m} {as : List (Fin n)} (now : Nat)

theorem mem_rodSeqs (hd : d ∈ l) (hrod : (s.desc d).rodFor a = true) : (s.desc d).seqNum ∈ s.rodSeqs a l :=
  mem_map.2 ⟨d, mem_filter.2 ⟨hd, hrod⟩, rfl⟩

theorem RodInv.next_le (h : RodInv s) (hd : d ∈ s.ring.entries) (hrod : (s.desc d).rodFor a = true) :
    (s.av a).nextTxSeqNum ≤ (s.desc d).seqNum := by
  have := (h.seqs a).mem_iff.1 (mem_rodSeqs hd hrod)
  exact (mem_range'_1.1 this).1

theorem RodInv.next_mem (h : RodInv s) (hd : d ∈ s.ring.entries) (hrod : (s.desc d).rodFor a = true) :
    ∃ e ∈ s.ring.entries, (s.desc e).rodFor a = true ∧ (s.desc e).seqNum = (s.av a).nextTxSeqNum := by
  have hlen : 0 < (s.rodSeqs a s.ring.entries).length := length_pos_of_mem (mem_rodSeqs hd hrod)
  have hmem : (s.av a).nextTxSeqNum ∈ s.rodSeqs a s.ring.entries :=
    (h.seqs a).mem_iff.2 (mem_range'_1.2 ⟨le_rfl, by omega⟩)
  obtain ⟨e, he, hseq⟩ := mem_map.1 hmem
  obtain ⟨he, hr⟩ := mem_filter.1 he
  exact ⟨e, he, hr, hseq⟩

/-! ## What a step does to the numbers -/

structure SameKey (v v' : TxDesc) : Prop where
  op : v'.op = v.op
  pdsMode : v'.pdsMode = v.pdsMode
  dst : v'.dst = v.dst
  seqNum : v'.seqNum = v.seqNum

theorem SameKey.refl (v : TxDesc) : SameKey v v := ⟨rfl, rfl, rfl, rfl⟩

theorem SameKey.trans {v'' : TxDesc} (h : SameKey v v') (h' : SameKey v' v'') : SameKey v v'' :=
  ⟨h'.op.trans h.op, h'.pdsMode.trans h.pdsMode, h'.dst.trans h.dst, h'.seqNum.trans h.seqNum⟩

theorem SameKey.rodFor (h : SameKey v v') (a : Nat) : v'.rodFor a = v.rodFor a := by
  unfold TxDesc.rodFor
  rw [h.pdsMode, h.dst, h.op]

/-- `k` messages go from the tail of the ring, each counted for its destination; no packet is
handed on but for `x`. -/
structure Effect (k : Nat) (x : Option (Fin n)) (s s' : TxEp n m) : Prop where
  ring : s'.ring.entries = s.ring.entries.drop k
  seqNum : ∀ a, (s'.av a).seqNum = (s.av a).seqNum
  next : ∀ a, (s'.av a).nextTxSeqNum =
    (s.av a).nextTxSeqNum + (s.rodSeqs a (s.ring.entries.take k)).length
  key : ∀ d ∈ s.ring.entries.drop k, SameKey (s.desc d) (s'.desc d)
  peer : (∀ d, (s.desc d).PeerOk) → ∀ d, (s'.desc d).PeerOk
  pds : ∀ h, x ≠ some h.desc → s'.pds.count h ≤ s.pds.count h

theorem rodSeqs_congr (h : ∀ d ∈ l, SameKey (s.desc d) (s'.desc d)) : s'.rodSeqs a l = s.rodSeqs a l := by
  unfold TxEp.rodSeqs
  have hfilter : l.filter (fun d => (s'.desc d).rodFor a) = l.filter (fun d => (s.desc d).rodFor a) :=
    filter_congr fun d hd => (h d hd).rodFor a
  rw [hfilter]
  exact map_congr_left fun d hd => (h d (mem_filter.1 hd).1).seqNum

theorem rodSeqs_append (a : Nat) (l l' : List (Fin n)) :
    s.rodSeqs a (l ++ l') = s.rodSeqs a l ++ s.rodSeqs a l' := by
  simp only [TxEp.rodSeqs, filter_append, map_append]

theorem Effect.refl (x : Option (Fin n)) (s : TxEp n m) : Effect 0 x s s :=
  ⟨rfl, fun _ => rfl, fun _ => rfl, fun _ _ => .refl _, fun h => h, fun _ _ => le_rfl⟩

theorem Effect.trans {j : Nat} (h : Effect j x s s') (h' : Effect k x s' s'') : Effect (j + k) x s s'' := by
  have hdrop : s.ring.entries.drop (j + k) = s'.ring.entries.drop k := by rw [h.ring, drop_drop]
  refine ⟨h'.ring.trans hdrop.symm, fun a => (h'.seqNum a).trans (h.seqNum a), fun a => ?_,
    fun d hd => ?_, fun hp => h'.peer (h.peer hp), fun p hp => (h'.pds p hp).trans (h.pds p hp)⟩
  · have hsame : s'.rodSeqs a (s'.ring.entries.take k) = s.rodSeqs a (s'.ring.entries.take k) :=
      rodSeqs_congr fun d hd => h.key d (h.ring ▸ mem_of_mem_take hd)
    rw [h'.next, h.next, hsame, take_add, ← h.ring, rodSeqs_append, length_append, Nat.add_assoc]
  · have hd' : d ∈ s'.ring.entries.drop k := hdrop ▸ hd
    exact (h.key d (h.ring ▸ mem_of_mem_drop hd')).trans (h'.key d hd')

def CutOk (k : Nat) (s : TxEp n m) : Prop :=
  ∀ d ∈ s.ring.entries.take k, ∀ e ∈ s.ring.entries.drop k,
    (s.desc d).rodFor (s.desc e).dst = true → (s.desc e).rodFor (s.desc e).dst = true →
      (s.desc d).seqNum < (s.desc e).seqNum

instance (k : Nat) (s : TxEp n m) : Decidable (CutOk k s) :=
  @decidableBAll _ _ (fun _ => decidableBAll _ _) _

theorem TxDesc.rodFor_iff : v.rodFor a = true ↔ v.pdsMode = .rod ∧ v.op.forPeer = false ∧ v.dst = a := by
  simp only [TxDesc.rodFor, Bool.and_eq_true, beq_iff_eq, Bool.not_eq_true', and_assoc]

theorem perm_range'_split {l l' : List Nat} (h : (l ++ l').Perm (List.range' a (l ++ l').length))
    (hlt : ∀ i ∈ l, ∀ j ∈ l', i < j) : l'.Perm (List.range' (a + l.length) l'.length) := by
  have hsorted : (l.mergeSort ++ l'.mergeSort).Pairwise (· ≤ ·) := by
    refine pairwise_append.2 ⟨pairwise_mergeSort' _ l, pairwise_mergeSort' _ l', fun i hi j hj => ?_⟩
    exact le_of_lt (hlt i (mem_mergeSort.1 hi) j (mem_mergeSort.1 hj))
  have hperm : (l.mergeSort ++ l'.mergeSort).Perm (range' a (l ++ l').length) :=
    ((mergeSort_perm l _).append (mergeSort_perm l' _)).trans h
  have heq := hperm.eq_of_pairwise' hsorted (pairwise_le_range' _)
  rw [length_append, ← range'_append_1] at heq
  have hdrop := (List.append_inj heq (by simp)).2
  rw [← hdrop]
  exact (mergeSort_perm l' _).symm

theorem RodInv.effect (h : RodInv s) (he : Effect k x s s') (hcut : CutOk k s) : RodInv s' := by
  have hrest : ∀ a, s'.rodSeqs a s'.ring.entries = s.rodSeqs a (s.ring.entries.drop k) := by
    intro a
    rw [he.ring]
    exact rodSeqs_congr he.key
  have hall : ∀ a, s.rodSeqs a s.ring.entries =
      s.rodSeqs a (s.ring.entries.take k) ++ s.rodSeqs a (s.ring.entries.drop k) := by
    intro a
    rw [← rodSeqs_append, take_append_drop]
  refine ⟨fun a => ?_, fun a => ?_, he.peer h.peer⟩
  · have hp := h.seqs a
    rw [hall a] at hp
    rw [hrest, he.next]
    refine perm_range'_split hp ?_
    simp only [TxEp.rodSeqs, mem_map, mem_filter]
    rintro _ ⟨d, ⟨hd, hrd⟩, rfl⟩ _ ⟨e, ⟨he, hre⟩, rfl⟩
    obtain rfl : (s.desc e).dst = a := (TxDesc.rodFor_iff.1 hre).2.2
    exact hcut d hd e he hrd hre
  · have ht := h.total a
    rw [hall a, length_append] at ht
    rw [hrest, he.next, he.seqNum]
    omega

def TxState.onceOnly : TxState → Bool
  | .retx | .defer | .restartWait => false
  | _ => true

/-- A change of a descriptor that leaves its number; a message comes to be sent again only if it
is not for a peer. -/
structure KeepsKey (v v' : TxDesc) : Prop where
  key : SameKey v v'
  state : v'.state = v.state ∨ v'.state.onceOnly = true ∨ v.op.forPeer = false

theorem KeepsKey.refl (v : TxDesc) : KeepsKey v v := ⟨.refl v, .inl rfl⟩

theorem KeepsKey.peer (h : KeepsKey v v') (hp : v.PeerOk) : v'.PeerOk := by
  intro hpeer
  rw [h.key.op] at hpeer
  obtain ⟨hseq, hst⟩ := hp hpeer
  refine ⟨h.key.seqNum.trans hseq, ?_⟩
  rcases h.state with hs | hs | hs
  · rw [hs]
    exact hst
  · refine ⟨fun h => ?_, fun h => ?_, fun h => ?_⟩ <;>
      (rw [h] at hs; cases hs)
  · rw [hpeer] at hs
    cases hs

theorem Effect.descs (hring : s'.ring = s.ring) (hav : s'.av = s.av)
    (hdesc : ∀ e, KeepsKey (s.desc e) (s'.desc e))
    (hpds : ∀ h, x ≠ some h.desc → s'.pds.count h ≤ s.pds.count h) : Effect 0 x s s' := by
  refine ⟨by rw [hring]; rfl, fun a => by rw [hav], fun a => by rw [hav]; rfl,
    fun e _ => (hdesc e).key, fun hp e => (hdesc e).peer (hp e), hpds⟩

theorem Effect.set (hv : KeepsKey (s.desc d) v) : Effect 0 x s (s.setDesc d v) := by
  refine .descs rfl rfl (fun e => ?_) (fun _ _ => le_rfl)
  rcases eq_or_ne e d with rfl | he
  · rw [setDesc_self]
    exact hv
  · rw [setDesc_of_ne v he]
    exact .refl _

theorem Effect.mod {f : TxDesc → TxDesc} (hf : KeepsKey (s.desc d) (f (s.desc d))) :
    Effect 0 x s (s.modDesc d f) := .set hf

theorem Effect.frame (hring : s'.ring = s.ring) (hav : s'.av = s.av) (hdesc : s'.desc = s.desc)
    (hpds : s'.pds = s.pds) : Effect 0 x s s' :=
  .descs hring hav (fun _ => hdesc ▸ .refl _) (fun _ _ => hpds ▸ le_rfl)

theorem Effect.first (h : Effect 0 x s s') (h' : Effect k x s' s'') : Effect k x s s'' := by
  have := h.trans h'
  rwa [Nat.zero_add] at this

theorem Effect.after (h : Effect k x s s') (hring : s''.ring = s'.ring) (hav : s''.av = s'.av)
    (hdesc : s''.desc = s'.desc) (hpds : s''.pds = s'.pds) : Effect k x s s'' := h.trans (.frame hring hav hdesc hpds)

theorem trackPkts_effect (k : Nat) : Effect 0 (some d) s (trackPkts d k s) := by
  unfold trackPkts
  split_ifs
  · exact .refl _ s
  refine .descs rfl rfl (fun _ => .refl _) fun h hx => ?_
  have hne : h ≠ ⟨d, (s.desc d).msgNo⟩ := fun heq => hx (by rw [heq])
  rw [count_append, count_replicate, if_neg (by simpa using hne.symm), Nat.add_zero]

theorem txMsgLoop_key (cfg : TxCfg) (mrs : Nat → Region) (mem : Mem) (ts : List TxTry) (v : TxDesc) :
    (txMsgLoop cfg mrs mem ts v).1.dst = v.dst ∧ (txMsgLoop cfg mrs mem ts v).1.seqNum = v.seqNum := by
  induction ts generalizing v with
  | nil => exact ⟨rfl, rfl⟩
  | cons t ts ih =>
    unfold txMsgLoop
    dsimp only
    split_ifs
    · exact ⟨rfl, rfl⟩
    cases txPayload mrs mem t.alloc v (min v.remaining cfg.maxPayloadLen) with
    | none => exact ⟨rfl, rfl⟩
    | some bytes =>
      cases t.rc with
      | ok => exact ih _
      | eagain => exact ⟨rfl, rfl⟩
      | fail err => exact ⟨rfl, rfl⟩

theorem txMsg_key (cfg : TxCfg) (mrs : Nat → Region) (mem : Mem) (c : TxCall) (v : TxDesc) :
    KeepsKey v (txMsg cfg mrs mem c v).1 := by
  have hsent := txMsg_sent cfg mrs mem c v
  have hkey : (txMsg cfg mrs mem c v).1.dst = v.dst ∧ (txMsg cfg mrs mem c v).1.seqNum = v.seqNum := by
    unfold txMsg
    split_ifs
    · rcases dsendInit_cases cfg c.token v with h | ⟨-, t, h⟩ <;> rw [h]
      · exact txMsgLoop_key cfg mrs mem c.tries v
      · exact txMsgLoop_key cfg mrs mem c.tries { v with dsend := true, localRtrToken := t }
    · exact txMsgLoop_key cfg mrs mem c.tries v
  refine ⟨⟨hsent.op, hsent.pdsMode, hkey.1, hkey.2⟩, ?_⟩
  rcases hsent.state with ⟨-, h⟩ | ⟨-, h⟩
  · exact .inr (.inl (by rw [h]; rfl))
  · exact .inl h

theorem txMsgAt_effect (env : TxEnv) (c : TxCall) : Effect 0 (some d) s (txMsgAt env c d s) := by
  unfold txMsgAt
  dsimp only
  have hset : Effect 0 (some d) s (s.setDesc d (txMsgOf env c d s).1) := .set (txMsg_key _ _ _ _ _)
  have htrack := hset.trans (trackPkts_effect (d := d) (txMsgOf env c d s).2.1.length)
  split_ifs
  · exact htrack.after rfl rfl rfl rfl
  · exact htrack

theorem retx_key (maxRetx : Option Nat) (now backoff : Nat) (delay : Bool) (v : TxDesc) :
    KeepsKey v (v.retx maxRetx now backoff delay).1 := by
  unfold TxDesc.retx
  dsimp only
  split <;> exact ⟨⟨rfl, rfl, rfl, rfl⟩, .inr (.inl rfl)⟩

theorem setTxSeqNum_effect (hnext : (s.desc d).pdsMode = .rod →
    (s.av (s.desc d).dst).nextTxSeqNum = (s.desc d).seqNum) : Effect 0 x s (setTxSeqNum d s) := by
  unfold setTxSeqNum
  split_ifs with hrod
  · have hmin : min (s.av (s.desc d).dst).nextTxSeqNum (s.desc d).seqNum =
        (s.av (s.desc d).dst).nextTxSeqNum := by rw [hnext hrod, Nat.min_self]
    rw [hmin]
    refine .frame rfl ?_ rfl rfl
    exact update_eq_self _ _
  · exact .refl _ s

theorem retxMsg_effect (backoff : Nat) (delay : Bool) (hnext : (s.desc d).pdsMode = .rod →
    (s.av (s.desc d).dst).nextTxSeqNum = (s.desc d).seqNum) : Effect 0 x s (retxMsg now backoff delay d s) := by
  have hkey := retx_key s.maxMsgRetransmits now backoff delay (s.desc d)
  unfold retxMsg
  split
  · rename_i v hv
    rw [hv] at hkey
    refine Effect.trans (.set hkey) (setTxSeqNum_effect ?_)
    rw [setDesc_self, hkey.key.pdsMode, hkey.key.dst, hkey.key.seqNum]
    exact hnext
  · rename_i v hv
    rw [hv] at hkey
    exact .set hkey

theorem txErrComplete_effect : Effect 0 x s (txErrComplete d s) := by
  unfold txErrComplete
  dsimp only
  split_ifs
  · have hfirst : Effect 0 x s { s with rdActive := s.rdActive.erase d } := .frame rfl rfl rfl rfl
    exact hfirst.first (.mod ⟨⟨rfl, rfl, rfl, rfl⟩, .inr (.inl rfl)⟩)
  · exact .mod ⟨⟨rfl, rfl, rfl, rfl⟩, .inr (.inl rfl)⟩

/-- The turn of a message that is not passed over: a message to a destination has its next
number. -/
def InTurn (d : Fin n) (s : TxEp n m) : Prop :=
  (s.desc d).op.forPeer = false → (s.desc d).pdsMode = .rod →
    (s.av (s.desc d).dst).nextTxSeqNum = (s.desc d).seqNum

theorem inTurn_of_not_blocked (h : rodBlocked d s = false) : InTurn d s := by
  intro hpeer hrod
  unfold rodBlocked at h
  have hop : ((s.desc d).op != .readRsp) = true := by
    cases hop : (s.desc d).op <;> rw [hop] at hpeer <;> first | rfl | cases hpeer
  rw [hrod, hop] at h
  simpa using h

theorem txStateTransition_effect (backoff : Nat) (hp : (s.desc d).PeerOk) (ht : InTurn d s) :
    Effect 0 x s (txStateTransition now backoff d s) := by
  have hsent : ∀ st, (s.desc d).state = st → st.onceOnly = false → (s.desc d).op.forPeer = false := by
    intro st hst hf
    by_contra hpeer
    obtain ⟨-, h1, h2, h3⟩ := hp (by simpa using hpeer)
    rw [hst] at h1 h2 h3
    cases st <;> first | exact absurd rfl h1 | exact absurd rfl h2 | exact absurd rfl h3 | cases hf
  have hstate : ∀ st : TxState, st.onceOnly = true →
      Effect 0 x s (s.modDesc d fun v => { v with state := st }) :=
    fun st hst => .mod ⟨⟨rfl, rfl, rfl, rfl⟩, .inr (.inl hst)⟩
  unfold txStateTransition
  dsimp only
  split
  · split_ifs
    · exact .refl _ s
    · exact hstate .wait rfl
    · exact hstate .complete rfl
  · split_ifs
    · exact .refl _ s
    · exact hstate .complete rfl
  · rename_i hst
    split_ifs
    · exact .refl _ s
    · exact retxMsg_effect _ _ _ (ht (hsent _ hst rfl))
  · rename_i hst
    split_ifs
    · exact .refl _ s
    · exact .mod ⟨⟨rfl, rfl, rfl, rfl⟩, .inr (.inr (hsent _ hst rfl))⟩
  · rename_i hst
    split_ifs
    · exact .refl _ s
    have hfirst : Effect 0 x s (s.modDesc d fun v => { v with gotRtr := false }) :=
      .mod ⟨⟨rfl, rfl, rfl, rfl⟩, .inl rfl⟩
    refine hfirst.first (retxMsg_effect _ _ _ ?_)
    rw [modDesc_self]
    exact ht (hsent _ hst rfl)
  · split_ifs
    · exact .refl _ s
    · exact txErrComplete_effect
  · exact .refl _ s

theorem pktCnt_effect (d : Fin n) : Effect 0 x s (s.modDesc d fun v => { v with pktCnt := v.pktCnt + 1 }) :=
  .mod ⟨⟨rfl, rfl, rfl, rfl⟩, .inl rfl⟩

theorem txCancel_effect (rc : TxRc) : Effect 0 (some d) s (txCancel rc d s) := by
  unfold txCancel
  split_ifs
  · exact .mod ⟨⟨rfl, rfl, rfl, rfl⟩, .inl rfl⟩
  refine Effect.first (pktCnt_effect d) ?_
  cases rc with
  | ok =>
    refine Effect.first ?_ (trackPkts_effect 1)
    exact .mod ⟨⟨rfl, rfl, rfl, rfl⟩, .inl rfl⟩
  | eagain => exact .refl _ _
  | fail err => exact .mod ⟨⟨rfl, rfl, rfl, rfl⟩, .inr (.inl rfl)⟩

theorem txRtr_effect (rc : TxRc) : Effect 0 (some d) s (txRtr rc d s) := by
  unfold txRtr
  refine Effect.first (pktCnt_effect d) ?_
  cases rc with
  | ok =>
    refine Effect.first ?_ (trackPkts_effect 1)
    exact .mod ⟨⟨rfl, rfl, rfl, rfl⟩, .inr (.inl rfl)⟩
  | eagain => exact .refl _ _
  | fail err => exact .mod ⟨⟨rfl, rfl, rfl, rfl⟩, .inr (.inl rfl)⟩

theorem txDescRecycle_rest (d : Fin n) (s : TxEp n m) :
    (txDescRecycle d false s).av = s.av ∧
      ((txDescRecycle d false s).desc d).pdsMode = (s.desc d).pdsMode ∧
      ((txDescRecycle d false s).desc d).dst = (s.desc d).dst ∧
      ((txDescRecycle d false s).desc d).seqNum = (s.desc d).seqNum := by
  obtain ⟨rdActive, rdMsgId, hout⟩ := txRingRemove_out d s
  simp only [txDescRecycle, hout, Bool.false_eq_true, if_false, deallocTxRtrToken, deferListRemove]
  split_ifs <;> refine ⟨rfl, ?_⟩ <;> simp [TxEp.modDesc, TxEp.setDesc]

structure Completes (d : Fin n) (s s' : TxEp n m) : Prop where
  effect : Effect 1 none s s'
  pdsMode : (s'.desc d).pdsMode = (s.desc d).pdsMode
  dst : (s'.desc d).dst = (s.desc d).dst
  seqNum : (s'.desc d).seqNum = (s.desc d).seqNum

theorem incNextTxSeqNum_av (a : Nat) :
    ((incNextTxSeqNum d s).av a).seqNum = (s.av a).seqNum ∧
      ((incNextTxSeqNum d s).av a).nextTxSeqNum = (s.av a).nextTxSeqNum +
        if (s.desc d).pdsMode = .rod ∧ (s.desc d).dst = a then 1 else 0 := by
  unfold incNextTxSeqNum
  split_ifs with h1 h2 h2
  · obtain ⟨-, rfl⟩ := h2
    simp
  · have hne : a ≠ (s.desc d).dst := fun heq => h2 ⟨h1, heq.symm⟩
    simp [update_of_ne hne]
  · exact absurd h2.1 h1
  · exact ⟨rfl, rfl⟩

theorem recycled_completes {s2 : TxEp n m} (hr : s.ring.entries = d :: as) (hring1 : s1.ring = s.ring)
    (hdesc1 : s1.desc = s.desc) (hpds1 : s1.pds = s.pds)
    (hav1 : ∀ a, (s1.av a).seqNum = (s.av a).seqNum ∧ (s1.av a).nextTxSeqNum =
      (s.av a).nextTxSeqNum + if (s.desc d).rodFor a then 1 else 0) (hd : d ∉ as) (hout : Recycled d s1 s2)
    (hrest : s2.av = s1.av ∧
      (s2.desc d).pdsMode = (s1.desc d).pdsMode ∧ (s2.desc d).dst = (s1.desc d).dst ∧
      (s2.desc d).seqNum = (s1.desc d).seqNum) : Completes d s s2 := by
  obtain ⟨hav, hmode, hdst, hseq⟩ := hrest
  rw [hdesc1] at hmode hdst hseq
  have hkey : ∀ e, e ≠ d → s2.desc e = s.desc e := fun e he => (hout.others e he).trans (by rw [hdesc1])
  refine ⟨⟨?_, fun a => ?_, fun a => ?_, fun e he => ?_, fun hp e => ?_, fun h _ => ?_⟩, hmode, hdst, hseq⟩
  · rw [hout.ring, hring1, (RingBuf.entries_tailAdvance hr).2, hr]
    rfl
  · rw [hav]
    exact (hav1 a).1
  · rw [hav, (hav1 a).2, hr]
    cases hrod : (s.desc d).rodFor a <;> simp [TxEp.rodSeqs, hrod]
  · rw [hr] at he
    have hne : e ≠ d := by
      rintro rfl
      exact hd he
    rw [hkey e hne]
    exact .refl _
  · rcases eq_or_ne e d with rfl | hne
    · have hop : (s2.desc e).op = (s.desc e).op := hout.op.trans (by rw [hdesc1])
      have hst : (s2.desc e).state = (s.desc e).state := hout.acct.state.trans (by rw [hdesc1])
      exact (KeepsKey.mk ⟨hop, hmode, hdst, hseq⟩ (.inl hst)).peer (hp e)
    · rw [hkey e hne]
      exact hp e
  · rw [hout.pds, hpds1]

theorem release_peerOk (v : TxDesc) : v.release.PeerOk := by
  intro hpeer
  simp only [TxDesc.release] at hpeer
  cases hop : v.op with
  | rtr b => cases b <;> rw [hop] at hpeer <;> cases hpeer
  | _ => rw [hop] at hpeer; cases hpeer

theorem Completes.listInsert (h : Completes d s s') (hd : d ∉ s'.ring.entries) :
    Completes d s (txListInsert d s') := by
  have hkey : ∀ e, e ≠ d → (txListInsert d s').desc e = s'.desc e := fun e he => modDesc_of_ne _ he
  have hself : (txListInsert d s').desc d = (s'.desc d).release := modDesc_self _
  refine ⟨⟨h.effect.ring, h.effect.seqNum, h.effect.next, fun e he => ?_, fun hp e => ?_, h.effect.pds⟩,
    ?_, ?_, ?_⟩
  · have hne : e ≠ d := by
      rintro rfl
      exact hd (h.effect.ring ▸ he)
    rw [hkey e hne]
    exact h.effect.key e he
  · rcases eq_or_ne e d with rfl | hne
    · rw [hself]
      exact release_peerOk _
    · rw [hkey e hne]
      exact h.effect.peer hp e
  · rw [hself]
    exact h.pdsMode
  · rw [hself]
    exact h.dst
  · rw [hself]
    exact h.seqNum

theorem txDescRecycle_completes (s1 : TxEp n m) (hr : s.ring.entries = d :: as) (hd : d ∉ as)
    (hs1 : s1 = if (s.desc d).op.forPeer then s else incNextTxSeqNum d s) :
    Completes d s (txDescRecycle d false s1) := by
  have hout := txDescRecycle_out d s1
  have hrest := txDescRecycle_rest d s1
  have hinc := incNextTxSeqNum_beside d s
  cases hpeer : (s.desc d).op.forPeer with
  | true =>
    rw [hpeer, if_pos rfl] at hs1
    subst hs1
    refine recycled_completes hr rfl rfl rfl (fun a => ⟨rfl, ?_⟩) hd hout hrest
    simp [TxDesc.rodFor, hpeer]
  | false =>
    rw [hpeer, if_neg Bool.false_ne_true] at hs1
    subst hs1
    refine recycled_completes hr hinc.ring hinc.desc hinc.pds (fun a => ?_) hd hout hrest
    obtain ⟨h1, h2⟩ := incNextTxSeqNum_av (s := s) (d := d) a
    refine ⟨h1, h2.trans ?_⟩
    simp [TxDesc.rodFor, hpeer]

theorem txDescRecycle_true (s : TxEp n m) :
    txDescRecycle d true s = txListInsert d (txDescRecycle d false s) := by simp [txDescRecycle]

theorem Completes.setCq (h : Completes d s s') (cq : RingBuf (TxCqEntry n) m) :
    Completes d s { s' with cq } :=
  ⟨h.effect.after rfl rfl rfl rfl, h.pdsMode, h.dst, h.seqNum⟩

section

variable (h : Placed none s) (hr : s.ring.entries = d :: as)
include h hr

theorem Placed.not_mem_tail : d ∉ as := by
  have := h.ring_nodup
  rw [hr] at this
  exact (nodup_cons.1 this).1

theorem txCqPostErr_completes (err : Nat) : Completes d s (txCqPostErr d err s) := by
  have hd := h.not_mem_tail hr
  unfold txCqPostErr
  split_ifs with hpeer
  · have hc := txDescRecycle_completes s hr hd (by rw [if_pos hpeer])
    rw [txDescRecycle_true]
    refine hc.listInsert ?_
    rw [hc.effect.ring, hr]
    exact hd
  · exact (txDescRecycle_completes _ hr hd (by rw [if_neg hpeer])).setCq _

theorem txCqPostEntry_completes : Completes d s (txCqPostEntry d s) := by
  have hd := h.not_mem_tail hr
  have hfree : ∀ s1, Completes d s (txDescRecycle d false s1) → Completes d s (txDescRecycle d true s1) := by
    intro s1 hc
    rw [txDescRecycle_true]
    refine hc.listInsert ?_
    rw [hc.effect.ring, hr]
    exact hd
  unfold txCqPostEntry
  split_ifs with hpeer
  · exact hfree _ (txDescRecycle_completes _ hr hd (by rw [if_pos hpeer]))
  have hc := txDescRecycle_completes (incNextTxSeqNum d s) hr hd (by rw [if_neg hpeer])
  dsimp only
  split_ifs
  · exact hc.setCq _
  · exact hfree _ hc

end

structure TurnEffect (d : Fin n) (s s' : TxEp n m) : Prop where
  inv : RodInv s → RodInv s'
  key : (s'.desc d).pdsMode = (s.desc d).pdsMode ∧ (s'.desc d).dst = (s.desc d).dst ∧
    (s'.desc d).seqNum = (s.desc d).seqNum
  pds : ∀ h, h.desc ≠ d ∨ rodBlocked d s = true → s'.pds.count h ≤ s.pds.count h

theorem rodSeqs_perm {l' : List (Fin n)} (h : l.Perm l') : (s.rodSeqs a l).Perm (s.rodSeqs a l') := (h.filter _).map _

theorem RodInv.rotate (h : RodInv s) (hr : s.ring.entries = d :: as) : RodInv (txRingRotate d s) := by
  have hp : ∀ a, ((txRingRotate d s).rodSeqs a (txRingRotate d s).ring.entries).Perm
      (s.rodSeqs a s.ring.entries) := by
    intro a
    refine rodSeqs_perm (s := s) ?_
    rw [txRingRotate, RingBuf.entries_rotate hr, hr]
    exact perm_append_singleton d as
  refine ⟨fun a => ?_, fun a => ?_, h.peer⟩
  · rw [(hp a).length_eq]
    exact (hp a).trans (h.seqs a)
  · rw [(hp a).length_eq]
    exact h.total a

theorem RodInv.cut_one (h : RodInv s) (hr : s.ring.entries = d :: as) (ht : InTurn d s) : CutOk 1 s := by
  rw [CutOk, hr]
  intro d' hd' e he hrd hre
  obtain rfl : d' = d := by simpa using hd'
  have he : e ∈ as := by simpa using he
  generalize (s.desc e).dst = a at hrd hre
  have hnext : (s.av a).nextTxSeqNum = (s.desc d').seqNum := by
    obtain ⟨h1, h2, rfl⟩ := TxDesc.rodFor_iff.1 hrd
    exact ht h2 h1
  have hle := h.next_le (d := e) (by rw [hr]; exact mem_cons_of_mem _ he) hre
  have hnodup : (s.rodSeqs a s.ring.entries).Nodup := (h.seqs a).nodup_iff.2 (nodup_range' ..)
  have hcons : s.rodSeqs a s.ring.entries = (s.desc d').seqNum :: s.rodSeqs a as := by
    rw [hr]
    simp [TxEp.rodSeqs, hrd]
  rw [hcons] at hnodup
  have hne : (s.desc e).seqNum ≠ (s.desc d').seqNum := fun heq =>
    (nodup_cons.1 hnodup).1 (heq ▸ mem_rodSeqs he hre)
  omega

theorem InTurn.effect (h : InTurn d s) (he : Effect 0 x s s') (hd : d ∈ s.ring.entries) : InTurn d s' := by
  have hkey := he.key d hd
  intro hpeer hrod
  rw [he.next, hkey.dst, hkey.seqNum]
  exact h (hkey.op ▸ hpeer) (hkey.pdsMode ▸ hrod)

theorem TurnEffect.rotate (hr : s.ring.entries = d :: as) (hb : rodBlocked d s = true → x = none)
    (hx : x = none ∨ x = some d) (he : Effect 0 x s s') : TurnEffect d s (txRingRotate d s') := by
  have hd : d ∈ s.ring.entries := by
    rw [hr]
    exact mem_cons_self
  have hr' : s'.ring.entries = d :: as := he.ring.trans hr
  have hkey := he.key d hd
  refine ⟨fun h => (h.effect he (fun e he => by cases he)).rotate hr',
    ⟨hkey.pdsMode, hkey.dst, hkey.seqNum⟩, fun p hp => he.pds p fun hxp => ?_⟩
  rcases hp with hp | hp
  · rcases hx with rfl | rfl
    · cases hxp
    · exact hp (Option.some.inj hxp).symm
  · rw [hb hp] at hxp
    cases hxp

theorem TurnEffect.complete (hr : s.ring.entries = d :: as) (ht : InTurn d s) (hb : rodBlocked d s = false)
    (he : Effect 0 (some d) s s') (hc : Completes d s' s'') : TurnEffect d s s'' := by
  have hd : d ∈ s.ring.entries := by
    rw [hr]
    exact mem_cons_self
  have hr' : s'.ring.entries = d :: as := he.ring.trans hr
  have hkey := he.key d hd
  refine ⟨fun h => ?_, ⟨hc.pdsMode.trans hkey.pdsMode, hc.dst.trans hkey.dst,
    hc.seqNum.trans hkey.seqNum⟩, fun p hp => ?_⟩
  · have h' := h.effect he (fun e he => by cases he)
    exact h'.effect hc.effect (h'.cut_one hr' (ht.effect he hd))
  · rcases hp with hp | hp
    · refine (hc.effect.pds p nofun).trans (he.pds p fun hxp => ?_)
      exact hp (Option.some.inj hxp).symm
    · rw [hb] at hp
      cases hp

theorem txAdvance_turn (h : Placed none s') (hr : s.ring.entries = d :: as) (ht : InTurn d s)
    (hb : rodBlocked d s = false) (he : Effect 0 (some d) s s') (env : TxEnv) (t : TxTurn) (prev : TxState) :
    TurnEffect d s (txAdvance env t prev d s') := by
  have hr' : s'.ring.entries = d :: as := he.ring.trans hr
  have hrot : ∀ s'', Effect 0 (some d) s s'' → TurnEffect d s (txRingRotate d s'') := fun _ he =>
    .rotate hr (fun hb' => by rw [hb] at hb'; cases hb') (.inr rfl) he
  unfold txAdvance
  split
  · split_ifs
    · unfold txActive
      dsimp only
      have hmsg := he.first (txMsgAt_effect env t.call)
      have hd : d ∈ s'.ring.entries := by
        rw [hr']
        exact mem_cons_self
      split
      · split_ifs
        · have hr'' : (txMsgAt env t.call d s').ring.entries = d :: as := hmsg.ring.trans hr
          exact .complete hr ht hb hmsg (txCqPostErr_completes (txMsgAt_placed h hd _ _) hr'' _)
        · exact hrot _ hmsg
      · exact hrot _ hmsg
    · exact hrot _ he
  · exact .complete hr ht hb he (txCqPostErr_completes h hr' _)
  · exact .complete hr ht hb he (txCqPostEntry_completes h hr')
  · exact hrot _ he

theorem txTurn_effect (h : Placed none s) (hp : (s.desc d).PeerOk) (hr : s.ring.entries = d :: as) (env : TxEnv)
    (t : TxTurn) : TurnEffect d s (txTurn env t d s) := by
  unfold txTurn
  split_ifs with h1 h2 h3
  · exact .rotate hr (fun _ => rfl) (.inl rfl) (.refl none s)
  all_goals
    have hb : rodBlocked d s = false := by
      simp only [Bool.or_eq_true, decide_eq_true_eq, not_or] at h1
      simpa using h1.1
    have hno : ∀ {x : Option (Fin n)}, rodBlocked d s = true → x = none := fun hb' => by
      rw [hb] at hb'
      cases hb'
  · exact .rotate hr hno (.inr rfl) (txCancel_effect t.rc)
  · exact .rotate hr hno (.inr rfl) (txRtr_effect t.rc)
  · have ht := inTurn_of_not_blocked hb
    have hs := txStateTransition_stays (s := s) (d := d) env.now t.backoff
    exact txAdvance_turn (h.stays hs) hr ht hb (txStateTransition_effect _ _ hp ht) _ _ _

theorem Effect.empty (k : Nat) (hr : s.ring.entries = []) : Effect k x s s := by
  have h := Effect.refl x s
  refine ⟨by rw [hr, drop_nil], h.seqNum, fun a => ?_, fun _ _ => .refl _, h.peer, h.pds⟩
  rw [hr, take_nil]
  rfl

theorem flushOne_effect (h : Placed none s) (hr : s.ring.entries = d :: as) : Effect 1 none s (flushOne d s) := by
  unfold flushOne
  have hpds : Effect 0 none s { s with pds := s.pds.filter (·.desc != d) } :=
    .descs rfl rfl (fun _ => .refl _) fun p _ => filter_sublist.count_le p
  have hmod := hpds.first (Effect.mod (d := d)
    (f := fun v => ({ v with cancelPending := false, unackPkts := 0 }).setErr fiEcanceled .errComplete)
    ⟨⟨rfl, rfl, rfl, rfl⟩, .inr (.inl rfl)⟩)
  exact hmod.first (txCqPostErr_completes (h.stays (flushed_stays d s)) (hmod.ring.trans hr) _).effect

theorem epFlush_effect (hcq : n ≤ m) (k : Nat) (h : Placed none s) : Effect k none s (epFlush k s) := by
  induction k generalizing s with
  | zero => exact .refl none s
  | succ k ih =>
    rw [epFlush]
    split_ifs with hc
    · exact .empty _ (eq_nil_of_length_eq_zero (s.ring.length_entries.trans hc))
    have hr := s.ring.entries_eq_cons (Nat.pos_of_ne_zero hc)
    have hone := (flushOne_effect h hr).trans (ih (flushOne_placed h hcq hr))
    rwa [Nat.add_comm] at hone

theorem dsendMsgAge_effect (hcq : n ≤ m) (now : Nat) (h : Placed none s)
    (haged : s.deferList.takeWhile (dsendAged now s) <+: s.ring.entries) :
    Effect (s.deferList.takeWhile (dsendAged now s)).length none s (dsendMsgAge now s) := by
  refine dsendMsgAgeLoop_rec (M := fun s l s' => Effect l.length none s s') hcq (fun s _ => .refl none s)
    (fun s d l as s' h hr _ _ ih => ?_) h le_rfl haged
  rw [length_cons, Nat.add_comm]
  exact (txCqPostErr_completes h hr fiEio).effect.trans ih

theorem Placed.not_ring (h : Placed none s)
    (hd : d ∈ s.free ∨ d ∈ s.bufRtr ∨ d ∈ s.bufTagRtr ∨ d ∈ s.cqDescs) : d ∉ s.ring.entries := by
  have hone := h.once d
  rw [if_neg nofun, TxEp.places] at hone
  simp only [← count_pos_iff] at hd ⊢
  omega

theorem Effect.off (hd : d ∉ s.ring.entries) (hring : s'.ring = s.ring) (hav : s'.av = s.av)
    (hdesc : ∀ e, e ≠ d → s'.desc e = s.desc e) (hp : (s.desc d).PeerOk → (s'.desc d).PeerOk)
    (hpds : s'.pds = s.pds) : Effect 0 x s s' := by
  refine ⟨by rw [hring]; rfl, fun a => by rw [hav], fun a => by rw [hav]; rfl, fun e he => ?_,
    fun hall e => ?_, fun _ _ => hpds ▸ le_rfl⟩
  · have hne : e ≠ d := by
      rintro rfl
      exact hd he
    rw [hdesc e hne]
    exact .refl _
  · rcases eq_or_ne e d with rfl | hne
    · exact hp (hall e)
    · rw [hdesc e hne]
      exact hall e

theorem txListInsert_effect (hd : d ∉ s.ring.entries) : Effect 0 x s (txListInsert d s) := by
  refine .off hd rfl rfl (fun e he => modDesc_of_ne _ he) (fun _ => ?_) rfl
  have hself : (txListInsert d s).desc d = (s.desc d).release := modDesc_self _
  rw [hself]
  exact release_peerOk _

theorem bufRtrListRemove_frame (d : Fin n) (s : TxEp n m) :
    (bufRtrListRemove d s).ring = s.ring ∧ (bufRtrListRemove d s).av = s.av ∧
      (bufRtrListRemove d s).desc = s.desc ∧ (bufRtrListRemove d s).pds = s.pds := by
  unfold bufRtrListRemove
  split_ifs <;> exact ⟨rfl, rfl, rfl, rfl⟩

theorem rtrMsgDrop_effect (h : Placed none s) (hd : d ∈ s.bufRtr ∨ d ∈ s.bufTagRtr) :
    Effect 0 none s (rtrMsgDrop d s) := by
  have hring : d ∉ s.ring.entries :=
    h.not_ring (hd.elim (fun h => .inr (.inl h)) fun h => .inr (.inr (.inl h)))
  obtain ⟨h1, h2, h3, h4⟩ := bufRtrListRemove_frame d s
  have hbuf : Effect 0 none s (deallocMsgId (s.desc d).msgId (bufRtrListRemove d s)) := .frame h1 h2 h3 h4
  refine hbuf.first (txListInsert_effect ?_)
  rw [hbuf.ring]
  exact hring

theorem rtrMsgAgeLoop_effect (k : Nat) {list : TxEp n m → List (Fin n)}
    (hlist : ∀ s d, d ∈ list s → d ∈ s.bufRtr ∨ d ∈ s.bufTagRtr) (h : Placed none s) :
    Effect 0 none s (rtrMsgAgeLoop now list k s) :=
  (rtrMsgAgeLoop_keep (P := fun s' => Placed none s' ∧ Effect 0 none s s') now (fun s' d hs hd =>
    ⟨rtrMsgDrop_placed hs.1 (hlist s' d hd), hs.2.first (rtrMsgDrop_effect hs.1 (hlist s' d hd))⟩) k
    ⟨h, .refl none s⟩).2

theorem txCqReadEntry_effect (h : Placed none s) (hc : 0 < s.cq.cnt) : Effect 0 none s (txCqReadEntry s) := by
  have hent := s.cq.entries_eq_cons hc
  unfold txCqReadEntry
  cases hd : s.cq.atTail.desc with
  | none => exact .frame rfl rfl rfl rfl
  | some d =>
    have hmem : d ∈ s.cqDescs := mem_filterMap.2 ⟨s.cq.atTail, by rw [hent]; exact mem_cons_self, hd⟩
    have hcq : Effect 0 none s { s with cq := s.cq.tailAdvance } := .frame rfl rfl rfl rfl
    exact hcq.first (txListInsert_effect (h.not_ring (.inr (.inr (.inr hmem)))))

theorem txCqRead_effect (k : Nat) (h : Placed none s) : Effect 0 none s (txCqRead k s) :=
  (txCqRead_keep (P := fun s' => Placed none s' ∧ Effect 0 none s s') (fun _ hs hc =>
    ⟨txCqReadEntry_placed hs.1 hc, hs.2.first (txCqReadEntry_effect hs.1 hc)⟩) k ⟨h, .refl none s⟩).2

theorem txCqReaderr_effect (h : Placed none s) (he : s.cq.cnt = 0 → s.cq.atTail.err = false) :
    Effect 0 none s (txCqReaderr s) := by
  unfold txCqReaderr
  split_ifs with herr
  · refine txCqReadEntry_effect h (Nat.pos_of_ne_zero fun hc => ?_)
    rw [he hc] at herr
    cases herr
  · exact .refl none s

theorem untrack_effect (i : Nat) : Effect 0 x s (s.untrack i) :=
  .descs rfl rfl (fun _ => .refl _) fun h _ => (eraseIdx_sublist _ i).count_le h

theorem setGen_effect (r : SesRsp) : Effect 0 x s (setGen d r s) := by
  have hav : ∀ a, ((setGen d r s).av a).seqNum = (s.av a).seqNum ∧
      ((setGen d r s).av a).nextTxSeqNum = (s.av a).nextTxSeqNum := by
    intro a
    unfold setGen
    split_ifs
    · exact ⟨rfl, rfl⟩
    all_goals
      rcases eq_or_ne a (s.desc d).dst with rfl | hne
      · simp
      · simp [update_of_ne hne]
  have hb := setGen_beside d r s
  refine ⟨by rw [hb.ring]; rfl, fun a => (hav a).1, fun a => (hav a).2,
    fun e _ => hb.desc ▸ .refl _, fun hp => hb.desc ▸ hp, fun h _ => hb.pds ▸ le_rfl⟩

theorem rspExit_key {a : RspAction} (h : a = .defer → v.op.forPeer = false) : KeepsKey v (v.rspExit a) := by
  cases a with
  | none => exact .refl v
  | defer => exact ⟨⟨rfl, rfl, rfl, rfl⟩, .inr (.inr (h rfl))⟩
  | err => exact ⟨⟨rfl, rfl, rfl, rfl⟩, .inr (.inl rfl)⟩
  | retx delay =>
    unfold TxDesc.rspExit
    dsimp only
    split_ifs with hpeer
    · exact ⟨⟨rfl, rfl, rfl, rfl⟩, .inr (.inl rfl)⟩
    · exact ⟨⟨rfl, rfl, rfl, rfl⟩, .inr (.inr (by simpa using hpeer))⟩

theorem pdsToSesRxRsp_effect (r : Option SesRsp) (hds : (s.desc d).dsend = true → (s.desc d).op.isSend = true) :
    Effect 0 none s (pdsToSesRxRsp now d r s) := by
  have hun : Effect 0 none s (s.modDesc d (·.uncount r)) := .mod ⟨⟨rfl, rfl, rfl, rfl⟩, .inl rfl⟩
  have hself : (s.modDesc d (·.uncount r)).desc d = (s.desc d).uncount r := modDesc_self _
  unfold pdsToSesRxRsp
  generalize s.modDesc d (·.uncount r) = s1 at hun hself ⊢
  cases r with
  | none => exact hun
  | some r =>
    dsimp only
    generalize ha : (s1.desc d).rspAction (s1.rdModLen d) r = a
    have hown : a = .defer → (s1.desc d).op.forPeer = false := by
      intro hd
      have hsend : (s1.desc d).op.isSend = true := by
        rw [hself]
        refine hds ?_
        have := rspAction_defer (ha.trans hd)
        rwa [hself] at this
      cases hop : (s1.desc d).op <;> rw [hop] at hsend <;> first | rfl | cases hsend
    have hgen : Effect 0 none s1 (if a = .retx false then setGen d r s1 else s1) := by
      split_ifs
      · exact setGen_effect r
      · exact .refl none s1
    have hdesc : (if a = .retx false then setGen d r s1 else s1).desc = s1.desc := by
      unfold setGen
      split_ifs <;> rfl
    generalize (if a = .retx false then setGen d r s1 else s1) = s2 at hgen hdesc ⊢
    have hdefer : Effect 0 none s2 (if a = .defer then deferListInsert now d s2 else s2) := by
      split_ifs
      · have hlist : Effect 0 none s2 { s2 with deferList := s2.deferList ++ [d] } := .frame rfl rfl rfl rfl
        exact hlist.first (.mod ⟨⟨rfl, rfl, rfl, rfl⟩, .inl rfl⟩)
      · exact .refl none s2
    have hop : ((if a = .defer then deferListInsert now d s2 else s2).desc d).op = (s1.desc d).op := by
      split_ifs
      · rw [deferListInsert, modDesc_self, hdesc]
      · rw [hdesc]
    generalize (if a = .defer then deferListInsert now d s2 else s2) = s3 at hdefer hop ⊢
    exact ((hun.first hgen).first hdefer).first (.mod (rspExit_key fun h => hop ▸ hown h))

theorem deferListRemove_effect : Effect 0 x s (deferListRemove d s) := by
  unfold deferListRemove
  split_ifs
  · have hlist : Effect 0 x s { s with deferList := s.deferList.erase d } := .frame rfl rfl rfl rfl
    exact hlist.first (.mod ⟨⟨rfl, rfl, rfl, rfl⟩, .inl rfl⟩)
  · exact .refl x s

theorem rxRtrReqPkt_effect (token : BitVec 16) (remote : BitVec 32) :
    Effect 0 none s (rxRtrReqPkt token remote s) := by
  unfold rxRtrReqPkt
  cases s.token token with
  | none => exact .refl none s
  | some d =>
    have h1 : Effect 0 none s (s.modDesc d fun v => { v with remoteRtrToken := remote }) :=
      .mod ⟨⟨rfl, rfl, rfl, rfl⟩, .inl rfl⟩
    have h2 := h1.first (deferListRemove_effect (d := d))
    dsimp only
    generalize deferListRemove d _ = s2 at h2 ⊢
    exact h2.first (.mod ⟨⟨rfl, rfl, rfl, rfl⟩, .inl rfl⟩)

theorem rdTimeout_effect : Effect 0 none s (rdTimeout d s) := by
  unfold rdTimeout
  split_ifs
  · have hlist : Effect 0 none s { s with rdActive := s.rdActive.erase d } := .frame rfl rfl rfl rfl
    exact hlist.first (.mod ⟨⟨rfl, rfl, rfl, rfl⟩, .inr (.inl rfl)⟩)
  · exact .refl none s

theorem rdRspData_effect (msgId : BitVec 16) : Effect 0 none s (rdRspData msgId s) := by
  unfold rdRspData
  split
  · exact .refl none s
  · exact .mod ⟨⟨rfl, rfl, rfl, rfl⟩, .inl rfl⟩

theorem RodInv.insert (h : RodInv s) (hd : d ∉ s.ring.entries)
    (hring : s'.ring.entries = s.ring.entries ++ [d]) (hdesc : ∀ e, e ≠ d → s'.desc e = s.desc e)
    (hp : (s'.desc d).PeerOk)
    (hav : ∀ a, (s'.av a).nextTxSeqNum = (s.av a).nextTxSeqNum ∧
      (s'.av a).seqNum = (s.av a).seqNum + if (s'.desc d).rodFor a then 1 else 0)
    (hseq : ∀ a, (s'.desc d).rodFor a = true → (s'.desc d).seqNum = (s.av a).seqNum) : RodInv s' := by
  have hold : ∀ a, s'.rodSeqs a s.ring.entries = s.rodSeqs a s.ring.entries := by
    intro a
    refine rodSeqs_congr fun e he => ?_
    have hne : e ≠ d := by
      rintro rfl
      exact hd he
    rw [hdesc e hne]
    exact .refl _
  have hnew : ∀ a, s'.rodSeqs a s'.ring.entries = s.rodSeqs a s.ring.entries ++
      if (s'.desc d).rodFor a then [(s.av a).seqNum] else [] := by
    intro a
    rw [hring, rodSeqs_append, hold]
    cases hrod : (s'.desc d).rodFor a
    · simp [TxEp.rodSeqs, hrod]
    · simp [TxEp.rodSeqs, hrod, hseq a hrod]
  refine ⟨fun a => ?_, fun a => ?_, fun e => ?_⟩
  · have hperm := h.seqs a
    have htot := h.total a
    rw [hnew, (hav a).1]
    cases (s'.desc d).rodFor a with
    | false => simpa using hperm
    | true =>
      simp only [if_true, length_append, length_singleton]
      rw [← htot, range'_1_concat]
      exact hperm.append_right _
  · have htot := h.total a
    rw [hnew, (hav a).1, (hav a).2]
    cases (s'.desc d).rodFor a with
    | false => simpa using htot
    | true =>
      simp only [if_true, length_append, length_singleton]
      omega
  · rcases eq_or_ne e d with rfl | hne
    · exact hp
    · rw [hdesc e hne]
      exact h.peer e

/-- What a step does: it keeps the numbers without a gap, and a message of which it hands a packet
on is not behind any message to its destination in the ring. -/
def InOrder (s s' : TxEp n m) : Prop :=
  ∀ h, s.pds.count h < s'.pds.count h → (s'.desc h.desc).pdsMode = .rod →
    ∀ e ∈ s.ring.entries, (s.desc e).rodFor (s'.desc h.desc).dst = true →
      (s'.desc h.desc).seqNum ≤ (s.desc e).seqNum

theorem InOrder.of_no_packet (h : ∀ p, s'.pds.count p ≤ s.pds.count p) : InOrder s s' :=
  fun p hp => absurd hp (Nat.not_lt.2 (h p))

theorem Effect.inOrder (h : Effect k none s s') : InOrder s s' :=
  .of_no_packet fun p => h.pds p nofun

theorem TurnEffect.inOrder (h : TurnEffect d s s') (hi : RodInv s) (hd : d ∈ s.ring.entries) :
    InOrder s s' := by
  intro p hp hrod e he hre
  have hpd : p.desc = d ∧ rodBlocked d s = false := by
    by_contra hne
    refine Nat.not_lt.2 (h.pds p ?_) hp
    by_cases h1 : p.desc = d
    · exact .inr (by simpa [h1] using hne)
    · exact .inl h1
  obtain ⟨rfl, hb⟩ := hpd
  obtain ⟨hmode, hdst, hseq⟩ := h.key
  rw [hmode] at hrod
  rw [hdst] at hre
  rw [hseq]
  cases hpeer : (s.desc p.desc).op.forPeer with
  | true =>
    rw [(hi.peer p.desc hpeer).1]
    exact Nat.zero_le _
  | false =>
    rw [← inTurn_of_not_blocked hb hpeer hrod]
    exact hi.next_le he hre

structure Inserts (d : Fin n) (s s' : TxEp n m) : Prop where
  absent : d ∉ s.ring.entries
  ring : s'.ring.entries = s.ring.entries ++ [d]
  inv : RodInv s → RodInv s'
  pds : s'.pds = s.pds

theorem Inserts.send (h : Inserts d s s') (env : TxEnv) (c : TxCall) :
    (RodInv s → RodInv (if s'.ring.cnt = 1 then txMsgAt env c d s' else s')) ∧
      InOrder s (if s'.ring.cnt = 1 then txMsgAt env c d s' else s') := by
  split_ifs with hc
  · have he := txMsgAt_effect (s := s') (d := d) env c
    refine ⟨fun hi => (h.inv hi).effect he (fun e he => by cases he), fun p _ _ e he => ?_⟩
    have hlen : (s.ring.entries ++ [d]).length = 1 := by
      rw [← h.ring, RingBuf.length_entries, hc]
    rw [length_append, length_singleton] at hlen
    rw [eq_nil_of_length_eq_zero (Nat.succ.inj hlen)] at he
    cases he
  · exact ⟨h.inv, .of_no_packet fun p => h.pds ▸ le_rfl⟩

theorem txRingInsert_inserts (hplaced : Placed (some d) s1) (hring : s1.ring = s.ring)
    (hdesc : ∀ e, e ≠ d → s1.desc e = s.desc e) (hseq0 : (s1.desc d).op.forPeer = true → (s1.desc d).seqNum = 0)
    (hpds : s1.pds = s.pds) (hav : ∀ a, (s1.av a).nextTxSeqNum = (s.av a).nextTxSeqNum ∧
      (s1.av a).seqNum = (s.av a).seqNum + if (s1.desc d).rodFor a then 1 else 0)
    (hseq : ∀ a, (s1.desc d).rodFor a = true → (s1.desc d).seqNum = (s.av a).seqNum) :
    Inserts d s (txRingInsert d s1) := by
  have hself : (txRingInsert d s1).desc d = { s1.desc d with state := .active } := modDesc_self _
  have hent : (txRingInsert d s1).ring.entries = s.ring.entries ++ [d] := by
    rw [← hring]
    exact RingBuf.entries_insert _ _ hplaced.ring_room
  have habs : d ∉ s.ring.entries := hring ▸ hplaced.not_mem_ring
  have hrod : ∀ a, ((txRingInsert d s1).desc d).rodFor a = (s1.desc d).rodFor a := by
    intro a
    rw [hself]
    rfl
  refine ⟨habs, hent, fun hi => hi.insert habs hent (fun e he => ?_) ?_ (fun a => ?_) (fun a ha => ?_), hpds⟩
  · exact (modDesc_of_ne _ he).trans (hdesc e he)
  · rw [hself]
    exact fun hp => ⟨hseq0 hp, nofun, nofun, nofun⟩
  · rw [hrod]
    exact hav a
  · rw [hrod] at ha
    rw [hself]
    exact hseq a ha

theorem allocSeqNum_av (r : SendReq) (a : Nat) :
    ((allocSeqNum r s).av a).nextTxSeqNum = (s.av a).nextTxSeqNum ∧
      ((allocSeqNum r s).av a).seqNum = (s.av a).seqNum + if r.pdsMode = .rod ∧ r.dst = a then 1 else 0 := by
  unfold allocSeqNum
  split_ifs with h1 h2 h2
  · obtain ⟨-, rfl⟩ := h2
    simp
  · have hne : a ≠ r.dst := fun heq => h2 ⟨h1, heq.symm⟩
    simp [update_of_ne hne]
  · exact absurd h2.1 h1
  · exact ⟨rfl, rfl⟩

theorem rdStart_av (d : Fin n) (r : SendReq) (s : TxEp n m) : (rdStart d r s).av = s.av := by
  unfold rdStart
  split_ifs <;> rfl

theorem SendApi.op_forPeer (api : SendApi) : api.op.forPeer = false := by cases api <;> rfl

theorem sendReqStart_effect (h : Placed none s) (now : Nat) (r : SendReq) :
    match sendReqStart now r s with
    | (s', none) => Effect 0 none s s'
    | (s', some d) => Inserts d s s' := by
  unfold sendReqStart
  cases hf : s.free with
  | nil => exact .refl none s
  | cons d free =>
    have hd : d ∉ s.ring.entries := h.not_ring (.inl (by rw [hf]; exact mem_cons_self))
    have hpop : Effect 0 none s { s with free } := .frame rfl rfl rfl rfl
    split_ifs
    · exact hpop.first (txListInsert_effect hd)
    · exact hpop
    have hrd := rdStart_beside d r { s with free }
    have hseq := allocSeqNum_beside r (rdStart d r { s with free })
    have hplaced := (((h.take_free hf).stays hrd.stays).stays hseq.stays).newMsg
      (v := r.desc now (s.av r.dst).seqNum s.nextMsgNo) rfl
    have hself : (newMsg d (r.desc now (s.av r.dst).seqNum s.nextMsgNo)
        (allocSeqNum r (rdStart d r { s with free }))).desc d =
        r.desc now (s.av r.dst).seqNum s.nextMsgNo := setDesc_self _
    have hrod : ∀ a, (r.desc now (s.av r.dst).seqNum s.nextMsgNo).rodFor a = true ↔
        r.pdsMode = .rod ∧ r.dst = a := by
      intro a
      rw [TxDesc.rodFor_iff]
      exact ⟨fun hr => ⟨hr.1, hr.2.2⟩, fun hr => ⟨hr.1, r.api.op_forPeer, hr.2⟩⟩
    refine txRingInsert_inserts hplaced ?_ (fun e he => ?_) ?_ ?_ (fun a => ?_) (fun a ha => ?_)
    · exact hseq.ring.trans hrd.ring
    · refine (setDesc_of_ne _ he).trans ?_
      rw [hseq.desc, hrd.desc]
    · rw [hself]
      intro hp
      rw [show (r.desc now (s.av r.dst).seqNum s.nextMsgNo).op = r.api.op from rfl, r.api.op_forPeer] at hp
      cases hp
    · exact hseq.pds.trans hrd.pds
    · rw [hself]
      obtain ⟨h1, h2⟩ := allocSeqNum_av (s := rdStart d r { s with free }) r a
      rw [rdStart_av] at h1 h2
      refine ⟨h1, h2.trans ?_⟩
      simp only [hrod]
    · rw [hself] at ha ⊢
      obtain ⟨hmode, rfl⟩ := (hrod a).1 ha
      exact if_pos hmode

theorem sendReqApi_effect (h : Placed none s) (env : TxEnv) (c : TxCall) (r : SendReq) :
    (RodInv s → RodInv (sendReqApi env c r s)) ∧ InOrder s (sendReqApi env c r s) := by
  have hstart := sendReqStart_effect h env.now r
  unfold sendReqApi
  generalize sendReqStart env.now r s = p at hstart ⊢
  obtain ⟨s1, o⟩ := p
  cases o with
  | none => exact ⟨fun hi => hi.effect hstart (fun e he => by cases he), hstart.inOrder⟩
  | some d => exact hstart.send env c

theorem Inserts.peer (hplaced : Placed (some d) s1) (hring : s1.ring = s.ring)
    (hdesc : ∀ e, e ≠ d → s1.desc e = s.desc e) (hop : (s1.desc d).op.forPeer = true) (hseq : (s1.desc d).seqNum = 0)
    (hpds : s1.pds = s.pds) (hav : s1.av = s.av) : Inserts d s (txRingInsert d s1) := by
  have hrod : ∀ a, (s1.desc d).rodFor a = false := by
    intro a
    simp [TxDesc.rodFor, hop]
  refine txRingInsert_inserts hplaced hring hdesc (fun _ => hseq) hpds (fun a => ?_) (fun a ha => ?_)
  · rw [hav, hrod]
    exact ⟨rfl, rfl⟩
  · rw [hrod] at ha
    cases ha

theorem getRdTxDesc_effect (h : Placed none s) (now : Nat) (r : RdReq) :
    Effect 0 none s (getRdTxDesc now r s) ∨ ∃ d, Inserts d s (getRdTxDesc now r s) := by
  unfold getRdTxDesc
  cases hf : s.free with
  | nil => exact .inl (.refl none s)
  | cons d free =>
    have hd : d ∉ s.ring.entries := h.not_ring (.inl (by rw [hf]; exact mem_cons_self))
    have hpop : Effect 0 none s { s with free } := .frame rfl rfl rfl rfl
    split_ifs
    · exact .inl (hpop.first (txListInsert_effect hd))
    refine .inr ⟨d, .peer (Placed.stays ((h.take_free hf).newMsg ?_)
      ⟨rfl, rfl, rfl, rfl, rfl, rfl, rfl, fun _ => .refl _⟩) rfl (fun e he => setDesc_of_ne _ he)
      ?_ ?_ rfl rfl⟩
    · rfl
    · exact congrArg (fun v : TxDesc => v.op.forPeer) (setDesc_self _)
    · exact congrArg TxDesc.seqNum (setDesc_self _)

theorem txRtrTry_effect (h : Placed none s) (hp : ∀ d, (s.desc d).PeerOk) (k : RtrFor) :
    Effect 0 none s (txRtrTry k s) ∨ ∃ d, Inserts d s (txRtrTry k s) := by
  unfold txRtrTry
  cases hm : rtrMatch k s with
  | none => exact .inl (.refl none s)
  | some d =>
    have hmem := rtrMatch_mem hm
    obtain ⟨h1, h2, h3, h4⟩ := bufRtrListRemove_frame d s
    have hop : (s.desc d).op.forPeer = true := by
      have := h.rtr d hmem
      cases hop : (s.desc d).op <;> rw [hop] at this <;> first | rfl | cases this
    refine .inr ⟨d, .peer (bufRtrListRemove_placed h hmem) h1 (fun e _ => by rw [h3]) ?_ ?_ h4 h2⟩
    · rw [h3]
      exact hop
    · rw [h3]
      exact (hp d hop).1

theorem rxDsend_effect (h : Placed none s) (now : Nat) (r : DsendReq) :
    Effect 0 none s (rxDsend now r s) := by
  unfold rxDsend
  split
  · exact .refl none s
  cases hf : s.free with
  | nil => exact .refl none s
  | cons d free =>
    have hd : d ∉ s.ring.entries := h.not_ring (.inl (by rw [hf]; exact mem_cons_self))
    dsimp only
    generalize hv : ({ TxDesc.zero with
        op := .rtr r.tagged, txTime := now, deferTime := now, jobId := r.jobId, msgId := r.msgId
        remoteRtrToken := r.remoteRtrToken, msgNo := s.nextMsgNo
        dst := if r.tagged then r.initiator.toNat else 0
        tagOrImm := if r.tagged then r.tag else 0 } : TxDesc) = v
    have hnew : Effect 0 none s (newMsg d v { s with free }) := by
      refine .off hd rfl rfl (fun e he => setDesc_of_ne _ he) (fun _ => ?_) rfl
      rw [newMsg, setDesc_self, ← hv]
      exact fun _ => ⟨rfl, by simp [TxDesc.zero], by simp [TxDesc.zero], by simp [TxDesc.zero]⟩
    unfold bufRtrListInsert
    split_ifs
    · exact hnew.after rfl rfl rfl rfl
    · exact hnew.after rfl rfl rfl rfl

end Uet.Ses
