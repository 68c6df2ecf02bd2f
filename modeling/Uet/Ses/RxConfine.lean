import Uet.Ses.RxFrame

/-!
# Where a write may write

A write packet changes memory within its region only, at the offset it names and for the
bytes it says it carries, after every history of the endpoint. The conditions are the
places where the code does not look: a sum that wraps, a frame with padding for a region
that is not contiguous, a page that does not resolve, an atomic that waits in the sync group.
-/

namespace Uet.Ses

open Flat

/-! ## Every history keeps the buffers -/

variable {s : RxEp} {id : DescId} {p : SesReq} (now : Nat)

theorem cached_rxReqPkt (hc : Cached s) (env : RxEnv) (p : SesReq) (tagged write sync : Bool) :
    Cached (rxReqPkt s env p tagged write sync).1 := by
  unfold rxReqPkt
  split
  · unfold rudiWrite
    split
    · exact hc
    dsimp only
    split
    · exact hc
    split
    · exact hc
    · split
      · exact hc
      · exact hc.withMem _
  · have hk := keeps_getRxDesc s env p write sync .ok
    cases hg : getRxDesc s env p write sync .ok with
    | mk s1 look =>
      rw [hg] at hk
      have hc1 := hk.cached hc
      cases look with
      | done rc => exact hc1
      | later id =>
        obtain ⟨m, hkm, -⟩ := keeps_rxReqBody_later s1 env p tagged write id
        exact hkm.cached (hc1.withMem m)
      | first id =>
        obtain ⟨m, hkm, -⟩ := keeps_rxReqBody_first env p tagged write hc1
          (fun d hd => (getRxDesc_first hc.domain hg d hd).1)
        exact hkm.cached (hc1.withMem m)

theorem settled_rxCancelPkt (s : RxEp) (now : Nat) (p : SesReq) : Settled s (rxCancelPkt s now p).1 := by
  unfold rxCancelPkt
  split
  · exact .refl s
  rename_i id _
  have h0 := settled_rxDescActiveListMoveToTail s id now
  generalize rxDescActiveListMoveToTail s now id = s0 at h0
  dsimp only
  split
  · exact h0.trans (settled_rxCqPostErr s0 id _)
  have h1 : Settled s0 (if (s0.desc id).sesRc = .ok then
      (rxMsgErr s0 now p 0 (some id) .initiatorErr).1 else s0) := by
    split
    · exact settled_rxMsgErr _ _ _ _ _ _
    · exact .refl s0
  generalize (if (s0.desc id).sesRc = .ok then
      (rxMsgErr s0 now p 0 (some id) .initiatorErr).1 else s0) = s1 at h1
  have h2 : Settled s1 (s1.setDesc id fun d => { d with cancelled := true }) :=
    settled_setDesc s1 id fun _ => .of_eq rfl rfl rfl rfl rfl rfl
  generalize s1.setDesc id (fun d => { d with cancelled := true }) = s2 at h2
  have h := (h0.trans h1).trans h2
  split
  · exact h.trans (settled_rxCqPostErr s2 id _)
  split
  · exact h.trans (settled_rxCqPostErr s2 id _)
  · exact h.trans ((settled_setRemaining s2 id 0).trans (settled_rxCqPostErr _ id _))
  · exact h.trans (settled_setRemaining s2 id _)

theorem settled_rxMsgAgeLoop (fuel : Nat) (s : RxEp) : Settled s (rxMsgAgeLoop now fuel s) := by
  induction fuel generalizing s with
  | zero => exact .refl s
  | succ fuel ih =>
    unfold rxMsgAgeLoop
    split
    · exact .refl s
    split
    · exact .refl s
    · exact (settled_rxCqPostErr s _ _).trans (ih _)

theorem settled_rxSyncGrpAgeOne (s : RxEp) (e : SyncId) : Settled s (rxSyncGrpAgeOne now s e) := by
  unfold rxSyncGrpAgeOne
  dsimp only
  split
  · split
    · exact (settled_rxCqPostErr s _ _).trans (settled_syncGrpSrcFepHashRemove _ e)
    · exact settled_syncGrpSrcFepHashRemove s e
  · exact .refl s

theorem settled_rxSyncGrpAge (s : RxEp) (now : Nat) : Settled s (rxSyncGrpAge s now) := by
  unfold rxSyncGrpAge
  generalize s.syncs = es
  induction es generalizing s with
  | nil => exact .refl s
  | cons _ _ ih => exact (settled_rxSyncGrpAgeOne ..).trans (ih _)

theorem settled_rxCqRead (s : RxEp) (err : Bool) : Settled s (rxCqRead s err) := by
  unfold rxCqRead
  split
  · exact .refl s
  rename_i entry rest _
  split
  · exact Settled.trans (b := { s with cq := rest }) (.of_desc rfl rfl rfl (fun _ => .refl _) (fun _ h => h) fun _ h => h)
      (settled_rxDescListInsert _ entry.desc)
  · exact .refl s

theorem Cached.post {s' : RxEp} (hc : Cached s) (hid : (s.desc id).mr = none) (hdom : s'.dom = s.dom)
    (hdesc : s'.desc = s.desc) (huses : ∀ j, s'.Uses j → j = id ∨ s.Uses j) : Cached s' := by
  refine ⟨by rw [hdom]; exact hc.domain, fun j hj i hi => ?_⟩
  rw [hdesc] at hi
  rw [hdom, hdesc]
  rcases huses j hj with rfl | hj
  · rw [hid] at hi
    cases hi
  · exact hc.at_ j hj i hi

theorem cached_recvApiCommon (hc : Cached s) (q : RecvReq) : Cached (recvApiCommon s q) := by
  unfold recvApiCommon
  dsimp only
  split
  · exact hc
  split
  · exact hc
  rename_i id s1 hpop
  have hc2 := (keeps_setDesc_fresh s1 id (d := q.desc) rfl).cached ((keeps_pop hpop).cached hc)
  have hid : ((s1.setDesc id fun _ => q.desc).desc id).mr = none := by
    simp [RxEp.setDesc, RecvReq.desc, RxDesc.zero]
  generalize s1.setDesc id (fun _ => q.desc) = s2 at hc2 hid
  have hring : ∀ j, j ∈ s2.msgs ∨ j ∈ s2.ring ++ [id] ∨ j ∈ s2.tags → j = id ∨ s2.Uses j := by
    intro j hj
    simp only [List.mem_append, List.mem_singleton] at hj
    unfold RxEp.Uses
    tauto
  have htags : ∀ j, j ∈ s2.msgs ∨ j ∈ s2.ring ∨ j ∈ id :: s2.tags → j = id ∨ s2.Uses j := by
    intro j hj
    simp only [List.mem_cons] at hj
    unfold RxEp.Uses
    tauto
  split
  · split
    · exact hc2.post hid rfl rfl hring
    · exact hc2.post hid rfl rfl hring
  split
  · exact hc2.post hid rfl rfl htags
  · exact hc2.post hid rfl rfl htags

theorem settled_amoSyncGrp (s : RxEp) (env : RxEnv) (p : SesReq) : Settled s (amoSyncGrp s env p).1 := by
  unfold amoSyncGrp
  dsimp only
  split
  · rename_i e _
    split
    · exact .refl s
    split
    · exact (settled_setSync s e _).trans (settled_syncGrpSrcFepHashRemove _ e)
    · exact settled_setSync s e _
  · split
    · exact .refl s
    · split
      · split
        · exact .of_desc rfl rfl rfl (fun _ => .refl _) (fun _ h => h) fun _ h => h
        · exact .refl s
      · exact .refl s

section

variable (hc : Cached s)
include hc

theorem cached_rxAtomicReqPkt (env : RxEnv) (p : SesReq) (ext : AtomicExt) (sync : Bool) :
    Cached (rxAtomicReqPkt s env p ext sync).1 := by
  have h0 : Tail s (if sync then amoSyncGrp s env p else (s, none, .ok)).1 := by
    split
    · exact (settled_amoSyncGrp s env p).tail
    · exact .refl s
  unfold rxAtomicReqPkt
  generalize (if sync then amoSyncGrp s env p else (s, none, .ok)) = grp at h0
  obtain ⟨s1, entry, rc⟩ := grp
  have hc1 : Cached s1 := h0.cached hc
  have herr : Cached (amoErrExit s1 entry) := by
    cases entry with
    | none => exact hc1
    | some e =>
      simp only [amoErrExit]
      exact (settled_setSync s1 e _).tail.cached hc1
  have hsum : ∀ a w, Cached (amoSum s1 entry a w) := fun a w => by
    cases entry with
    | none => exact hc1.withMem _
    | some e =>
      simp only [amoSum]
      exact (settled_setSync s1 e _).tail.cached hc1
  dsimp only
  split
  · exact herr
  split
  · exact herr
  · split
    · exact herr
    · exact hsum _ _

theorem cached_rxFetchAtomicReqPkt (p : SesReq) (ext : AtomicExt) :
    Cached (rxFetchAtomicReqPkt s p ext).1 := by
  unfold rxFetchAtomicReqPkt
  dsimp only
  split
  · exact hc
  split
  · exact hc
  · exact hc.withMem _

def ClosesUnused (s : RxEp) (o : MrOp) : Prop :=
  ∀ id i, s.Uses id → (s.desc id).mr = some i → ∀ j, o = .close j → j ≠ i

def RxEp.RunMeets (C : RxEp → RxEv → Prop) (s : RxEp) : List RxEv → Prop
  | [] => True
  | ev :: evs => C s ev ∧ (s.step ev).RunMeets C evs

def NoBusyClose (s : RxEp) (ev : RxEv) : Prop := ∀ o, ev = .mrOp o → ClosesUnused s o

theorem cached_mrOp {o : MrOp} (ho : ClosesUnused s o) : Cached { s with dom := o.apply s.dom } := by
  refine ⟨hc.domain.step o, fun id hu i hi => ?_⟩
  obtain ⟨h1, h2⟩ := hc.at_ id hu i hi
  obtain ⟨h3, h4⟩ := hc.domain.region_kept o h1 (ho id i hu hi)
  refine ⟨h3, ?_⟩
  unfold RxDesc.CachedFrom at h2 ⊢
  rw [h4]
  exact h2

theorem cached_step {ev : RxEv} (hev : NoBusyClose s ev) : Cached (s.step ev) := by
  cases ev with
  | req env p =>
    simp only [RxEp.step, rxReq]
    cases p.opcode with
    | send | deferSend | taggedSend | deferTsend | write | syncWrite =>
      exact cached_rxReqPkt hc env p _ _ _
    | read =>
      dsimp only
      split <;> exact hc
    | msgErr => exact (settled_rxCancelPkt s env.now p).tail.cached hc
    | atomic | syncAtomic | fetchAtomic | other =>
      have h := (keeps_getRxDesc s env p false false .unsupportedOp).cached hc
      dsimp only
      split <;> rename_i heq <;> rw [heq] at h <;> exact h
  | atomic env p ext =>
    simp only [RxEp.step]
    cases p.opcode with
    | atomic | syncAtomic => exact cached_rxAtomicReqPkt hc env p ext _
    | fetchAtomic => exact cached_rxFetchAtomicReqPkt hc p ext
    | _ => exact hc
  | recv q => exact cached_recvApiCommon hc q
  | msgAge => exact (settled_rxMsgAgeLoop ..).tail.cached hc
  | syncGrpAge => exact (settled_rxSyncGrpAge ..).tail.cached hc
  | cqRead => exact (settled_rxCqRead ..).tail.cached hc
  | mrOp o => exact cached_mrOp hc (hev o rfl)

theorem cached_run {evs : List RxEv} (h : s.RunMeets NoBusyClose evs) : Cached (s.run evs) := by
  induction evs generalizing s with
  | nil => exact hc
  | cons ev evs ih => exact ih (cached_step hc h.1) h.2

end

/-! ## The copy of a packet -/

def RxDesc.addrs (s : RxEp) (d : RxDesc) : Option (List Nat) :=
  match d.kind with
  | .contig => if d.buf + d.len ≤ 2 ^ 64 then some (run d.buf d.len) else none
  | .iov iov => some (iovAddrs iov)
  | .mr => d.mr.bind fun i => (s.dom.mr i).region.buf.addrs
  | .seg segs => segAddrs (fun i => (s.dom.mr i).region) segs

def SesReq.Unpadded (p : SesReq) (d : RxDesc) : Prop :=
  (match d.kind with
    | .contig => false
    | _ => true) = true → p.pktPayloadLen = p.sesPayloadLen

theorem memcpy_within (m : Mem) {buf len off : Nat} {bs : List Byte} (hspace : buf + len ≤ 2 ^ 64)
    (hfit : off + bs.length ≤ len) : memcpy m ((buf + off) % 2 ^ 64) bs = poke m ((run buf len).drop off) bs := by
  by_cases hz : bs = []
  · simp [hz, memcpy]
  have hpos := List.length_pos_iff.2 hz
  rw [Nat.mod_eq_of_lt (by omega), drop_run, memcpy, ← poke_take _ (run _ (len - off)), take_run,
    Nat.min_eq_left (by omega)]

theorem rxScatter_eq {d : RxDesc} {as : List Nat} {off : Nat} (has : d.addrs s = some as) (hlen : d.len ≤ as.length)
    (hpad : p.Unpadded d) (hfit : off + p.sesPayloadLen ≤ d.len) :
    rxScatter s p d off = (poke s.mem (as.drop off) (p.read p.sesPayloadLen), true) := by
  unfold rxScatter
  unfold RxDesc.addrs at has
  unfold SesReq.Unpadded at hpad
  cases hk : d.kind with
  | contig =>
    simp only [hk] at has
    split at has
    · rename_i hspace
      cases has
      rw [memcpy_within _ hspace (by rw [SesReq.length_read]; exact hfit)]
    · cases has
  | iov iov =>
    simp only [hk, Option.some.injEq] at has
    have hp := hpad (by rw [hk])
    subst has
    simp only [scatterFlatToIov_eq, hp, SesReq.length_read, Prod.mk.injEq, true_and, beq_iff_eq]
    omega
  | mr =>
    simp only [hk] at has
    have hp := hpad (by rw [hk])
    cases hmr : d.mr with
    | none => rw [hmr] at has; cases has
    | some i =>
      simp only [hmr, Option.bind_some] at has
      simp only [mrScatter_eq s.mem has, hp, SesReq.length_read]
      rw [if_pos (by rw [← MrBuf.length_addrs has]; omega)]
      simp
  | seg segs =>
    simp only [hk] at has
    have hp := hpad (by rw [hk])
    simp only [scatterFlatToSeg_eq s.mem has, hp, SesReq.length_read, Prod.mk.injEq, true_and, beq_iff_eq]
    omega

theorem addrs_of_cachedFrom {d : RxDesc} {i : MrIdx} (hmr : d.mr = some i) (hc : d.CachedFrom (s.dom.mr i)) :
    d.addrs s = (s.dom.mr i).region.buf.addrs := by
  obtain ⟨hlen, hk⟩ := hc
  have hh := (s.dom.mr i).region.buf.holds
  unfold RxDesc.addrs
  cases hb : (s.dom.mr i).region.buf.kind with
  | contig b =>
    simp only [hb, MrBufKind.Holds] at hk hh
    simp only [hk.1, hk.2, MrBuf.addrs, hb]
    rw [if_pos (by omega), hlen]
  | iov v =>
    simp only [hb] at hk
    simp only [hk, hmr, Option.bind_some]
  | pbl q =>
    simp only [hb] at hk
    simp only [hk, hmr, Option.bind_some]

/-! ## Confinement -/

def writeTarget (s : RxEp) (p : SesReq) : Option MrIdx :=
  match if p.pds = .rudi then none else rxMsgHashLookup s p.msgKey with
  | some id => (s.desc id).mr
  | none => getMrDesc s.dom s.ep p.matchBits p.jobId

def writeSync (s : RxEp) (p : SesReq) (sync : Bool) : Option SyncId :=
  syncOf s p sync (match rxMsgHashLookup s p.msgKey with
    | some id => s.desc id
    | none => RxDesc.zero)

def flatOff (s : RxEp) (p : SesReq) (i : MrIdx) : Option Nat :=
  if p.pds = .rudi then (s.dom.mr i).region.toOffset (p.rxBufOff true).toNat p.sesPayloadLen
  else some (p.rxBufOff true).toNat

/-- `uet_mr_is_scattered`. -/
def MrBuf.isScattered (b : MrBuf) : Bool :=
  match b.kind with
  | .contig _ => false
  | _ => true

/-- What the code does not check of a write packet: the end of the packet does not wrap in
64 bits, a region that is not contiguous gets no padding, its pages resolve, and the packet
does not complete a sync group whose atomic waits. -/
structure WriteOk (s : RxEp) (p : SesReq) (sync : Bool) : Prop where
  noWrap : p.pds ≠ .rudi → (p.rxBufOff true).toNat + p.sesPayloadLen < 2 ^ 64
  noPadding : p.pds ≠ .rudi → ∀ i, writeTarget s p = some i →
    (s.dom.mr i).region.buf.isScattered = true → p.pktPayloadLen = p.sesPayloadLen
  resolves : ∀ i, writeTarget s p = some i → (s.dom.mr i).region.buf.addrs ≠ none
  noAtomic : p.pds ≠ .rudi → ∀ e, writeSync s p sync = some e → (s.sync e).mayRun = false

def ConfinedTo (s : RxEp) (p : SesReq) (m : Mem) : Prop :=
  ∃ i as off, writeTarget s p = some i ∧ (s.dom.mr i).region.buf.addrs = some as ∧
    flatOff s p i = some off ∧ off + p.sesPayloadLen ≤ (s.dom.mr i).region.buf.len ∧
    m = poke s.mem (as.drop off) (p.read p.sesPayloadLen)

theorem confined_of_copied {s' : RxEp} {sync : Bool} {i : MrIdx} {m : Mem} (hok : WriteOk s p sync)
    (hrudi : p.pds ≠ .rudi) (ht : writeTarget s p = some i) (hmem : s'.mem = s.mem) (hdom : s'.dom = s.dom)
    (hmr : (s'.desc id).mr = some i) (hca : CachedAt s' id) (hcopy : Copied s' p true id m) : ConfinedTo s p m := by
  obtain ⟨-, hfrom⟩ := hca i hmr
  have haddr := addrs_of_cachedFrom hmr hfrom
  rw [hdom] at hfrom haddr
  obtain ⟨as, has⟩ := Option.ne_none_iff_exists'.1 (hok.resolves i ht)
  have hlen : (s'.desc id).len = (s.dom.mr i).region.buf.len := hfrom.1
  obtain ⟨hbound, hm⟩ := hcopy
  have hw := hok.noWrap hrudi
  have hsum : (p.rxBufOff true + BitVec.ofNat 64 p.sesPayloadLen).toNat
      = (p.rxBufOff true).toNat + p.sesPayloadLen := by
    rw [BitVec.toNat_add, BitVec.toNat_ofNat, Nat.add_mod_mod, Nat.mod_eq_of_lt hw]
  rw [hsum] at hbound
  have hunpad : p.Unpadded (s'.desc id) := by
    intro hk
    refine hok.noPadding hrudi i ht ?_
    obtain ⟨-, hkind⟩ := hfrom
    unfold MrBuf.isScattered
    cases hb : (s.dom.mr i).region.buf.kind with
    | contig b =>
      rw [hb] at hkind
      rw [hkind.1] at hk
      cases hk
    | iov v => rfl
    | pbl q => rfl
  have haslen := MrBuf.length_addrs has
  refine ⟨i, as, _, ht, has, by rw [flatOff, if_neg hrudi], by omega, ?_⟩
  rw [hm, rxScatter_eq (haddr.trans has) (by omega) hunpad hbound, hmem]

theorem rudiWrite_confined {sync : Bool} (hok : WriteOk s p sync) (hrudi : p.pds = .rudi) :
    (rudiWrite s p).1.mem = s.mem ∨ ConfinedTo s p (rudiWrite s p).1.mem := by
  unfold rudiWrite
  split
  · exact Or.inl rfl
  rename_i i hi
  have ht : writeTarget s p = some i := by
    rw [writeTarget, if_pos hrudi]
    exact hi
  dsimp only
  split
  · exact Or.inl rfl
  split
  · exact Or.inl rfl
  split
  · exact Or.inl rfl
  · rename_i off hoff
    obtain ⟨as, has⟩ := Option.ne_none_iff_exists'.1 (hok.resolves i ht)
    have hfit := (Region.toOffset_eq_some.1 hoff)
    refine Or.inr ⟨i, as, off, ht, has, by rw [flatOff, if_pos hrudi, hoff], by omega, ?_⟩
    simp only [mrScatter_eq s.mem has, SesReq.length_read]
    rw [if_pos (by omega)]

theorem mr_of_laterPktErr (h : laterPktErr s p true id = none) : ∃ i, (s.desc id).mr = some i := by
  unfold laterPktErr at h
  simp only [Bool.not_true, Bool.false_eq_true, if_false] at h
  cases hmr : (s.desc id).mr with
  | none => rw [hmr] at h; cases h
  | some i => exact ⟨i, rfl⟩

theorem rxReqPkt_confined (hc : Cached s) (env : RxEnv) (p : SesReq) (sync : Bool) (hok : WriteOk s p sync) :
    (rxReqPkt s env p false true sync).1.mem = s.mem ∨
      ConfinedTo s p (rxReqPkt s env p false true sync).1.mem := by
  unfold rxReqPkt
  by_cases hrudi : p.pds = .rudi
  · rw [if_pos (by simp [hrudi])]
    exact rudiWrite_confined hok hrudi
  rw [if_neg (by simp [hrudi])]
  have hk := keeps_getRxDesc s env p true sync .ok
  cases hg : getRxDesc s env p true sync .ok with
  | mk s1 look =>
    rw [hg] at hk
    cases look with
    | done rc => exact Or.inl hk.mem
    | later id =>
      obtain ⟨hlook, ht, hno⟩ := getRxDesc_later hg
      obtain ⟨m, hkm, hm⟩ := keeps_rxReqBody_later s1 env p false true id
      have hmem : (rxReqBody s1 env p false true true (some id)).1.mem = m := hkm.mem
      rw [hmem]
      have hna : NoAtomic s1 id := hno fun e he => hok.noAtomic hrudi e (by
        rw [writeSync, hlook]
        exact he)
      rcases hm with hm | ⟨hlater, hm⟩
      · exact Or.inl (hm.trans ht.mem)
      obtain ⟨i, hi⟩ := mr_of_laterPktErr hlater
      have htarget : writeTarget s p = some i := by
        rw [writeTarget, if_neg hrudi, hlook]
        exact (ht.buf id).mr.symm.trans hi
      have hca : CachedAt s1 id := ht.cachedAt (hc.at_ id (Or.inl (List.mem_of_find?_eq_some hlook)))
      exact (hm hna).imp (fun h => h.trans ht.mem) fun h =>
        confined_of_copied hok hrudi htarget ht.mem ht.dom hi hca h
    | first id =>
      obtain ⟨d, rfl⟩ := getRxDesc_first_write hg
      obtain ⟨hca, hlook, ⟨i, hi, hkey⟩, hno⟩ := getRxDesc_first hc.domain hg d rfl
      obtain ⟨m, hkm, hm⟩ := keeps_rxReqBody_first env p false true (hk.cached hc)
        (fun d' (hd' : some d = some d') => by cases hd'; exact hca)
      have hmem : (rxReqBody s1 env p false true false (some d)).1.mem = m := hkm.mem
      rw [hmem]
      rcases hm with hm | ⟨d', s', hpkt, hm⟩
      · exact Or.inl (hm.trans hk.mem)
      obtain rfl := rxFirstPkt_write hpkt
      have hna : NoAtomic s1 d' := hno fun e he => hok.noAtomic hrudi e (by
        rw [writeSync, hlook]
        exact he)
      have htarget : writeTarget s p = some i := by
        rw [writeTarget, if_neg hrudi, hlook]
        exact hkey
      exact (hm hna).imp (fun h => h.trans hk.mem) fun h =>
        confined_of_copied hok hrudi htarget hk.mem hk.dom hi hca h

section

variable (ep : EpId) (n : Nat) (pos : 0 < n) (small : n ≤ 2 ^ 48) (mem : Mem) (descs : Nat) (fmt : CqFormat) (mtu : Nat) (rod : Bool) (life idle : Nat)
include ep n pos small mem descs fmt mtu rod life idle

theorem cached_init : Cached (RxEp.init ep (Domain.init n pos small) mem descs fmt mtu rod life idle) :=
  ⟨domainOk_init n pos small, fun id h => by
    simp only [RxEp.Uses, RxEp.init, List.not_mem_nil, or_self] at h⟩

end

/-- An endpoint with one enabled region of 64 bytes from address 1000 on, user key 5. -/
def oneRegion : RxEp :=
  RxEp.init 0 eightRegions (fun _ => 0) 4 .data 64 false 10 10

def oneRegionOps : List RxEv := [.mrOp (.reg (userReg 5)), .mrOp (.enable 0)]

def writeAt (off : BitVec 64) : SesReq :=
  { pds := .rud, opcode := .write, som := true, eom := true, hd := false, ie := false, src := 1,
    spdcid := 1, msgId := 1, gen := 0, jobId := 0, reqLen := 16, bufOff := off, word := 0,
    matchBits := 5, initiator := 0, syncGrp := 0, syncCnt := 0, frameLen := 20, trailerLen := 4,
    byteAt := fun _ => 7 }

def quietEnv : RxEnv := ⟨0, false, true⟩

theorem oneRegion_runMeets : oneRegion.RunMeets NoBusyClose oneRegionOps := by
  refine ⟨fun o ho => ?_, fun o ho => ?_, trivial⟩ <;>
  · cases ho
    intro id i hu hi j hj
    cases hj

end Uet.Ses
