import Uet.Pds.Moves

/-!
# The transmit side is consistent and completes packets once

`tx_bm`, the retransmit list and the packets they point to agree after every step:
the list holds exactly the un-ACKed packets of the bitmap. Beside the state, the log
of all outputs is accounted for: a packet is answered, failed or dropped at most
once, and not after it was freed.
-/

namespace Uet.Pds

open Uet.Serial List Option

/-! ## The heap, the bitmap and the list -/

structure TxInv (tx : TxSide) : Prop where
  nodup : tx.txPktList.Nodup
  listed : ∀ id, id ∈ tx.txPktList ↔ ∃ k, tx.pkts id = some k ∧ k.txPktAcked = false
  tracked : ∀ id k, tx.pkts id = some k → ∃ i, tx.txBm.get i = some id
  live : ∀ i id, tx.txBm.get i = some id → ∃ k, tx.pkts id = some k
  inj : ∀ i j id, tx.txBm.get i = some id → tx.txBm.get j = some id → i = j
  place : ∀ i id k, tx.txBm.get i = some id → tx.pkts id = some k → k.txPktAcked = false →
    k.psn = tx.txBmBasePsn + BitVec.ofInt 32 i
  fresh : ∀ id k, tx.pkts id = some k → id < tx.nextId

structure SameCore (tx tx' : TxSide) : Prop where
  list : tx'.txPktList = tx.txPktList
  bm : tx'.txBm = tx.txBm
  pkts : tx'.pkts = tx.pkts
  nextId : tx'.nextId = tx.nextId
  base : tx'.txBmBasePsn = tx.txBmBasePsn

variable {tx tx' : TxSide} {id : PktId} {k k' : TxPkt} {i : Int} {u : Option PktId} {log : List Out}
  {u' : Option PktId} {os : List Out} {p : Pdc}

theorem TxInv.congr (h : TxInv tx) (hs : SameCore tx tx') : TxInv tx' := by
  obtain ⟨h1, h2, h3, h4, h5⟩ := hs
  constructor
  · rw [h1]; exact h.nodup
  · rw [h1, h3]; exact h.listed
  · rw [h2, h3]; exact h.tracked
  · rw [h2, h3]; exact h.live
  · rw [h2]; exact h.inj
  · rw [h2, h3, h5]; exact h.place
  · rw [h3, h4]; exact h.fresh

theorem setPkt_pkts (tx : TxSide) (id j : PktId) (p : Option TxPkt) :
    (tx.setPkt id p).pkts j = if j = id then p else tx.pkts j := rfl

/-- Each packet `k` becomes `f j k`, and the window moves by `delta`. -/
theorem TxInv.renew (h : TxInv tx) {f : PktId → TxPkt → TxPkt} (delta : Psn) (hbm : tx'.txBm = tx.txBm)
    (hnext : tx'.nextId = tx.nextId) (hbase : tx'.txBmBasePsn = tx.txBmBasePsn + delta)
    (hpkts : ∀ j, tx'.pkts j = (tx.pkts j).map (f j)) (hf : ∀ j k, tx.pkts j = some k →
      (f j k).txPktAcked = false → k.txPktAcked = false ∧ (f j k).psn = k.psn + delta)
    (hnd : tx'.txPktList.Nodup) (hsub : tx'.txPktList ⊆ tx.txPktList)
    (hl : ∀ j k, tx.pkts j = some k → (j ∈ tx'.txPktList ↔ (f j k).txPktAcked = false)) : TxInv tx' := by
  have hget : ∀ {j kj}, tx'.pkts j = some kj → ∃ k, tx.pkts j = some k ∧ f j k = kj :=
    fun hj => map_eq_some_iff.1 ((hpkts _).symm.trans hj)
  refine ⟨hnd, fun j => ⟨fun hm => ?_, ?_⟩, fun j kj hj => ?_, fun i j hi => ?_, hbm ▸ h.inj,
    fun i j kj hi hj hun => ?_, fun j kj hj => ?_⟩
  · obtain ⟨k, hk, -⟩ := (h.listed j).1 (hsub hm)
    exact ⟨f j k, by rw [hpkts, hk]; rfl, (hl j k hk).1 hm⟩
  · rintro ⟨kj, hj, hun⟩
    obtain ⟨k, hk, rfl⟩ := hget hj
    exact (hl j k hk).2 hun
  · obtain ⟨k, hk, -⟩ := hget hj
    exact hbm ▸ h.tracked j k hk
  · obtain ⟨k, hk⟩ := h.live i j (hbm ▸ hi)
    exact ⟨f j k, by rw [hpkts, hk]; rfl⟩
  · obtain ⟨k, hk, rfl⟩ := hget hj
    obtain ⟨hold, hpsn⟩ := hf j k hk hun
    rw [hpsn, h.place i j k (hbm ▸ hi) hk hold, hbase, BitVec.add_assoc, BitVec.add_comm _ delta,
      ← BitVec.add_assoc]
  · obtain ⟨k, hk, -⟩ := hget hj
    exact hnext ▸ h.fresh j k hk

theorem TxInv.setPkt (h : TxInv tx) (hk : tx.pkts id = some k) (hp : k'.psn = k.psn)
    (ha : k'.txPktAcked = k.txPktAcked) : TxInv (tx.setPkt id (some k')) := by
  have hf : ∀ j kj, tx.pkts j = some kj → (if j = id then k' else kj).txPktAcked = kj.txPktAcked ∧
      (if j = id then k' else kj).psn = kj.psn := by
    intro j kj hj
    split_ifs with he
    · cases hk.symm.trans (he ▸ hj)
      exact ⟨ha, hp⟩
    · exact ⟨rfl, rfl⟩
  refine h.renew (f := fun j kj => if j = id then k' else kj) 0#32 rfl rfl (BitVec.add_zero _).symm (fun j => ?_)
    (fun j kj hj hun => ?_) h.nodup (fun _ hm => hm) fun j kj hj => ?_
  · rw [setPkt_pkts]
    split_ifs with he
    · rw [he, hk]
      rfl
    · exact map_id'.symm
  · rw [BitVec.add_zero]
    exact ⟨(hf j kj hj).1.symm.trans hun, (hf j kj hj).2⟩
  · rw [(hf j kj hj).1]
    refine (h.listed j).trans ⟨fun ⟨k0, hk0, hun⟩ => ?_, fun hun => ⟨kj, hj, hun⟩⟩
    cases hj.symm.trans hk0
    exact hun

theorem acked_eq (hk : tx.pkts id = some k) : tx.acked id = k.txPktAcked := by
  rw [TxSide.acked, hk]
  rfl

/-- The packet under `id` once it is acknowledged. -/
theorem markAcked_pkts (hk : tx.pkts id = some k) (j : PktId) :
    (markAcked tx id).pkts j = if j = id then some { k with txPktAcked := true } else tx.pkts j := by
  rw [markAcked, TxSide.unlink, TxSide.modPkt, hk]
  rfl

theorem TxInv.markAcked (h : TxInv tx) (hk : tx.pkts id = some k) : TxInv (markAcked tx id) := by
  refine h.renew (f := fun j kj => if j = id then { k with txPktAcked := true } else kj) 0#32 rfl rfl
    (BitVec.add_zero _).symm (fun j => ?_) (fun j kj hj hun => ?_) (h.nodup.erase id)
    erase_subset fun j kj hj => ?_
  · rw [markAcked_pkts hk]
    split_ifs with he
    · rw [he, hk]
      rfl
    · exact map_id'.symm
  · rw [BitVec.add_zero]
    split_ifs at hun ⊢
    exact ⟨hun, rfl⟩
  · refine h.nodup.mem_erase_iff.trans ?_
    by_cases he : j = id
    · simp [he]
    · simp [he, h.listed, hj]

/-- The offset of the PSN at index `i` of a window. -/
theorem psnOffset_index (base : Psn) (h0 : 0 ≤ i) (h1 : i < 128) : psnOffset (base + BitVec.ofInt 32 i) base = i := by
  have hb : pw base.toInt = base := wrap_toInt base
  have hi : BitVec.ofInt 32 i = pw i := rfl
  rw [hi, ← hb, pw_add, psnOffset_pw (by simp only [InRange]; omega)]
  omega

section

variable (h : TxInv tx)
include h

theorem TxInv.unsetTracked (hg : tx.txBm.get i = some id) (hk : tx.pkts id = some k)
    (hun : k.txPktAcked = false) : unsetTracked tx k.psn = { tx with txBm := tx.txBm.unset i } := by
  obtain ⟨h0, h1⟩ := PtrBitmap.get_range tx.txBm i (by rw [hg]; simp)
  have hoff : psnOffset k.psn tx.txBmBasePsn = i := by
    rw [h.place i id k hg hk hun]
    exact psnOffset_index _ h0 (by omega)
  rw [Uet.Pds.unsetTracked, if_pos ((psnInMpr_iff _ _).2 (by omega)), hoff]

/-- The packet `id` goes, and the window advances by `c`. -/
theorem TxInv.drop (c : Int) {txBm : PtrBitmap PktId 2} {txPktList : List PktId}
    (hbm : ∀ j jd, txBm.get j = some jd ↔ tx.txBm.get (j + c) = some jd ∧ jd ≠ id) (hnd : txPktList.Nodup)
    (hl : ∀ j, j ∈ txPktList ↔ j ∈ tx.txPktList ∧ j ≠ id) :
    TxInv ({ tx with txBm, txBmBasePsn := tx.txBmBasePsn + BitVec.ofInt 32 c, txPktList }.setPkt id none) := by
  have hp : ∀ j kj, (if j = id then none else tx.pkts j) = some kj ↔ tx.pkts j = some kj ∧ j ≠ id := by
    intro j kj
    split_ifs with he
    · simp [he]
    · simp [he]
  refine ⟨hnd, fun j => ?_, fun j kj hj => ?_, fun j jd hj => ?_, fun a b jd hja hjb => ?_,
    fun j jd kj hj hkj hunj => ?_, fun j kj hj => h.fresh j kj ((hp j kj).1 hj).1⟩
  · show j ∈ txPktList ↔ ∃ kj, (if j = id then none else tx.pkts j) = some kj ∧ _
    simp only [hl, h.listed, hp]
    grind
  · obtain ⟨hj', hne⟩ := (hp j kj).1 hj
    obtain ⟨m, hm⟩ := h.tracked j kj hj'
    exact ⟨m - c, (hbm _ _).2 ⟨by rw [Int.sub_add_cancel]; exact hm, hne⟩⟩
  · obtain ⟨hj', hne⟩ := (hbm j jd).1 hj
    obtain ⟨kj, hkj⟩ := h.live _ jd hj'
    exact ⟨kj, (hp jd kj).2 ⟨hkj, hne⟩⟩
  · have := h.inj _ _ jd ((hbm a jd).1 hja).1 ((hbm b jd).1 hjb).1
    omega
  · rw [h.place _ jd kj ((hbm j jd).1 hj).1 ((hp jd kj).1 hkj).1 hunj]
    show _ = tx.txBmBasePsn + pw c + pw j
    rw [BitVec.add_assoc, pw_add, Int.add_comm]

theorem TxInv.abandon (hl : id ∈ tx.txPktList) (hk : tx.pkts id = some k) :
    TxInv (((Uet.Pds.unsetTracked tx k.psn).unlink id).setPkt id none) := by
  obtain ⟨k0, hk0, hun⟩ := (h.listed id).1 hl
  cases hk.symm.trans hk0
  obtain ⟨i, hg⟩ := h.tracked id k hk
  have hbm : ∀ j jd, (tx.txBm.unset i).get j = some jd ↔ tx.txBm.get (j + 0) = some jd ∧ jd ≠ id := by
    intro j jd
    rw [PtrBitmap.get_unset, Int.add_zero]
    split_ifs with he
    · subst he
      simp [hg, eq_comm]
    · exact ⟨fun hj => ⟨hj, fun hid => he (h.inj j i id (hid ▸ hj) hg)⟩, And.left⟩
  have hdrop := h.drop 0 hbm (h.nodup.erase id) fun j => by rw [h.nodup.mem_erase_iff, and_comm]
  rw [h.unsetTracked hg hk hun]
  rwa [show BitVec.ofInt 32 0 = 0#32 from rfl, BitVec.add_zero] at hdrop

theorem TxInv.shift (hg : tx.txBm.get 0 = some id) (hack : tx.acked id = true) :
    TxInv ({ tx with txBm := tx.txBm.shiftRight 1, txBmBasePsn := tx.txBmBasePsn + 1 }.setPkt id none) := by
  refine h.drop 1 (fun j jd => ⟨fun hj => ?_, fun ⟨hj, hne⟩ => ?_⟩) h.nodup fun j =>
    ⟨fun hj => ⟨hj, fun he => ?_⟩, And.left⟩
  · have h0 := (PtrBitmap.get_range _ j (by rw [hj]; simp)).1
    rw [PtrBitmap.get_shiftRight _ _ _ h0] at hj
    refine ⟨hj, fun hid => ?_⟩
    have := h.inj _ _ id (hid ▸ hj) hg
    omega
  · have h0 := (PtrBitmap.get_range _ _ (by rw [hj]; simp)).1
    have hj0 : j ≠ -1 := by
      rintro rfl
      exact hne (some.inj (hj.symm.trans hg))
    rw [PtrBitmap.get_shiftRight _ _ _ (by omega)]
    exact hj
  · obtain ⟨k, hk, hun⟩ := (h.listed j).1 hj
    rw [← he, acked_eq hk, hun] at hack
    cases hack

theorem TxInv.track (hct : cannotTrack tx tx.nextPsn = false) (hp : k.psn = tx.nextPsn)
    (hun : k.txPktAcked = false) : TxInv (trackPkt tx k) := by
  rw [cannotTrack] at hct
  simp only [Bool.or_eq_false_iff, Bool.not_eq_false', isSome_eq_false_iff, isNone_iff_eq_none] at hct
  obtain ⟨hnone, hset⟩ := hct
  rw [← hp] at hnone hset
  rw [trackPkt]
  set i := psnOffset k.psn tx.txBmBasePsn with hi
  have hrange := (PtrBitmap.settable_iff _ _ _).1 hset
  have hbm : ∀ j jd, (tx.txBm.set i tx.nextId).get j = some jd →
      j = i ∧ jd = tx.nextId ∨ j ≠ i ∧ tx.txBm.get j = some jd := by
    intro j jd hj
    rw [PtrBitmap.get_set] at hj
    split_ifs at hj with he
    · cases hj
      exact Or.inl ⟨he.1, rfl⟩
    · exact Or.inr ⟨fun hji => he ⟨hji, hrange⟩, hj⟩
  have hnew : ∀ j jd, tx.txBm.get j = some jd → jd ≠ tx.nextId := by
    intro j jd hj he
    obtain ⟨kj, hkj⟩ := h.live j jd hj
    have hlt := h.fresh jd kj hkj
    rw [he] at hlt
    exact lt_irrefl _ hlt
  have hpk : ∀ j kj, (if j = tx.nextId then some k else tx.pkts j) = some kj →
      j = tx.nextId ∧ kj = k ∨ j ≠ tx.nextId ∧ tx.pkts j = some kj := by
    intro j kj hj
    split_ifs at hj with he
    · cases hj
      exact Or.inl ⟨he, rfl⟩
    · exact Or.inr ⟨he, hj⟩
  have hout : tx.nextId ∉ tx.txPktList := by
    intro hm
    obtain ⟨k0, hk0, -⟩ := (h.listed _).1 hm
    exact lt_irrefl _ (h.fresh _ k0 hk0)
  constructor
  · rw [nodup_append]
    refine ⟨h.nodup, by simp, ?_⟩
    rintro a ha b hb rfl
    rw [mem_singleton] at hb
    exact hout (hb ▸ ha)
  · intro j
    rw [mem_append, mem_singleton, h.listed]
    by_cases he : j = tx.nextId
    · simp [he, hun]
    · simp [he]
  · intro j kj hj
    rcases hpk j kj hj with ⟨rfl, -⟩ | ⟨hne, hj'⟩
    · exact ⟨i, (PtrBitmap.get_set _ _ _ _).trans (if_pos ⟨rfl, hrange⟩)⟩
    obtain ⟨m, hm⟩ := h.tracked j kj hj'
    refine ⟨m, (PtrBitmap.get_set _ _ _ _).trans ((if_neg fun hc => ?_).trans hm)⟩
    rw [hc.1, hnone] at hm
    cases hm
  · intro j jd hj
    rcases hbm j jd hj with ⟨-, rfl⟩ | ⟨-, hj'⟩
    · exact ⟨k, if_pos rfl⟩
    · obtain ⟨kj, hkj⟩ := h.live j jd hj'
      exact ⟨kj, (if_neg (hnew j jd hj')).trans hkj⟩
  · intro a b jd ha hb
    rcases hbm a jd ha with ⟨ha1, hid⟩ | ⟨ha1, ha2⟩ <;> rcases hbm b jd hb with ⟨hb1, hid'⟩ | ⟨hb1, hb2⟩
    · rw [ha1, hb1]
    · exact absurd hid (hnew b jd hb2)
    · exact absurd hid' (hnew a jd ha2)
    · exact h.inj a b jd ha2 hb2
  · intro j jd kj hj hkj hunj
    rcases hbm j jd hj with ⟨rfl, rfl⟩ | ⟨hne, hj'⟩
    · rcases hpk _ kj hkj with ⟨-, rfl⟩ | ⟨hne, -⟩
      · have hb : pw tx.txBmBasePsn.toInt = tx.txBmBasePsn := wrap_toInt _
        have := pw_add_psnOffset tx.txBmBasePsn.toInt kj.psn
        rw [hb, ← hi, ← pw_add, hb] at this
        exact this.symm
      · exact absurd rfl hne
    · rcases hpk jd kj hkj with ⟨he, -⟩ | ⟨-, hkj'⟩
      · exact absurd he (hnew j jd hj')
      · exact h.place j jd kj hj' hkj' hunj
  · intro j kj hj
    rcases hpk j kj hj with ⟨rfl, -⟩ | ⟨-, hj'⟩
    · exact Nat.lt_succ_self _
    · exact Nat.lt_succ_of_lt (h.fresh j kj hj')

theorem TxInv.relink (hk : tx.pkts id = some k) (hun : k.txPktAcked = false) :
    TxInv ((tx.unlink id).linkTail id) := by
  have hmem : id ∈ tx.txPktList := (h.listed id).2 ⟨k, hk, hun⟩
  refine ⟨?_, fun j => ?_, h.tracked, h.live, h.inj, h.place, h.fresh⟩
  · show (tx.txPktList.erase id ++ [id]).Nodup
    rw [nodup_append]
    refine ⟨h.nodup.erase id, by simp, ?_⟩
    rintro a ha b hb rfl
    rw [mem_singleton] at hb
    exact (h.nodup.mem_erase_iff.1 ha).1 hb
  · show j ∈ tx.txPktList.erase id ++ [id] ↔ ∃ kj, tx.pkts j = some kj ∧ _
    rw [mem_append, mem_singleton, h.nodup.mem_erase_iff, ← h.listed]
    by_cases he : j = id <;> simp [he, hmem]

end

/-! ## Re-basing the window -/

/-- A queued packet moved by `delta`. -/
def restamp (env : Env) (delta : Psn) (k : TxPkt) : TxPkt :=
  { k with
    psn := k.psn + delta, hdr := setHdrPsn (k.psn + delta) k.hdr, txRetryCnt := 0, txTime := env.now }

/-- The transmit side moved by `delta`. -/
def rebased (env : Env) (delta : Psn) (tx : TxSide) : TxSide :=
  { tx with
    nextPsn := tx.nextPsn + delta
    txBmBasePsn := tx.txBmBasePsn + delta
    maxCackPsn := tx.maxCackPsn + delta
    pkts := fun j => if j ∈ tx.txPktList then (tx.pkts j).map (restamp env delta) else tx.pkts j }

theorem restampFold_eq (env : Env) (q : Pdc) (delta : Psn) (ids : List PktId) (tx : TxSide)
    (hnd : ids.Nodup) (hun : ∀ id ∈ ids, ∃ k, tx.pkts id = some k ∧ k.txPktAcked = false) :
    (foldPkts (restampPkt env q delta) ids tx).1 = { tx with
        pkts := fun j => if j ∈ ids then (tx.pkts j).map (restamp env delta) else tx.pkts j } ∧
    ∀ o ∈ (foldPkts (restampPkt env q delta) ids tx).2, ∃ id ∈ ids, ∃ k, tx.pkts id = some k ∧
      o = .tx (q.frame (restamp env delta k).hdr) := by
  induction ids generalizing tx with
  | nil => exact ⟨by simp [foldPkts], by simp [foldPkts]⟩
  | cons id ids ih =>
    obtain ⟨hnotin, hnd'⟩ := nodup_cons.1 hnd
    obtain ⟨k, hk, hka⟩ := hun id mem_cons_self
    have hstep : restampPkt env q delta tx id = (tx.setPkt id (some (restamp env delta k)),
        sendFrame env (q.frame (restamp env delta k).hdr)) := by
      rw [restampPkt, hk]
      simp [hka, restamp]
    have hother : ∀ j ∈ ids, (tx.setPkt id (some (restamp env delta k))).pkts j = tx.pkts j := by
      intro j hj
      exact if_neg fun (he : j = id) => hnotin (he ▸ hj)
    obtain ⟨h1, h2⟩ := ih (tx.setPkt id (some (restamp env delta k))) hnd' fun j hj => by
      rw [hother j hj]
      exact hun j (mem_cons_of_mem _ hj)
    rw [foldPkts, hstep]
    refine ⟨?_, fun o ho => ?_⟩
    · rw [h1]
      have : ∀ j, (if j ∈ ids then
            ((tx.setPkt id (some (restamp env delta k))).pkts j).map (restamp env delta)
          else (tx.setPkt id (some (restamp env delta k))).pkts j) =
          if j ∈ id :: ids then (tx.pkts j).map (restamp env delta) else tx.pkts j := by
        intro j
        by_cases hj : j ∈ ids
        · rw [if_pos hj, if_pos (mem_cons_of_mem _ hj), hother j hj]
        by_cases he : j = id
        · subst he
          simp [hj, setPkt_pkts, hk]
        · rw [if_neg hj, if_neg (by simp [he, hj]), setPkt_pkts, if_neg he]
      simp only [this]
      rfl
    · rcases mem_append.1 ho with hs | hr
      · rw [sendFrame] at hs
        split_ifs at hs
        · exact ⟨id, mem_cons_self, k, hk, mem_singleton.1 hs⟩
        · cases hs
      · obtain ⟨j, hj, kj, hkj, he⟩ := h2 o hr
        exact ⟨j, mem_cons_of_mem _ hj, kj, (hother j hj).symm.trans hkj, he⟩

/-- A NEW_START_PSN NACK leaves the PDC alone or moves it to the start PSN it names,
re-sending every queued packet under its new PSN. -/
theorem reestablishStartPsn_cases (env : Env) (p : Pdc) (v : Psn) (h : TxInv p.tx) :
    reestablishStartPsn env p v = (p, []) ∨
    p.state = .syn ∧ (reestablishStartPsn env p v).1 =
        { p with startPsn := v, tx := rebased env (v - p.startPsn) p.tx,
                 rx := { p.rx with rxBmBasePsn := p.rx.rxBmBasePsn + (v - p.startPsn) } } ∧
      ∀ o ∈ (reestablishStartPsn env p v).2, ∃ id ∈ p.tx.txPktList, ∃ k, p.tx.pkts id = some k ∧
        o = .tx (p.frame (restamp env (v - p.startPsn) k).hdr) := by
  rw [reestablishStartPsn]
  dsimp only
  split_ifs with h1 h2
  · exact Or.inl rfl
  · exact Or.inl rfl
  refine Or.inr ⟨by simpa using h1, ?_⟩
  have hv : p.startPsn + (v - p.startPsn) = v := by
    rw [BitVec.add_comm, BitVec.sub_add_cancel]
  set d := v - p.startPsn with hd
  set q : Pdc := { p with
    startPsn := p.startPsn + d
    tx := { p.tx with nextPsn := p.tx.nextPsn + d, txBmBasePsn := p.tx.txBmBasePsn + d,
                      maxCackPsn := p.tx.maxCackPsn + d }
    rx := { p.rx with rxBmBasePsn := p.rx.rxBmBasePsn + d } } with hq
  obtain ⟨ha, hb⟩ := restampFold_eq env q d p.tx.txPktList q.tx h.nodup
    fun id hid => (h.listed id).1 hid
  refine ⟨?_, hb⟩
  rw [ha, hq]
  simp only [hv]
  rfl

theorem TxInv.rebased (h : TxInv tx) (env : Env) (delta : Psn) : TxInv (rebased env delta tx) := by
  have hl : ∀ j k, tx.pkts j = some k → (j ∈ tx.txPktList ↔ k.txPktAcked = false) := by
    intro j k hk
    rw [h.listed, hk]
    simp
  refine h.renew (f := fun j k => if j ∈ tx.txPktList then restamp env delta k else k) delta rfl rfl rfl
    (fun j => ?_) (fun j k hk hun => ?_) h.nodup (fun _ hm => hm) fun j k hk => (hl j k hk).trans ?_
  · simp only [Uet.Pds.rebased]
    split_ifs
    · rfl
    · exact map_id'.symm
  · have hm := hl j k hk
    split_ifs at hun ⊢ with hj
    · exact ⟨hun, rfl⟩
    · exact absurd (hm.2 hun) hj
  · split_ifs <;> rfl

theorem mem_trackedPkts {α : Type} (bm : PtrBitmap α 2) (a : α) :
    a ∈ trackedPkts bm ↔ ∃ i, bm.get i = some a := by
  rw [trackedPkts, mem_filterMap]
  constructor
  · rintro ⟨i, -, h⟩
    exact ⟨i, h⟩
  · rintro ⟨i, h⟩
    obtain ⟨h0, h1⟩ := PtrBitmap.get_range bm i (by rw [h]; simp)
    refine ⟨i.toNat, mem_range.2 (show i.toNat < 128 by omega), ?_⟩
    rw [show ((i.toNat : Nat) : Int) = i by omega]
    exact h

theorem TxInv.free_pkts (h : TxInv tx) (id : PktId) : (freeTxPkts tx).1.pkts id = none := by
  show (if id ∈ trackedPkts tx.txBm then none else tx.pkts id) = none
  split_ifs with hm
  · rfl
  cases hk : tx.pkts id with
  | none => rfl
  | some k => exact absurd ((mem_trackedPkts _ _).2 (h.tracked id k hk)) hm

theorem TxInv.free (h : TxInv tx) : TxInv (freeTxPkts tx).1 := by
  have hp := h.free_pkts
  have hbm : ∀ i, (freeTxPkts tx).1.txBm.get i = none := fun i => PtrBitmap.get_clear _ i
  constructor
  · exact nodup_nil
  · intro id
    rw [hp]
    simp [freeTxPkts]
  · intro id k hk
    rw [hp] at hk
    cases hk
  · intro i id hi
    rw [hbm] at hi
    cases hi
  · intro i j id hi
    rw [hbm] at hi
    cases hi
  · intro i id k hi
    rw [hbm] at hi
    cases hi
  · intro id k hk
    rw [hp] at hk
    cases hk

/-! ## The log -/

/-- The output ends the packet `id`: its response, its failure or its drop. -/
def Out.ends (id : PktId) : Out → Bool
  | .rxRsp j _ _ => j == id
  | .pdsErr j _ => j == id
  | .dropped j => j == id
  | _ => false

def Out.frees (id : PktId) : Out → Bool
  | .freedPkt j => j == id
  | _ => false

def Apart (a b : Out) : Prop := ∀ id, a.ends id = true ∨ a.frees id = true → b.ends id = false

structure Ages (tx tx' : TxSide) : Prop where
  nextId : tx.nextId ≤ tx'.nextId
  old : ∀ id k', tx'.pkts id = some k' → id < tx.nextId →
    ∃ k, tx.pkts id = some k ∧ (k.txPktAcked = true → k'.txPktAcked = true)

theorem Ages.refl (tx : TxSide) : Ages tx tx := ⟨le_rfl, fun _ k hk _ => ⟨k, hk, fun h => h⟩⟩

/-- The log and the transmit side: a packet ended in the log is acknowledged or gone,
one freed is gone, and the upcall due for `u` has not been made. -/
structure Acct (u : Option PktId) (log : List Out) (tx : TxSide) : Prop where
  inv : TxInv tx
  ended : ∀ id, ∀ o ∈ log, o.ends id = true →
    id < tx.nextId ∧ ∀ k, tx.pkts id = some k → k.txPktAcked = true
  freed : ∀ id, ∀ o ∈ log, o.frees id = true → id < tx.nextId ∧ tx.pkts id = none
  due : ∀ id, u = some id → (∀ o ∈ log, o.ends id = false ∧ o.frees id = false) ∧
    ∃ k, tx.pkts id = some k ∧ k.txPktAcked = true
  apart : log.Pairwise Apart

theorem Acct.unacked (h : Acct u log tx) (hk : tx.pkts id = some k) (hun : k.txPktAcked = false) :
    ∀ o ∈ log, o.ends id = false ∧ o.frees id = false := by
  intro o ho
  constructor
  · by_contra hc
    have := (h.ended id o ho (by simpa using hc)).2 k hk
    rw [hun] at this
    cases this
  · by_contra hc
    have := (h.freed id o ho (by simpa using hc)).2
    rw [hk] at this
    cases this

/-- The outputs `os` extend the log, the transmit side becoming `tx'`. -/
theorem Acct.extend (h : Acct u log tx) (hinv : TxInv tx') (hage : Ages tx tx')
    (hends : ∀ o ∈ os, ∀ id, o.ends id = true → (∀ a ∈ log, a.ends id = false ∧ a.frees id = false) ∧
      id < tx.nextId ∧ ∀ k, tx'.pkts id = some k → k.txPktAcked = true)
    (hfrees : ∀ o ∈ os, ∀ id, o.frees id = true → id < tx.nextId ∧ tx'.pkts id = none) (hos : os.Pairwise Apart)
    (hop : ∀ id, u' = some id → u = some id ∧
      (∀ o ∈ os, o.ends id = false ∧ o.frees id = false) ∧ ∃ k, tx'.pkts id = some k) : Acct u' (log ++ os) tx' := by
  have hold : ∀ id, id < tx.nextId → tx.pkts id = none → tx'.pkts id = none := by
    intro id hlt hk
    by_contra hne
    obtain ⟨k', hk'⟩ := ne_none_iff_exists'.1 hne
    obtain ⟨k, hk0, -⟩ := hage.old id k' hk' hlt
    rw [hk] at hk0
    cases hk0
  refine ⟨hinv, fun id o ho he => ?_, fun id o ho hf => ?_, fun id hid => ?_, ?_⟩
  · rcases mem_append.1 ho with hl | hn
    · obtain ⟨hlt, hack⟩ := h.ended id o hl he
      refine ⟨lt_of_lt_of_le hlt hage.nextId, fun k' hk' => ?_⟩
      obtain ⟨k, hk, ha⟩ := hage.old id k' hk' hlt
      exact ha (hack k hk)
    · obtain ⟨-, hlt, hack⟩ := hends o hn id he
      exact ⟨lt_of_lt_of_le hlt hage.nextId, hack⟩
  · rcases mem_append.1 ho with hl | hn
    · obtain ⟨hlt, hk⟩ := h.freed id o hl hf
      exact ⟨lt_of_lt_of_le hlt hage.nextId, hold id hlt hk⟩
    · obtain ⟨hlt, hk⟩ := hfrees o hn id hf
      exact ⟨lt_of_lt_of_le hlt hage.nextId, hk⟩
  · obtain ⟨hop1, hno, k', hk'⟩ := hop id hid
    obtain ⟨hlog, k, hk, ha⟩ := h.due id hop1
    refine ⟨fun o ho => ?_, k', hk', ?_⟩
    · rcases mem_append.1 ho with hl | hn
      · exact hlog o hl
      · exact hno o hn
    · obtain ⟨k0, hk0, hage0⟩ := hage.old id k' hk' (h.inv.fresh id k hk)
      rw [hk] at hk0
      cases hk0
      exact hage0 ha
  · rw [pairwise_append]
    refine ⟨h.apart, hos, fun a ha b hb id hid => ?_⟩
    by_contra hc
    obtain ⟨hlog, -⟩ := hends b hb id (by simpa using hc)
    rcases hid with h1 | h1
    · rw [(hlog a ha).1] at h1
      cases h1
    · rw [(hlog a ha).2] at h1
      cases h1

def Silent (os : List Out) : Prop := ∀ o ∈ os, ∀ id, o.ends id = false ∧ o.frees id = false

theorem Silent.nil : Silent [] := fun _ h => by cases h

theorem Silent.one (f : Frame) : Silent [.tx f] := by
  intro o ho id
  rw [mem_singleton] at ho
  subst ho
  exact ⟨rfl, rfl⟩

theorem Quiet.silent (h : Quiet os) : Silent os := by
  intro o ho id
  have := h o ho
  cases o <;> simp_all [Out.quiet, Out.mute, Out.ends, Out.frees]

theorem Silent.pairwise (h : Silent os) : os.Pairwise Apart := by
  rw [pairwise_iff_forall_sublist]
  intro a b hs id _
  exact (h b (hs.subset (by simp)) id).1

theorem Acct.silent (h : Acct u log tx) (hos : Silent os) (hinv : TxInv tx') (hage : Ages tx tx')
    (hlive : ∀ id k, tx.pkts id = some k → ∃ k', tx'.pkts id = some k') : Acct u (log ++ os) tx' := by
  refine h.extend hinv hage (fun o ho id he => ?_) (fun o ho id hf => ?_) hos.pairwise
    fun id hid => ⟨hid, fun o ho => hos o ho id, ?_⟩
  · rw [(hos o ho id).1] at he
    cases he
  · rw [(hos o ho id).2] at hf
    cases hf
  · obtain ⟨-, k, hk, -⟩ := h.due id hid
    exact hlive id k hk

/-! ## Every move keeps the account -/

theorem Ages.setPkt (hk : tx.pkts id = some k) (ha : k.txPktAcked = true → k'.txPktAcked = true) :
    Ages tx (tx.setPkt id (some k')) := by
  refine ⟨le_rfl, fun j kj hj _ => ?_⟩
  rw [setPkt_pkts] at hj
  split_ifs at hj with he
  · cases hj
    exact ⟨k, he ▸ hk, ha⟩
  · exact ⟨kj, hj, fun h => h⟩

theorem Ages.drop (hn : tx'.nextId = tx.nextId) (hp : ∀ j, tx'.pkts j = if j = id then none else tx.pkts j) :
    Ages tx tx' := by
  refine ⟨hn ▸ le_rfl, fun j kj hj _ => ?_⟩
  rw [hp] at hj
  split_ifs at hj
  exact ⟨kj, hj, fun h => h⟩

theorem Acct.sameCore (h : Acct u log tx) (hos : Silent os) (hs : SameCore tx tx') : Acct u (log ++ os) tx' :=
  h.silent hos (h.inv.congr hs)
    ⟨hs.nextId ▸ le_rfl, fun _ k hk _ => ⟨k, hs.pkts ▸ hk, fun h => h⟩⟩
    fun _ k hk => ⟨k, hs.pkts ▸ hk⟩

theorem Acct.setPkt (h : Acct u log tx) (hk : tx.pkts id = some k) (hp : k'.psn = k.psn)
    (ha : k'.txPktAcked = k.txPktAcked) : Acct u (log ++ []) (tx.setPkt id (some k')) := by
  refine h.silent .nil (h.inv.setPkt hk hp ha) (Ages.setPkt hk fun hk1 => ha.trans hk1) ?_
  intro j kj hj
  rw [setPkt_pkts]
  split_ifs
  · exact ⟨k', rfl⟩
  · exact ⟨kj, hj⟩

theorem Acct.sackStep (h : Acct u log tx) (pp : ParsedPkt) (i : Nat) : Acct u (log ++ []) (sackStep pp tx i) := by
  rw [Uet.Pds.sackStep]
  dsimp only
  split_ifs
  · rw [append_nil]; exact h
  · rw [append_nil]; exact h
  · rw [append_nil]; exact h
  cases hg : tx.txBm.get (psnOffset (pp.sackBasePsn + BitVec.ofNat 32 i) tx.txBmBasePsn) with
  | none => rw [append_nil]; exact h
  | some id =>
    obtain ⟨k, hk⟩ := h.inv.live _ id hg
    dsimp only
    rw [TxSide.modPkt, hk]
    exact h.setPkt hk rfl rfl

theorem Ages.markAcked (hk : tx.pkts id = some k) : Ages tx (markAcked tx id) := by
  refine ⟨le_rfl, fun j kj hj _ => ?_⟩
  rw [markAcked_pkts hk] at hj
  split_ifs at hj with he
  · cases hj
    exact ⟨k, he ▸ hk, fun _ => rfl⟩
  · exact ⟨kj, hj, fun h => h⟩

theorem markAcked_live {j : PktId} {kj : TxPkt} (hk : tx.pkts id = some k) (hj : tx.pkts j = some kj) :
    ∃ k', (markAcked tx id).pkts j = some k' := by
  rw [markAcked_pkts hk]
  split_ifs
  · exact ⟨_, rfl⟩
  · exact ⟨kj, hj⟩

theorem Acct.ack (h : Acct none log tx) (hg : tx.txBm.get i = some id) (hun : tx.acked id = false) :
    Acct (some id) (log ++ []) (markAcked tx id) := by
  obtain ⟨k, hk⟩ := h.inv.live i id hg
  rw [acked_eq hk] at hun
  have hs := h.silent .nil (h.inv.markAcked hk) (Ages.markAcked hk)
    fun j kj hj => markAcked_live hk hj
  refine ⟨hs.inv, hs.ended, hs.freed, fun j hj => ?_, hs.apart⟩
  cases hj
  rw [append_nil]
  exact ⟨h.unacked hk hun, _, (markAcked_pkts hk id).trans (if_pos rfl), rfl⟩

theorem Acct.cackRsp (h : Acct u log tx) (hg : tx.txBm.get i = some id) (hun : tx.acked id = false)
    (hd : Option Handle) : Acct u (log ++ [.rxRsp id hd none]) (Uet.Pds.markAcked tx id) := by
  obtain ⟨k, hk⟩ := h.inv.live i id hg
  rw [acked_eq hk] at hun
  refine h.extend (h.inv.markAcked hk) (Ages.markAcked hk) (fun o ho j he => ?_)
    (fun o ho j hf => ?_) (pairwise_singleton _ _) fun j hj => ⟨hj, fun o ho => ?_, ?_⟩
  · rw [mem_singleton] at ho
    subst ho
    have hj : id = j := by simpa [Out.ends] using he
    subst hj
    refine ⟨h.unacked hk hun, h.inv.fresh id k hk, fun k' hk' => ?_⟩
    rw [markAcked_pkts hk, if_pos rfl] at hk'
    cases hk'
    rfl
  · rw [mem_singleton] at ho
    subst ho
    cases hf
  · rw [mem_singleton] at ho
    subst ho
    obtain ⟨-, kj, hkj, hack⟩ := h.due j hj
    have hne : id ≠ j := by
      rintro rfl
      rw [hk] at hkj
      cases hkj
      rw [hun] at hack
      cases hack
    exact ⟨by simpa [Out.ends] using hne, rfl⟩
  · obtain ⟨-, kj, hkj, -⟩ := h.due j hj
    exact markAcked_live hk hkj

theorem Acct.respond (h : Acct (some id) log tx) (hd : Option Handle) (r : SesHdr) :
    Acct none (log ++ [.rxRsp id hd (some r)]) tx := by
  obtain ⟨hlog, k, hk, hack⟩ := h.due id rfl
  refine h.extend h.inv (.refl tx) (fun o ho j he => ?_) (fun o ho j hf => ?_)
    (pairwise_singleton _ _) fun _ hj => nomatch hj
  · rw [mem_singleton] at ho
    subst ho
    have hj : id = j := by simpa [Out.ends] using he
    subst hj
    refine ⟨hlog, h.inv.fresh id k hk, fun k' hk' => ?_⟩
    rw [hk] at hk'
    cases hk'
    exact hack
  · rw [mem_singleton] at ho
    subst ho
    cases hf

theorem Acct.forget (h : Acct u log tx) : Acct none (log ++ []) tx := by
  rw [append_nil]
  exact ⟨h.inv, h.ended, h.freed, (fun _ hid => nomatch hid), h.apart⟩

/-- A packet leaves the heap: `os` ends it if it was un-ACKed, then it is freed. -/
theorem Acct.release (h : Acct none log tx) (hk : tx.pkts id = some k) (hinv : TxInv tx')
    (hn : tx'.nextId = tx.nextId) (hp : ∀ j, tx'.pkts j = if j = id then none else tx.pkts j)
    (hos : os = [] ∨ k.txPktAcked = false ∧ ∃ o, os = [o] ∧ (∀ j, o.ends j = true → j = id) ∧
      ∀ j, o.frees j = false) : Acct none (log ++ (os ++ [.freedPkt id])) tx' := by
  have hfree : ∀ o ∈ os ++ [.freedPkt id], ∀ j, o.frees j = true → j = id := by
    intro o ho j hf
    rcases mem_append.1 ho with ho | ho
    · rcases hos with rfl | ⟨-, o', rfl, -, hno⟩
      · cases ho
      · rw [mem_singleton] at ho
        subst ho
        rw [hno] at hf
        cases hf
    · rw [mem_singleton] at ho
      subst ho
      exact (beq_iff_eq.1 hf).symm
  refine h.extend hinv (.drop hn hp) (fun o ho j he => ?_) (fun o ho j hf => ?_) ?_
    fun _ hj => nomatch hj
  · rcases mem_append.1 ho with ho | ho
    · rcases hos with rfl | ⟨hun, o', rfl, hj, -⟩
      · cases ho
      · rw [mem_singleton] at ho
        subst ho
        cases hj j he
        refine ⟨h.unacked hk hun, h.inv.fresh id k hk, fun k' hk' => ?_⟩
        rw [hp, if_pos rfl] at hk'
        cases hk'
    · rw [mem_singleton] at ho
      subst ho
      cases he
  · cases hfree o ho j hf
    exact ⟨h.inv.fresh id k hk, by rw [hp, if_pos rfl]⟩
  · rcases hos with rfl | ⟨-, o, rfl, -, -⟩
    · exact pairwise_singleton _ _
    · exact pairwise_pair.2 fun j _ => rfl

theorem Acct.track (h : Acct u log tx) (hct : cannotTrack tx tx.nextPsn = false) (hp : k.psn = tx.nextPsn)
    (hun : k.txPktAcked = false) (f : Frame) : Acct u (log ++ [.tx f]) (trackPkt tx k) := by
  refine h.silent (.one f) (h.inv.track hct hp hun) ⟨Nat.le_succ _, fun j kj hj hlt => ?_⟩ ?_
  · have hne : j ≠ tx.nextId := ne_of_lt hlt
    exact ⟨kj, (if_neg hne).symm.trans hj, fun h => h⟩
  · intro j kj hj
    exact ⟨kj, (if_neg (ne_of_lt (h.inv.fresh j kj hj))).trans hj⟩

theorem Acct.rebase (h : Acct none log p.tx) (env : Env) (v : Psn) :
    Acct none (log ++ (reestablishStartPsn env p v).2) (reestablishStartPsn env p v).1.tx := by
  rcases reestablishStartPsn_cases env p v h.inv with he | ⟨-, he, hos⟩
  · rw [he, append_nil]
    exact h
  rw [he]
  refine h.silent (fun o ho j => ?_) (h.inv.rebased env _) ⟨le_rfl, fun j kj hj _ => ?_⟩
    fun j kj hj => ?_
  · obtain ⟨_, _, k, _, rfl⟩ := hos o ho
    exact ⟨rfl, rfl⟩
  · simp only [rebased] at hj
    split_ifs at hj
    · obtain ⟨k, hk, rfl⟩ := map_eq_some_iff.1 hj
      exact ⟨k, hk, fun h => h⟩
    · exact ⟨kj, hj, fun h => h⟩
  · simp only [rebased]
    split_ifs
    · exact ⟨_, by rw [hj]; rfl⟩
    · exact ⟨kj, hj⟩

theorem Acct.free (h : Acct none log p.tx) : Acct none (log ++ (freePdc p).2) (freePdc p).1.tx := by
  have hp := h.inv.free_pkts
  have hmem : ∀ o ∈ (freePdc p).2, (∀ id, o.ends id = false) ∧
      ∀ id, o.frees id = true → id ∈ trackedPkts p.tx.txBm := by
    intro o ho
    rcases mem_append.1 ho with ho | ho
    · obtain ⟨id, hid, rfl⟩ := mem_map.1 ho
      exact ⟨fun _ => rfl, fun j hj => (show id = j by simpa [Out.frees] using hj) ▸ hid⟩
    rw [mem_singleton] at ho
    subst ho
    exact ⟨fun _ => rfl, fun id hf => by cases hf⟩
  refine h.extend h.inv.free ⟨le_rfl, fun j kj hj _ => ?_⟩ (fun o ho j he => ?_)
    (fun o ho j hf => ?_) ?_ fun _ hj => nomatch hj
  · rw [show (freePdc p).1.tx.pkts j = none from hp j] at hj
    cases hj
  · rw [(hmem o ho).1] at he
    cases he
  · obtain ⟨i, hi⟩ := (mem_trackedPkts _ _).1 ((hmem o ho).2 j hf)
    obtain ⟨k, hk⟩ := h.inv.live i j hi
    exact ⟨h.inv.fresh j k hk, hp j⟩
  · rw [pairwise_iff_forall_sublist]
    intro a b hs id _
    exact (hmem b (hs.subset (by simp))).1 id

theorem Mute.quiet (h : ∀ o ∈ os, o.mute = true) : Quiet os := by
  intro o ho
  have hm := h o ho
  cases o <;> first | exact hm | cases hm

theorem Acct.move {w : Option ParsedPkt} {b : Prop} {R : Bool → RxSide → List Out → RxSide → Prop} {p' : Pdc}
    (h : Acct u log p.tx) (m : Move w b R u p os u' p') : Acct u' (log ++ os) p'.tx := by
  cases m with
  | note _ hq => exact h.sameCore (Quiet.silent (Mute.quiet hq)) ⟨rfl, rfl, rfl, rfl, rfl⟩
  | recv rx _ hq _ => exact h.sameCore (Quiet.silent hq) ⟨rfl, rfl, rfl, rfl, rfl⟩
  | newStart env pp _ _ _ =>
    refine h.sameCore (fun o ho id => ?_) ⟨rfl, rfl, rfl, rfl, rfl⟩
    rw [txNack, sendFrame] at ho
    split_ifs at ho
    · rw [mem_singleton.1 ho]
      exact ⟨rfl, rfl⟩
    · cases ho
  | ctl hc =>
    rw [hc.tx]
    exact h.sameCore .nil ⟨rfl, rfl, rfl, rfl, rfl⟩
  | signal hd _ => exact h.sameCore (.one _) ⟨rfl, rfl, rfl, rfl, rfl⟩
  | cack pp _ _ _ => exact h.sameCore .nil ⟨rfl, rfl, rfl, rfl, rfl⟩
  | mpr pp _ _ =>
    refine h.sameCore .nil ?_
    rw [processMpr]
    split_ifs <;> exact ⟨rfl, rfl, rfl, rfl, rfl⟩
  | sack => exact h.sackStep ..
  | touch id k k' hk hs => exact h.setPkt hk hs.psn hs.acked
  | resend id k _ _ _ => exact h.sameCore (.one _) ⟨rfl, rfl, rfl, rfl, rfl⟩
  | ack pp _ _ id hg hun => exact h.ack hg hun
  | respond => exact h.respond ..
  | forget => exact h.forget
  | cackRsp i id _ hg hun => exact h.cackRsp hg hun _
  | abandon id k os _ hl hk hos =>
    obtain ⟨k0, hk0, hun⟩ := (h.inv.listed id).1 hl
    rw [hk] at hk0
    cases hk0
    obtain ⟨i, hg⟩ := h.inv.tracked id k hk
    have hinv := h.inv.abandon hl hk
    have hu := h.inv.unsetTracked hg hk hun
    refine h.release hk hinv ?_ ?_ ?_
    · rw [hu]
      rfl
    · intro j
      rw [hu]
      rfl
    · rcases hos with rfl | ⟨hd, rfl⟩ | rfl
      · exact Or.inl rfl
      · exact Or.inr ⟨hun, _, rfl, fun j hj => (beq_iff_eq.1 hj).symm, fun _ => rfl⟩
      · exact Or.inr ⟨hun, _, rfl, fun j hj => (beq_iff_eq.1 hj).symm, fun _ => rfl⟩
  | shift id hg hack =>
    obtain ⟨k, hk⟩ := h.inv.live 0 id hg
    have hrel := h.release hk (h.inv.shift hg hack) rfl (fun _ => rfl) (Or.inl rfl)
    exact hrel
  | trackReq env r _ _ _ hct => exact h.track hct rfl rfl _
  | sendClose _ _ _ _ _ _ _ hct t => exact h.track hct rfl rfl _
  | sendCloseReq _ _ _ hct t => exact h.track hct rfl rfl _
  | relink id k hk hun =>
    exact h.silent .nil (h.inv.relink hk hun)
      ⟨le_rfl, fun j kj hj _ => ⟨kj, hj, fun h => h⟩⟩ fun j kj hj => ⟨kj, hj⟩
  | rebase env pp _ _ => exact h.rebase env pp.payload
  | free => exact h.free
  | closed rx os hq _ =>
    rw [← append_assoc]
    exact Acct.free (p := { p with rx })
      (h.sameCore (Quiet.silent hq) ⟨rfl, rfl, rfl, rfl, rfl⟩)

theorem Pdc.released.move {w : Option ParsedPkt} {b : Prop} {R : Bool → RxSide → List Out → RxSide → Prop} {p' : Pdc}
    (h : p.released) (m : Move w b R u p os u' p') : p'.released := by
  cases m with
  | ctl hc => exact fun hu => absurd hu hc.live'
  | sendClose _ _ _ _ _ _ _ _ t => exact fun hu => by cases hu
  | free => exact fun _ => ⟨rfl, rfl, rfl⟩
  | closed rx os _ _ => exact fun _ => ⟨rfl, rfl, rfl⟩
  | rebase env pp _ _ =>
    rw [reestablishStartPsn]
    dsimp only
    split_ifs <;> exact h
  | _ => exact h

theorem step_released (env : Env) (p : Pdc) (e : Event) (hrel : p.released) : (step env p e).1.released :=
  (step_moves (b := True) env p e hrel fun _ => trivial).keep (l := [])
    (P := fun _ _ q => q.released) (fun _ _ _ _ _ _ h m => h.move m) hrel

theorem Handout.released (slot : Pdc) (sec : Bool) (h : Handout) : (h.pdc slot sec).released := by
  intro hu
  cases h with
  | ini l q s => cases hu
  | tgt syn base pending => cases pending <;> cases hu

theorem Handout.acct (slot : Pdc) (sec : Bool) (h : Handout) : Acct none [] (h.pdc slot sec).tx := by
  have hinv : TxInv (h.pdc slot sec).tx := by
    have hbm : ∀ i, (h.pdc slot sec).tx.txBm.get i = none := by
      intro i
      cases h with
      | ini l q s => exact PtrBitmap.get_clear _ i
      | tgt syn base pending => cases pending <;> exact PtrBitmap.get_clear _ i
    have hp : (h.pdc slot sec).tx.pkts = fun _ => none := by
      cases h with
      | ini l q s => rfl
      | tgt syn base pending => cases pending <;> rfl
    have hl : (h.pdc slot sec).tx.txPktList = [] := by
      cases h with
      | ini l q s => rfl
      | tgt syn base pending => cases pending <;> rfl
    constructor <;> simp [hbm, hp, hl]
  exact ⟨hinv, by simp, by simp, by simp, Pairwise.nil⟩

theorem Acct.run (h : Acct none log p.tx) (hr : p.released) (es : List (Env × Event)) :
    Acct none (log ++ (p.run es).2) (p.run es).1.tx ∧ (p.run es).1.released := by
  refine Pdc.run_keep (P := fun log p => Acct none log p.tx ∧ p.released) ?_ ⟨h, hr⟩ es
    (p.always_true es)
  intro env p e log hp _
  exact (step_moves (b := True) env p e hp.2 fun _ => trivial).keep
    (P := fun u log p => Acct u log p.tx ∧ p.released)
    (fun _ _ _ _ _ _ hp m => ⟨hp.1.move m, hp.2.move m⟩) hp

theorem countP_ends_le_one (h : log.Pairwise Apart) (id : PktId) : log.countP (Out.ends id) ≤ 1 := by
  induction log with
  | nil => simp
  | cons o os ih =>
    obtain ⟨ho, hos⟩ := pairwise_cons.1 h
    rw [countP_cons]
    split_ifs with he
    · have hz : os.countP (Out.ends id) = 0 := by
        rw [countP_eq_zero]
        intro b hb
        rw [ho b hb id (Or.inl he)]
        decide
      omega
    · exact ih hos

/-- Completion discipline: in every run of a PDC a transmitted packet is answered,
failed or dropped at most once and never once it was ended or freed, and the
retransmit list holds exactly the un-ACKed packets of `tx_bm`. -/
theorem tx_completion_discipline (slot : Pdc) (sec : Bool) (h : Handout) (es : List (Env × Event)) :
    let r := (h.pdc slot sec).run es
    (∀ id, r.2.countP (Out.ends id) ≤ 1) ∧
    (∀ pre o post id, r.2 = pre ++ o :: post → o.ends id = true →
      ∀ a ∈ pre, a.ends id = false ∧ a.frees id = false) ∧
    r.1.tx.txPktList.Nodup ∧
    ∀ id, id ∈ r.1.tx.txPktList ↔
      ∃ i k, r.1.tx.txBm.get i = some id ∧ r.1.tx.pkts id = some k ∧ k.txPktAcked = false := by
  intro r
  obtain ⟨ha, -⟩ := (Handout.acct slot sec h).run (Handout.released slot sec h) es
  rw [nil_append] at ha
  refine ⟨countP_ends_le_one ha.apart, fun pre o post id hsplit he a hap => ?_, ha.inv.nodup, fun id => ?_⟩
  · have hpair := ha.apart
    rw [show ((h.pdc slot sec).run es).2 = pre ++ o :: post from hsplit, pairwise_append] at hpair
    have hab := hpair.2.2 a hap o mem_cons_self id
    constructor <;> by_contra hc
    · rw [hab (Or.inl (by simpa using hc))] at he
      cases he
    · rw [hab (Or.inr (by simpa using hc))] at he
      cases he
  · rw [ha.inv.listed]
    constructor
    · rintro ⟨k, hk, hun⟩
      obtain ⟨i, hi⟩ := ha.inv.tracked id k hk
      exact ⟨i, k, hi, hk, hun⟩
    · rintro ⟨-, k, -, hk, hun⟩
      exact ⟨k, hk, hun⟩

end Uet.Pds
