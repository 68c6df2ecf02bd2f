import Uet.Vpp.RxToken
import Uet.Vpp.Control

/-!
# Received packets between a worker and the library

One channel with both sides: the worker's tokens, the ring of descriptors, the tokens that the
library has handed to the application, and the ring of releases. The library writes a release
only for a token that the application has, so every entry counts, and a packet is outstanding
exactly when its descriptor waits, the application has it, or its release waits.

The rings are queues of the entries that are published and not consumed; `rxStaged` has
descriptors that are written and not published yet, `batch` the entries of the release ring that
the worker has counted, and how many of them it has done.
-/

namespace Uet.Vpp

open List Function

structure RxExchange where
  rx : RxChannel
  rxRing : List RxDesc
  rxStaged : List RxDesc
  releases : List RxRelease
  batch : Option (Nat × Nat)
  tokenIds : Nat → BitVec 64
  rxInflight : Nat

namespace RxExchange

def init (queueDepth : Nat) (generation worker : BitVec 64) : RxExchange :=
  { rx := .create queueDepth generation worker, rxRing := [], rxStaged := [], releases := [], batch := none
    tokenIds := fun _ => 0, rxInflight := 0 }

/-! ## The worker -/

/-- `uet_rx_publish`. -/
def publish (m : DmaMap) (ex : RxExchange) (pending : Nat) (pkt : Packet) : RxExchange :=
  match ex.rx.publish m pending pkt with
  | (_, none) => ex
  | (rx, some desc) => { ex with rx, rxStaged := ex.rxStaged ++ [desc] }

def store (ex : RxExchange) : RxExchange := { ex with rxRing := ex.rxRing ++ ex.rxStaged, rxStaged := [] }

/-- `uet_rx_release_process` counts the entries of a batch. -/
def releaseLoad (ex : RxExchange) : RxExchange :=
  match ex.batch with
  | none => { ex with batch := some (min ex.releases.length spscMaxBatch, 0) }
  | some _ => ex

def releaseNext (ex : RxExchange) : RxExchange :=
  match ex.batch with
  | none => ex
  | some (available, done) =>
    if done < available then
      match ex.releases[done]? with
      | none => ex
      | some e => { ex with rx := (ex.rx.release e).1, batch := some (available, done + 1) }
    else ex

def releaseStore (ex : RxExchange) : RxExchange :=
  match ex.batch with
  | none => ex
  | some (available, done) =>
    if done < available then ex else { ex with releases := ex.releases.drop available, batch := none }

/-! ## The library -/

/-- `uet_vpp_client_poll_rx_batch` for up to `k` of the descriptors. -/
def poll (dmaMap : Int) (mapSize : Nat) (ex : RxExchange) (k : Nat) : RxExchange :=
  match clientPollRxBatch dmaMap mapSize ex.rx.dmaSlotCount ex.tokenIds (ex.rxRing.take k) with
  | (_, .error _) => ex
  | (ids, .ok rxs) =>
    { ex with tokenIds := ids, rxInflight := ex.rxInflight + rxs.length, rxRing := ex.rxRing.drop k }

/-- The tokens of a batch of releases are given back; a token that comes twice makes the batch
fail. -/
def giveTokens (tokenIds : Nat → BitVec 64) : List Rx → Option (Nat → BitVec 64)
  | [] => some tokenIds
  | rx :: rxs =>
    if tokenIds rx.releaseToken ≠ rx.rxId then none
    else giveTokens (update tokenIds rx.releaseToken 0) rxs

/-- `uet_vpp_client_release_rx_batch`; `behind` is how far the consumer is past what was
loaded. -/
def release (ex : RxExchange) (behind : Nat) (rxs : List Rx) : RxExchange × Option Errno :=
  let n := ex.rx.dmaSlotCount
  let pending := ex.releases.length + behind
  if rxs = [] ∨ ex.rxInflight < rxs.length then (ex, some .einval)
  else if n < pending then (ex, some .eproto)
  else if n - pending < rxs.length then (ex, some .eagain)
  else if rxs.any fun rx => rx.rxId = 0 ∨ n ≤ rx.releaseToken ∨
      ex.tokenIds rx.releaseToken ≠ rx.rxId then (ex, some .einval)
  else
    match giveTokens ex.tokenIds rxs with
    | none => (ex, some .einval)
    | some ids =>
      ({ ex with
          tokenIds := ids, rxInflight := ex.rxInflight - rxs.length
          releases := ex.releases ++ rxs.map fun rx => ⟨rx.rxId, rx.releaseToken, 0⟩ }, none)

end RxExchange

/-! ## Where a packet is -/

def tokensHeld (n : Nat) (ids : Nat → BitVec 64) : List (BitVec 64 × Nat) :=
  (List.range n).filterMap fun t => if ids t ≠ 0 then some (ids t, t) else none

def RxExchange.done (ex : RxExchange) : Nat := ex.batch.elim 0 Prod.snd

def Delivery.token (d : Delivery) : BitVec 64 × Nat := (d.1, d.2.1)

def RxDesc.token (d : RxDesc) : BitVec 64 × Nat := (d.rxId, d.releaseToken)

def Rx.token (rx : Rx) : BitVec 64 × Nat := (rx.rxId, rx.releaseToken)

def RxRelease.token (e : RxRelease) : BitVec 64 × Nat := (e.rxId, e.releaseToken)

structure RxExchange.Ok (ex : RxExchange) : Prop where
  owned : ex.rx.Owned
  balance : (ex.rx.held.map Delivery.token).Perm
    ((ex.rxRing ++ ex.rxStaged).map RxDesc.token ++
      (tokensHeld ex.rx.dmaSlotCount ex.tokenIds ++ (ex.releases.drop ex.done).map RxRelease.token))
  inflight : ex.rxInflight = (tokensHeld ex.rx.dmaSlotCount ex.tokenIds).length
  reserved : ∀ e ∈ ex.releases, e.reserved = 0
  counted : ∀ available done, ex.batch = some (available, done) →
    done ≤ available ∧ available ≤ ex.releases.length

section

variable {n : Nat} {ids ids' : Nat → BitVec 64} {rxs : List Rx}

theorem perm_tokensHeld_update {t : Nat} {id : BitVec 64} (ht : t < n) (hid : id ≠ 0) (hzero : ids t = 0) :
    (tokensHeld n (update ids t id)).Perm ((id, t) :: tokensHeld n ids) := by
  refine perm_filterMap_update ht ?_ ?_ fun k hk => ?_
  · rw [if_neg (fun h => h hzero)]
  · rw [update_self, if_pos hid]
  · rw [update_of_ne hk]

theorem perm_takeTokens (h : takeTokens ids rxs = some ids')
    (hrxs : ∀ rx ∈ rxs, rx.rxId ≠ 0 ∧ rx.releaseToken < n) :
    (tokensHeld n ids').Perm (rxs.map Rx.token ++ tokensHeld n ids) := by
  induction rxs generalizing ids with
  | nil =>
    cases h
    exact .refl _
  | cons rx rxs ih =>
    rw [takeTokens] at h
    split at h
    · cases h
    rename_i hzero
    rw [not_not] at hzero
    obtain ⟨hid, hlt⟩ := hrxs rx mem_cons_self
    have hrest := ih h fun rx' hrx' => hrxs rx' (mem_cons_of_mem _ hrx')
    refine hrest.trans (((perm_tokensHeld_update hlt hid hzero).append_left _).trans ?_)
    exact perm_middle

theorem perm_giveTokens (h : RxExchange.giveTokens ids rxs = some ids')
    (hrxs : ∀ rx ∈ rxs, rx.rxId ≠ 0 ∧ rx.releaseToken < n) :
    (tokensHeld n ids).Perm (rxs.map Rx.token ++ tokensHeld n ids') := by
  induction rxs generalizing ids with
  | nil =>
    cases h
    exact .refl _
  | cons rx rxs ih =>
    rw [RxExchange.giveTokens] at h
    split at h
    · cases h
    rename_i heq
    rw [not_not] at heq
    obtain ⟨hid, hlt⟩ := hrxs rx mem_cons_self
    have hrest := ih h fun rx' hrx' => hrxs rx' (mem_cons_of_mem _ hrx')
    -- the token is put back into the table it was taken out of
    have hput : (tokensHeld n (update (update ids rx.releaseToken 0)
        rx.releaseToken rx.rxId)).Perm _ :=
      perm_tokensHeld_update hlt hid (update_self _ _ _)
    rw [update_idem, ← heq, update_eq_self, heq] at hput
    exact hput.trans (hrest.cons _)

end

section

variable {ex : RxExchange}

theorem ok_rxInit (queueDepth : Nat) (generation worker : BitVec 64) :
    (RxExchange.init queueDepth generation worker).Ok := by
  have hheld : (RxChannel.create queueDepth generation worker).held = [] := held_eq_nil fun _ => rfl
  have htokens : tokensHeld queueDepth (fun _ => 0) = [] := filterMap_eq_nil_iff.mpr fun t _ => rfl
  refine ⟨owned_create queueDepth generation worker, ?_, ?_, fun e he => absurd he not_mem_nil, nofun⟩
  · change ((RxChannel.create queueDepth generation worker).held.map Delivery.token).Perm
      ([] ++ (tokensHeld queueDepth (fun _ => 0) ++ []))
    rw [hheld, htokens]
    exact .refl _
  · exact (congrArg List.length htokens).symm

theorem publish_slots {m : DmaMap} {ch ch' : RxChannel} {pending : Nat} {pkt : Packet} {desc : RxDesc}
    (h : ch.publish m pending pkt = (ch', some desc)) : ch'.dmaSlotCount = ch.dmaSlotCount := by
  obtain ⟨token, free, built, -, -, -, rfl⟩ := publish_cases h
  rfl

theorem RxExchange.Ok.publish (h : ex.Ok) (m : DmaMap) (pending : Nat) (pkt : Packet) :
    (ex.publish m pending pkt).Ok := by
  unfold RxExchange.publish
  split
  · exact h
  rename_i rx desc hpub
  obtain ⟨howned, hheld, -⟩ := h.owned.publish hpub
  have hn := publish_slots hpub
  refine { h with owned := howned, balance := ?_, inflight := ?_ }
  · refine (hheld.map Delivery.token).trans ((h.balance.cons _).trans ?_)
    have hstaged : (ex.rxRing ++ (ex.rxStaged ++ [desc])).map RxDesc.token =
        (ex.rxRing ++ ex.rxStaged).map RxDesc.token ++ [desc.token] := by
      rw [← append_assoc]
      simp only [map_append, map_cons, map_nil]
    dsimp only [RxExchange.done]
    rw [hn, hstaged, append_assoc, singleton_append]
    exact perm_middle.symm
  · rw [hn]
    exact h.inflight

theorem RxExchange.Ok.store (h : ex.Ok) : ex.store.Ok := by
  refine { h with balance := ?_ }
  dsimp only [RxExchange.store, RxExchange.done]
  rw [append_nil]
  exact h.balance

theorem RxExchange.Ok.releaseLoad (h : ex.Ok) : ex.releaseLoad.Ok := by
  unfold RxExchange.releaseLoad
  split
  · rename_i hnone
    refine { h with balance := ?_, counted := fun available done hbatch => ?_ }
    · have hbal := h.balance
      rw [RxExchange.done, hnone] at hbal
      exact hbal
    · cases hbatch
      exact ⟨Nat.zero_le _, Nat.min_le_left _ _⟩
  · exact h

theorem rxIds_of_held {ch : RxChannel} {id : BitVec 64} {t : Nat}
    (h : (id, t) ∈ ch.held.map Delivery.token) : t < ch.dmaSlotCount ∧ ch.rxIds t = id ∧ id ≠ 0 := by
  obtain ⟨d, hd, heq⟩ := mem_map.mp h
  obtain ⟨t', ht', hby⟩ := mem_filterMap.mp hd
  unfold RxChannel.heldBy at hby
  split at hby
  · rename_i hne
    cases hby
    cases heq
    exact ⟨mem_range.mp ht', rfl, hne⟩
  · cases hby

theorem RxExchange.Ok.releaseNext (h : ex.Ok) : ex.releaseNext.Ok := by
  unfold RxExchange.releaseNext
  split
  · exact h
  rename_i available done hbatch
  obtain ⟨hdone, havail⟩ := h.counted available done hbatch
  split
  · rename_i hlt
    split
    · exact h
    rename_i e hget
    have hbal := h.balance
    rw [RxExchange.done, hbatch] at hbal
    dsimp only [Option.elim] at hbal
    have hdrop : ex.releases.drop done = e :: ex.releases.drop (done + 1) := by
      obtain ⟨hlen, rfl⟩ := List.getElem?_eq_some_iff.mp hget
      exact drop_eq_getElem_cons hlen
    rw [hdrop, map_cons] at hbal
    have hmem : e.token ∈ ex.rx.held.map Delivery.token := by
      rw [hbal.mem_iff]
      simp
    obtain ⟨hslot, hid, hne⟩ := rxIds_of_held hmem
    have hres := h.reserved e (mem_of_getElem? hget)
    have hrel : ex.rx.release e = ((ex.rx.release e).1, some (ex.rx.rxBufferIndices e.releaseToken)) := by
      rw [RxChannel.release, if_neg (by simp only [not_or, not_not, not_le]; exact ⟨hres, hne, hslot, hid⟩)]
    obtain ⟨howned, hheld, -⟩ := h.owned.release hrel
    have hn : (ex.rx.release e).1.dmaSlotCount = ex.rx.dmaSlotCount := by
      obtain ⟨-, -, -, -, heq⟩ := release_cases hrel
      rw [heq]
    refine { h with owned := howned, balance := ?_, inflight := ?_, counted := fun a j hj => ?_ }
    · dsimp only [RxExchange.done, Option.elim]
      rw [hn]
      -- the entry that was next is at the head of both sides
      have hcons := ((hheld.map Delivery.token).symm.trans hbal).trans
        ((perm_middle.append_left _).trans perm_middle)
      exact hcons.cons_inv
    · rw [hn]
      exact h.inflight
    · cases hj
      exact ⟨hlt, havail⟩
  · exact h

theorem RxExchange.Ok.releaseStore (h : ex.Ok) : ex.releaseStore.Ok := by
  unfold RxExchange.releaseStore
  split
  · exact h
  rename_i available done hbatch
  split
  · exact h
  obtain ⟨hdone, -⟩ := h.counted available done hbatch
  have hall : done = available := by omega
  refine { h with balance := ?_, reserved := fun e he => ?_, counted := nofun }
  · have hbal := h.balance
    rw [RxExchange.done, hbatch] at hbal
    dsimp only [Option.elim] at hbal
    rw [hall] at hbal
    exact hbal
  · exact h.reserved e (mem_of_mem_drop he)

theorem decode_token {dmaMap : Int} {mapSize ringSize : Nat} {desc : RxDesc} {rx : Rx}
    (h : clientRxDecode dmaMap mapSize ringSize desc = .ok rx) :
    rx.token = desc.token ∧ rx.rxId ≠ 0 ∧ rx.releaseToken < ringSize := by
  unfold clientRxDecode at h
  split at h
  · cases h
  rename_i hno
  simp only [not_or, not_le] at hno
  split at h
  · cases h
  split at h
  · cases h
  · cases h
    exact ⟨rfl, hno.1, hno.2.2.1⟩

theorem mapM_decode {dmaMap : Int} {mapSize ringSize : Nat} {descs : List RxDesc} {rxs : List Rx}
    (h : descs.mapM (clientRxDecode dmaMap mapSize ringSize) = .ok rxs) :
    rxs.map Rx.token = descs.map RxDesc.token ∧ ∀ rx ∈ rxs, rx.rxId ≠ 0 ∧ rx.releaseToken < ringSize := by
  induction descs generalizing rxs with
  | nil =>
    cases h
    exact ⟨rfl, fun rx hrx => absurd hrx not_mem_nil⟩
  | cons desc descs ih =>
    rw [mapM_cons] at h
    rcases hdec : clientRxDecode dmaMap mapSize ringSize desc with e | rx
    · rw [hdec] at h
      cases h
    rcases hrest : descs.mapM (clientRxDecode dmaMap mapSize ringSize) with e | rxs'
    · rw [hdec, hrest] at h
      cases h
    rw [hdec, hrest] at h
    cases h
    obtain ⟨htok, hid, hlt⟩ := decode_token hdec
    obtain ⟨htoks, hall⟩ := ih hrest
    refine ⟨by rw [map_cons, map_cons, htok, htoks], fun rx' hrx' => ?_⟩
    rcases mem_cons.mp hrx' with rfl | hmem
    · exact ⟨hid, hlt⟩
    · exact hall rx' hmem

theorem RxExchange.Ok.poll (h : ex.Ok) (dmaMap : Int) (mapSize k : Nat) : (ex.poll dmaMap mapSize k).Ok := by
  unfold RxExchange.poll
  split
  · exact h
  rename_i ids rxs hpoll
  unfold clientPollRxBatch at hpoll
  split at hpoll
  · cases hpoll
  rename_i rxs' hdec
  split at hpoll
  · cases hpoll
  rename_i ids' htake
  cases hpoll
  obtain ⟨htok, hall⟩ := mapM_decode hdec
  have hperm := perm_takeTokens htake hall
  refine { h with balance := ?_, inflight := ?_ }
  · refine h.balance.trans ?_
    dsimp only [RxExchange.done]
    have hsplit : ex.rxRing = ex.rxRing.take k ++ ex.rxRing.drop k := (take_append_drop k ex.rxRing).symm
    conv_lhs => rw [hsplit, append_assoc, map_append, ← htok, append_assoc]
    -- what was polled moves from the ring to the application
    refine (perm_append_comm_assoc _ _ _).trans ?_
    refine Perm.append_left _ ?_
    rw [← append_assoc]
    exact (hperm.symm.append_right _)
  · rw [hperm.length_eq, length_append, length_map, h.inflight, add_comm]

theorem RxExchange.Ok.release (h : ex.Ok) (behind : Nat) (rxs : List Rx) : (ex.release behind rxs).1.Ok := by
  unfold RxExchange.release
  dsimp only
  split
  · exact h
  split
  · exact h
  split
  · exact h
  · split
    · exact h
    · rename_i hvalid
      split
      · exact h
      rename_i ids hgive
      have hall : ∀ rx ∈ rxs, rx.rxId ≠ 0 ∧ rx.releaseToken < ex.rx.dmaSlotCount := by
        intro rx hrx
        rw [Bool.not_eq_true, any_eq_false] at hvalid
        have hrx' := hvalid rx hrx
        simp only [decide_eq_true_eq, not_or, not_le] at hrx'
        exact ⟨hrx'.1, hrx'.2.1⟩
      have hperm := perm_giveTokens hgive hall
      have hdone : ex.done ≤ ex.releases.length := by
        unfold RxExchange.done
        cases hb : ex.batch with
        | none => exact Nat.zero_le _
        | some p =>
          obtain ⟨h1, h2⟩ := h.counted p.1 p.2 hb
          exact le_trans h1 h2
      refine { h with balance := ?_, inflight := ?_, reserved := fun e he => ?_, counted := ?_ }
      · refine h.balance.trans (Perm.append_left _ ?_)
        have hentries : (rxs.map fun rx => (⟨rx.rxId, rx.releaseToken, 0⟩ : RxRelease)).map
            RxRelease.token = rxs.map Rx.token := by
          rw [map_map]
          rfl
        dsimp only [RxExchange.done] at hdone ⊢
        rw [drop_append_of_le_length hdone, map_append, hentries]
        -- what was given back moves from the application to the ring
        refine (hperm.append_right _).trans ?_
        rw [append_assoc]
        refine (perm_append_comm_assoc _ _ _).trans (Perm.append_left _ ?_)
        exact perm_append_comm
      · have hlen := hperm.length_eq
        rw [length_append, length_map, ← h.inflight] at hlen
        dsimp only
        omega
      · rcases mem_append.mp he with he | he
        · exact h.reserved e he
        · obtain ⟨rx, -, rfl⟩ := mem_map.mp he
          rfl
      · intro available done hbatch
        obtain ⟨h1, h2⟩ := h.counted available done hbatch
        refine ⟨h1, h2.trans ?_⟩
        rw [length_append]
        exact Nat.le_add_right _ _

theorem RxExchange.Ok.outstanding_eq_zero (h : ex.Ok) (hring : ex.rxRing = []) (hstaged : ex.rxStaged = [])
    (hinflight : ex.rxInflight = 0) (hrel : ex.releases = []) : ex.rx.rxOutstanding = 0 := by
  have htokens : tokensHeld ex.rx.dmaSlotCount ex.tokenIds = [] :=
    eq_nil_of_length_eq_zero (h.inflight.symm.trans hinflight)
  have hlen := h.balance.length_eq
  rw [hring, hstaged, hrel, htokens, drop_nil, length_map] at hlen
  rw [h.owned.outstanding]
  exact hlen

end

end Uet.Vpp
