import Uet.Vpp.RxChain

/-!
# Received packets and their tokens

A worker hands a received packet to an application with a token of the channel. The token is
free, on a stack, or outstanding: then the channel knows the id of the delivery and the buffer.
The application gives the token back by an entry of the release ring (`uet_rx_release_process`); it
may write anything there, so an entry counts only when it names the id that the token has. What
is outstanding when the segment is deleted is freed then.
-/

namespace Uet.Vpp

open List Function

/-- `~0` as a buffer index. -/
def noBuffer : BitVec 32 := BitVec.allOnes 32

/-- `uet_vpp_svm_rx_release_t`. -/
structure RxRelease where
  rxId : BitVec 64
  releaseToken : Nat
  reserved : BitVec 32

/-- A packet that comes to a delivery node: its chain, the memory its header is in, and the
path it came by. -/
structure Packet where
  bufferIndex : BitVec 32
  valid : bufferIndex ≠ noBuffer
  first : Buffer
  rest : List Buffer
  mem : Int → BitVec 8
  isIp4 : Bool
  isUdp : Bool

/-- The part of `uet_worker_channel_t` that delivery uses; the stack of free slots has
its top first. -/
structure RxChannel where
  active : Bool
  dmaSlotCount : Nat
  nextRxId : BitVec 64
  rxBufferIndices : Nat → BitVec 32
  rxIds : Nat → BitVec 64
  rxFreeSlots : List Nat
  rxOutstanding : Nat

/-- `uet_worker_channel_clear`. -/
def RxChannel.clear : RxChannel :=
  { active := false, dmaSlotCount := 0, nextRxId := 0, rxBufferIndices := fun _ => 0
    rxIds := fun _ => 0, rxFreeSlots := [], rxOutstanding := 0 }

/-- The channel of a worker as `uet_svm_create` sets it up. -/
def RxChannel.create (queueDepth : Nat) (generation worker : BitVec 64) : RxChannel :=
  { active := true, dmaSlotCount := queueDepth
    nextRxId := (generation <<< 32) ||| (worker <<< 24) ||| 1
    rxBufferIndices := fun _ => noBuffer, rxIds := fun _ => 0
    rxFreeSlots := (List.range queueDepth).reverse, rxOutstanding := 0 }

/-- One entry of `uet_rx_release_process`; the buffer that is freed, if one is. -/
def RxChannel.release (ch : RxChannel) (e : RxRelease) : RxChannel × Option (BitVec 32) :=
  let token := e.releaseToken
  if e.reserved ≠ 0 ∨ e.rxId = 0 ∨ ch.dmaSlotCount ≤ token ∨ ch.rxIds token ≠ e.rxId then (ch, none)
  else
    ({ ch with
        rxIds := update ch.rxIds token 0
        rxBufferIndices := update ch.rxBufferIndices token noBuffer
        rxFreeSlots := token :: ch.rxFreeSlots
        rxOutstanding := ch.rxOutstanding - 1 }, some (ch.rxBufferIndices token))

def takeRxId (next : BitVec 64) : BitVec 64 × BitVec 64 := if next = 0 then (1, 2) else (next, next + 1)

/-- `uet_rx_publish`; `pending` is how full the ring is by the counters the node has loaded. -/
def RxChannel.publish (m : DmaMap) (ch : RxChannel) (pending : Nat) (pkt : Packet) :
    RxChannel × Option RxDesc :=
  if ch.dmaSlotCount ≤ pending then (ch, none)
  else
    match ch.rxFreeSlots with
    | [] => (ch, none)
    | token :: free =>
      match rxDescriptorBuild pkt.mem m pkt.first pkt.rest token pkt.isIp4 pkt.isUdp with
      | none => (ch, none)
      | some desc =>
        let id := takeRxId ch.nextRxId
        ({ ch with
            nextRxId := id.2
            rxFreeSlots := free
            rxIds := update ch.rxIds token id.1
            rxBufferIndices := update ch.rxBufferIndices token pkt.bufferIndex
            rxOutstanding := ch.rxOutstanding + 1 }, some { desc with rxId := id.1 })

abbrev Delivery := BitVec 64 × Nat × BitVec 32

def RxChannel.heldBy (ch : RxChannel) (token : Nat) : Option Delivery :=
  if ch.rxIds token ≠ 0 then some (ch.rxIds token, token, ch.rxBufferIndices token) else none

def RxChannel.held (ch : RxChannel) : List Delivery := (List.range ch.dmaSlotCount).filterMap ch.heldBy

/-- The buffers that `uet_worker_channel_outstanding_rx_free` frees. -/
def RxChannel.reclaim (ch : RxChannel) : List Delivery :=
  (List.range ch.dmaSlotCount).filterMap fun token =>
    if ch.rxIds token ≠ 0 ∧ ch.rxBufferIndices token ≠ noBuffer then
      some (ch.rxIds token, token, ch.rxBufferIndices token)
    else none

structure Delivered where
  desc : RxDesc
  packet : Packet
  ringSize : Nat

structure RxWorker where
  channels : List RxChannel
  rxOutstanding : Nat
  published : List Delivery
  freed : List Delivery
  delivered : List Delivered

def RxWorker.init : RxWorker := ⟨[], 0, [], [], []⟩

/-- What happens to the channels of a worker: segments are created and deleted, packets are
published and release entries are read. -/
inductive RxEv where
  | create (client : Nat) (queueDepth : Nat) (generation worker : BitVec 64)
  | publish (client : Nat) (pending : Nat) (packet : Packet)
  | release (client : Nat) (entry : RxRelease)
  | delete (client : Nat)

def RxWorker.channel (s : RxWorker) (client : Nat) : Option RxChannel :=
  s.channels[client]?.filter RxChannel.active

def RxWorker.step (m : DmaMap) (s : RxWorker) : RxEv → RxWorker
  | .create client queueDepth generation worker =>
    if queueDepth < 8 ∨ 4096 < queueDepth then s
    else
      match s.channels[client]? with
      | some old =>
        if old.active then s
        else { s with channels := s.channels.set client (.create queueDepth generation worker) }
      | none =>
        if client = s.channels.length then
          { s with channels := s.channels ++ [.create queueDepth generation worker] }
        else s
  | .publish client pending pkt =>
    match s.channel client with
    | none => s
    | some ch =>
      match ch.publish m pending pkt with
      | (_, none) => s
      | (ch', some desc) =>
        { s with
          channels := s.channels.set client ch'
          rxOutstanding := s.rxOutstanding + 1
          published := s.published ++ [(desc.rxId, desc.releaseToken, pkt.bufferIndex)]
          delivered := s.delivered ++ [⟨desc, pkt, ch.dmaSlotCount⟩] }
  | .release client e =>
    match s.channel client with
    | none => s
    | some ch =>
      match ch.release e with
      | (_, none) => s
      | (ch', some buffer) =>
        { s with
          channels := s.channels.set client ch'
          rxOutstanding := s.rxOutstanding - 1
          freed := s.freed ++ [(e.rxId, e.releaseToken, buffer)] }
  | .delete client =>
    match s.channel client with
    | none => s
    | some ch =>
      { s with
        channels := s.channels.set client .clear
        rxOutstanding := s.rxOutstanding - ch.rxOutstanding
        freed := s.freed ++ ch.reclaim }

/-- Each token of a channel is on the free list once, or outstanding with a buffer; the
counter counts those. -/
structure RxChannel.Owned (ch : RxChannel) : Prop where
  nodup : ch.rxFreeSlots.Nodup
  free_iff : ∀ token, token ∈ ch.rxFreeSlots ↔ token < ch.dmaSlotCount ∧ ch.rxIds token = 0
  buffer : ∀ token < ch.dmaSlotCount, ch.rxIds token ≠ 0 → ch.rxBufferIndices token ≠ noBuffer
  outstanding : ch.rxOutstanding = ch.held.length

/-! ## One channel -/

variable {pkt : Packet}

section

variable {ch : RxChannel}

theorem owned_clear : RxChannel.clear.Owned := by
  refine ⟨nodup_nil, fun token => ?_, fun token h => absurd h (Nat.not_lt_zero _), rfl⟩
  simp [RxChannel.clear]

theorem held_eq_nil (h : ∀ token, ch.rxIds token = 0) : ch.held = [] := by
  refine filterMap_eq_nil_iff.mpr fun token _ => ?_
  rw [RxChannel.heldBy, if_neg (fun hne => hne (h token))]

theorem owned_create (queueDepth : Nat) (generation worker : BitVec 64) :
    (RxChannel.create queueDepth generation worker).Owned := by
  refine ⟨nodup_reverse.mpr nodup_range, fun token => ?_, fun token _ h => absurd rfl h, ?_⟩
  · simp [RxChannel.create]
  · rw [held_eq_nil fun _ => rfl]
    rfl

theorem perm_filterMap_update {α : Type*} {f g : Nat → Option α} {n t : Nat} {x : α} (ht : t < n)
    (hf : f t = none) (hg : g t = some x) (hother : ∀ k, k ≠ t → g k = f k) :
    ((List.range n).filterMap g).Perm (x :: (List.range n).filterMap f) := by
  have hperm : (range n).Perm (t :: (range n).erase t) := perm_cons_erase (mem_range.mpr ht)
  have hrest : ((range n).erase t).filterMap g = ((range n).erase t).filterMap f := by
    refine filterMap_congr fun k hk => hother k ?_
    rintro rfl
    exact nodup_range.not_mem_erase hk
  have h1 := hperm.filterMap g
  have h2 := hperm.filterMap f
  rw [filterMap_cons_some hg, hrest] at h1
  rw [filterMap_cons_none hf] at h2
  exact h1.trans (h2.symm.cons x)

theorem takeRxId_ne_zero (next : BitVec 64) : (takeRxId next).1 ≠ 0 := by
  unfold takeRxId
  split
  · decide
  · assumption

variable {ch' : RxChannel}

theorem publish_cases {m : DmaMap} {pending : Nat} {desc : RxDesc}
    (h : ch.publish m pending pkt = (ch', some desc)) : ∃ token free built, ch.rxFreeSlots = token :: free ∧
      rxDescriptorBuild pkt.mem m pkt.first pkt.rest token pkt.isIp4 pkt.isUdp = some built ∧
      desc = { built with rxId := (takeRxId ch.nextRxId).1 } ∧
      ch' = { ch with
        nextRxId := (takeRxId ch.nextRxId).2
        rxFreeSlots := free
        rxIds := update ch.rxIds token (takeRxId ch.nextRxId).1
        rxBufferIndices := update ch.rxBufferIndices token pkt.bufferIndex
        rxOutstanding := ch.rxOutstanding + 1 } := by
  unfold RxChannel.publish at h
  split at h
  · cases h
  split at h
  · cases h
  rename_i token free hfree
  split at h
  · cases h
  rename_i built hbuilt
  cases h
  exact ⟨token, free, built, hfree, hbuilt, rfl, rfl⟩

theorem RxChannel.Owned.publish {m : DmaMap} {pending : Nat} {desc : RxDesc} (hch : ch.Owned)
    (h : ch.publish m pending pkt = (ch', some desc)) :
    ch'.Owned ∧ ch'.held.Perm ((desc.rxId, desc.releaseToken, pkt.bufferIndex) :: ch.held) ∧
      ch'.active = ch.active ∧ desc.releaseToken < ch.dmaSlotCount ∧ desc.rxId ≠ 0 := by
  obtain ⟨token, free, built, hfree, hbuilt, rfl, rfl⟩ := publish_cases h
  have hid := takeRxId_ne_zero ch.nextRxId
  have hnodup := hch.nodup
  rw [hfree, nodup_cons] at hnodup
  obtain ⟨hlt, hzero⟩ := (hch.free_iff token).mp (by rw [hfree]; exact mem_cons_self)
  have htok : built.releaseToken = token := (rxDescriptorBuild_names hbuilt).2.2.1
  have hheld : RxChannel.held { ch with
        nextRxId := (takeRxId ch.nextRxId).2
        rxFreeSlots := free
        rxIds := update ch.rxIds token (takeRxId ch.nextRxId).1
        rxBufferIndices := update ch.rxBufferIndices token pkt.bufferIndex
        rxOutstanding := ch.rxOutstanding + 1 } |>.Perm
      (((takeRxId ch.nextRxId).1, token, pkt.bufferIndex) :: ch.held) := by
    refine perm_filterMap_update hlt ?_ ?_ fun k hk => ?_
    · rw [RxChannel.heldBy, if_neg (fun hne => hne hzero)]
    · simp only [RxChannel.heldBy, update_self]
      rw [if_pos hid]
    · simp only [RxChannel.heldBy, update_of_ne hk]
  rw [htok]
  refine ⟨⟨hnodup.2, fun k => ?_, fun k hk hne => ?_, ?_⟩, hheld, rfl, hlt, hid⟩
  · dsimp only
    have hold := hch.free_iff k
    rw [hfree, mem_cons] at hold
    by_cases hk : k = token
    · subst hk
      rw [update_self]
      exact ⟨fun hmem => absurd hmem hnodup.1, fun hz => absurd hz.2 hid⟩
    · rw [update_of_ne hk, ← hold]
      exact ⟨.inr, fun hor => hor.resolve_left hk⟩
  · dsimp only at hne ⊢
    by_cases hkt : k = token
    · subst hkt
      rw [update_self]
      exact pkt.valid
    · rw [update_of_ne hkt] at hne ⊢
      exact hch.buffer k hk hne
  · rw [hheld.length_eq, length_cons, ← hch.outstanding]

theorem release_cases {e : RxRelease} {buffer : BitVec 32} (h : ch.release e = (ch', some buffer)) :
    e.rxId ≠ 0 ∧ e.releaseToken < ch.dmaSlotCount ∧ ch.rxIds e.releaseToken = e.rxId ∧
      buffer = ch.rxBufferIndices e.releaseToken ∧
      ch' = { ch with
        rxIds := update ch.rxIds e.releaseToken 0
        rxBufferIndices := update ch.rxBufferIndices e.releaseToken noBuffer
        rxFreeSlots := e.releaseToken :: ch.rxFreeSlots
        rxOutstanding := ch.rxOutstanding - 1 } := by
  simp only [RxChannel.release] at h
  split at h
  · cases h
  rename_i hno
  cases h
  simp only [not_or, not_le, not_not] at hno
  exact ⟨hno.2.1, hno.2.2.1, hno.2.2.2, rfl, rfl⟩

theorem RxChannel.Owned.release {e : RxRelease} {buffer : BitVec 32} (hch : ch.Owned)
    (h : ch.release e = (ch', some buffer)) : ch'.Owned ∧ ch.held.Perm ((e.rxId, e.releaseToken, buffer) :: ch'.held) ∧
      ch'.active = ch.active := by
  obtain ⟨hid, hlt, hmatch, rfl, rfl⟩ := release_cases h
  have hheld : ch.held.Perm ((e.rxId, e.releaseToken, ch.rxBufferIndices e.releaseToken) ::
      RxChannel.held { ch with
        rxIds := update ch.rxIds e.releaseToken 0
        rxBufferIndices := update ch.rxBufferIndices e.releaseToken noBuffer
        rxFreeSlots := e.releaseToken :: ch.rxFreeSlots
        rxOutstanding := ch.rxOutstanding - 1 }) := by
    refine perm_filterMap_update hlt ?_ ?_ fun k hk => ?_
    · simp only [RxChannel.heldBy, update_self]
      rw [if_neg (fun hne => hne rfl)]
    · rw [RxChannel.heldBy, hmatch, if_pos hid]
    · simp only [RxChannel.heldBy, update_of_ne hk]
  refine ⟨⟨nodup_cons.mpr ⟨fun hmem => ?_, hch.nodup⟩, fun k => ?_, fun k hk hne => ?_, ?_⟩, hheld, rfl⟩
  · exact hid (hmatch ▸ ((hch.free_iff _).mp hmem).2)
  · dsimp only
    rw [mem_cons, hch.free_iff k]
    by_cases hk : k = e.releaseToken
    · subst hk
      rw [update_self]
      exact ⟨fun _ => ⟨hlt, rfl⟩, fun _ => .inl rfl⟩
    · rw [update_of_ne hk]
      exact ⟨fun hor => hor.resolve_left hk, .inr⟩
  · dsimp only at hne ⊢
    by_cases hkt : k = e.releaseToken
    · subst hkt
      rw [update_self] at hne
      exact absurd rfl hne
    · rw [update_of_ne hkt] at hne ⊢
      exact hch.buffer k hk hne
  · have hlen := hheld.length_eq
    rw [length_cons, ← hch.outstanding] at hlen
    dsimp only
    omega

theorem RxChannel.Owned.reclaim_eq (hch : ch.Owned) : ch.reclaim = ch.held := by
  refine filterMap_congr fun token hmem => ?_
  unfold RxChannel.heldBy
  by_cases hne : ch.rxIds token ≠ 0
  · rw [if_pos hne, if_pos ⟨hne, hch.buffer token (mem_range.mp hmem) hne⟩]
  · rw [if_neg hne, if_neg (fun h => hne h.1)]

end

/-! ## The worker -/

/-- What a descriptor in a ring gives: the library decodes it, and the addresses name the bytes
of the packet. -/
structure Delivered.Exact (m : DmaMap) (d : Delivered) : Prop where
  length : ipLength d.packet.mem d.packet.first.l3 d.packet.first.stop d.packet.isIp4 =
    some d.desc.packetLength
  decode : ∀ dmaMap, ∃ rx, clientRxDecode dmaMap m.size d.ringSize d.desc = .ok rx ∧
    rx.bytes dmaMap = packetBytes m d.packet.first d.packet.rest d.desc.packetLength

def RxWorker.held (s : RxWorker) : List Delivery := s.channels.flatMap RxChannel.held

/-- The channels own their tokens, the counter of the worker counts what is outstanding, what has
been published is freed or outstanding, and descriptors name their packets. -/
structure RxWorker.Sound (m : DmaMap) (s : RxWorker) : Prop where
  owned : ∀ ch ∈ s.channels, ch.Owned
  inactive : ∀ ch ∈ s.channels, ch.active = false → ch.held = []
  outstanding : s.rxOutstanding = s.held.length
  balance : s.published.Perm (s.freed ++ s.held)
  exact : ∀ d ∈ s.delivered, d.Exact m

section

variable {m : DmaMap} {s : RxWorker}

theorem exists_set {α : Type*} {l : List α} {i : Nat} {a : α} (h : l[i]? = some a) :
    ∃ l₁ l₂, l = l₁ ++ a :: l₂ ∧ ∀ a', l.set i a' = l₁ ++ a' :: l₂ := by
  obtain ⟨hi, rfl⟩ := List.getElem?_eq_some_iff.mp h
  refine ⟨l.take i, l.drop (i + 1), ?_, fun a' => ?_⟩
  · rw [getElem_cons_drop, take_append_drop]
  · rw [set_eq_take_append_cons_drop, if_pos hi]

/-- The contents of the elements of a list, where one element is looked at. -/
theorem flatMap_set {α β : Type*} (f : α → List β) {l : List α} {i : Nat} {a : α} (h : l[i]? = some a) :
    ∃ others : List β, (l.flatMap f).Perm (f a ++ others) ∧ ∀ a', ((l.set i a').flatMap f).Perm (f a' ++ others) := by
  obtain ⟨l₁, l₂, heq, hset⟩ := exists_set h
  have hperm : ∀ a', ((l₁ ++ a' :: l₂).flatMap f).Perm (f a' ++ (l₁.flatMap f ++ l₂.flatMap f)) := fun a' => by
    rw [flatMap_append, flatMap_cons]
    exact perm_append_comm_assoc _ _ _
  exact ⟨_, heq ▸ hperm a, fun a' => hset a' ▸ hperm a'⟩

variable {client : Nat}

theorem channel_eq {ch : RxChannel} (h : s.channel client = some ch) :
    s.channels[client]? = some ch ∧ ch.active = true := by
  unfold RxWorker.channel at h
  exact ⟨(Option.filter_eq_some_iff.mp h).1, (Option.filter_eq_some_iff.mp h).2⟩

theorem forall_set {P : RxChannel → Prop} {ch' : RxChannel} (h : ∀ ch ∈ s.channels, P ch) (hch' : P ch') :
    ∀ ch ∈ s.channels.set client ch', P ch := by
  intro ch hmem
  rcases mem_or_eq_of_mem_set hmem with hmem | rfl
  · exact h ch hmem
  · exact hch'

section

variable (h : s.Sound m)
include h

theorem RxWorker.Sound.create (client queueDepth : Nat) (generation worker : BitVec 64) :
    (s.step m (.create client queueDepth generation worker)).Sound m := by
  have hnew := owned_create queueDepth generation worker
  have hempty : (RxChannel.create queueDepth generation worker).held = [] := held_eq_nil fun _ => rfl
  simp only [RxWorker.step]
  split
  · exact h
  split
  · rename_i old hold
    split
    · exact h
    rename_i hinactive
    have hget := mem_of_getElem? hold
    have hheld : old.held = [] := h.inactive old hget (Bool.eq_false_of_not_eq_true hinactive)
    obtain ⟨others, hperm, hset⟩ := flatMap_set RxChannel.held hold
    have hsame : ((s.channels.set client (.create queueDepth generation worker)).flatMap
        RxChannel.held).Perm s.held := by
      refine (hset _).trans (hperm.trans ?_).symm
      rw [hheld, hempty]
    refine ⟨forall_set h.owned hnew, forall_set h.inactive fun _ => hempty, ?_, ?_, h.exact⟩
    · exact h.outstanding.trans hsame.length_eq.symm
    · exact h.balance.trans (hsame.symm.append_left s.freed)
  · split
    · refine ⟨fun ch hmem => ?_, fun ch hmem => ?_, ?_, ?_, h.exact⟩
      · rcases mem_append.mp hmem with hmem | hmem
        · exact h.owned ch hmem
        · cases mem_singleton.mp hmem
          exact hnew
      · rcases mem_append.mp hmem with hmem | hmem
        · exact h.inactive ch hmem
        · cases mem_singleton.mp hmem
          exact fun _ => hempty
      · simp only [RxWorker.held, flatMap_append, flatMap_singleton, hempty, append_nil]
        exact h.outstanding
      · simp only [RxWorker.held, flatMap_append, flatMap_singleton, hempty, append_nil]
        exact h.balance
    · exact h

theorem RxWorker.Sound.publish (client pending : Nat) (pkt : Packet) :
    (s.step m (.publish client pending pkt)).Sound m := by
  simp only [RxWorker.step]
  split
  · exact h
  rename_i ch hch
  split
  · exact h
  rename_i ch' desc hpub
  obtain ⟨hget, hactive⟩ := channel_eq hch
  obtain ⟨howned, hheld, hkeep, htok, hid⟩ := (h.owned ch (mem_of_getElem? hget)).publish hpub
  obtain ⟨others, hold, hset⟩ := flatMap_set RxChannel.held hget
  have hperm : ((s.channels.set client ch').flatMap RxChannel.held).Perm
      ((desc.rxId, desc.releaseToken, pkt.bufferIndex) :: s.held) :=
    (hset ch').trans ((hheld.append_right others).trans (hold.symm.cons _))
  refine ⟨forall_set h.owned howned, forall_set h.inactive fun hoff => ?_, ?_, ?_, fun d hd => ?_⟩
  · rw [hkeep, hactive] at hoff
    cases hoff
  · exact (congrArg (· + 1) h.outstanding).trans hperm.length_eq.symm
  · exact (h.balance.append_right _).trans (by
      rw [append_assoc]
      exact ((perm_append_singleton _ _).trans hperm.symm).append_left s.freed)
  · rcases mem_append.mp hd with hd | hd
    · exact h.exact d hd
    · cases mem_singleton.mp hd
      obtain ⟨token, free, built, -, hbuilt, rfl, -⟩ := publish_cases hpub
      have hnames := rxDescriptorBuild_names hbuilt
      refine ⟨hnames.1, fun dmaMap => ?_⟩
      obtain ⟨rx, hdec, -, -, hlen, hbytes⟩ := clientRxDecode_build dmaMap hid (hnames.2.2.1 ▸ htok) hbuilt
      refine ⟨rx, hdec, hbytes.trans ?_⟩
      rw [Option.some.inj (hlen.symm.trans hnames.1)]

theorem RxWorker.Sound.release (client : Nat) (e : RxRelease) : (s.step m (.release client e)).Sound m := by
  simp only [RxWorker.step]
  split
  · exact h
  rename_i ch hch
  split
  · exact h
  rename_i ch' buffer hrel
  obtain ⟨hget, hactive⟩ := channel_eq hch
  obtain ⟨howned, hheld, hkeep⟩ := (h.owned ch (mem_of_getElem? hget)).release hrel
  obtain ⟨others, hold, hset⟩ := flatMap_set RxChannel.held hget
  have hperm : s.held.Perm ((e.rxId, e.releaseToken, buffer) ::
      (s.channels.set client ch').flatMap RxChannel.held) :=
    hold.trans ((hheld.append_right others).trans ((hset ch').symm.cons _))
  refine ⟨forall_set h.owned howned, forall_set h.inactive fun hoff => ?_, ?_, ?_, h.exact⟩
  · rw [hkeep, hactive] at hoff
    cases hoff
  · have hlen := hperm.length_eq
    rw [length_cons, ← h.outstanding] at hlen
    exact (congrArg (· - 1) hlen).trans (Nat.add_sub_cancel _ 1)
  · refine h.balance.trans ((hperm.append_left s.freed).trans ?_)
    rw [append_assoc]
    exact .refl _

theorem RxWorker.Sound.delete (client : Nat) : (s.step m (.delete client)).Sound m := by
  simp only [RxWorker.step]
  split
  · exact h
  rename_i ch hch
  obtain ⟨hget, -⟩ := channel_eq hch
  have howned := h.owned ch (mem_of_getElem? hget)
  obtain ⟨others, (hold : s.held.Perm _), hset⟩ := flatMap_set RxChannel.held hget
  have hclear : ((s.channels.set client .clear).flatMap RxChannel.held).Perm others := hset .clear
  refine ⟨forall_set h.owned owned_clear, forall_set h.inactive fun _ => rfl, ?_, ?_, h.exact⟩
  · have hlen := hold.length_eq
    rw [length_append, ← h.outstanding, ← howned.outstanding] at hlen
    exact (congrArg (· - ch.rxOutstanding) hlen).trans
      ((Nat.add_sub_cancel_left _ _).trans hclear.length_eq.symm)
  · refine h.balance.trans ((hold.append_left s.freed).trans ?_)
    rw [howned.reclaim_eq, append_assoc]
    exact (hclear.symm.append_left ch.held).append_left s.freed

theorem RxWorker.Sound.step (ev : RxEv) : (s.step m ev).Sound m := by
  cases ev with
  | create => exact h.create ..
  | publish => exact h.publish ..
  | release => exact h.release ..
  | delete => exact h.delete ..

end

theorem sound_rxInit : RxWorker.init.Sound m :=
  ⟨fun _ h => absurd h not_mem_nil, fun _ h => absurd h not_mem_nil, rfl, .refl _,
    fun _ h => absurd h not_mem_nil⟩

theorem RxWorker.sound_run (m : DmaMap) (evs : List RxEv) :
    (evs.foldl (RxWorker.step m) RxWorker.init).Sound m := by
  suffices ∀ s : RxWorker, s.Sound m → (evs.foldl (RxWorker.step m) s).Sound m from this _ sound_rxInit
  induction evs with
  | nil => exact fun s h => h
  | cons _ _ ih => exact fun s h => ih _ (h.step ..)

theorem pollRxBatch_bytes {batch : List Delivered} {ringSize : Nat} {dmaMap : Int}
    {ids ids' : Nat → BitVec 64} {rxs : List Rx} (hbatch : ∀ d ∈ batch, d.Exact m ∧ d.ringSize = ringSize)
    (h : clientPollRxBatch dmaMap m.size ringSize ids (batch.map Delivered.desc) = (ids', .ok rxs)) :
    rxs.map (Rx.bytes dmaMap) =
      batch.map fun d => packetBytes m d.packet.first d.packet.rest d.desc.packetLength := by
  have hdecode : ∀ batch : List Delivered, (∀ d ∈ batch, d.Exact m ∧ d.ringSize = ringSize) →
      ∃ rxs, (batch.map Delivered.desc).mapM (clientRxDecode dmaMap m.size ringSize) = .ok rxs ∧
        rxs.map (Rx.bytes dmaMap) =
          batch.map fun d => packetBytes m d.packet.first d.packet.rest d.desc.packetLength := by
    intro batch hbatch
    induction batch with
    | nil => exact ⟨[], rfl, rfl⟩
    | cons d batch ih =>
      obtain ⟨rxs, hrest, hbytes⟩ := ih fun d' hd' => hbatch d' (mem_cons_of_mem _ hd')
      obtain ⟨hexact, hsize⟩ := hbatch d mem_cons_self
      obtain ⟨rx, hdec, hrx⟩ := hexact.decode dmaMap
      rw [hsize] at hdec
      refine ⟨rx :: rxs, ?_, ?_⟩
      · rw [map_cons, mapM_cons, hdec, hrest]
        rfl
      · rw [map_cons, map_cons, hrx, hbytes]
  obtain ⟨rxs₀, hok, hbytes⟩ := hdecode batch hbatch
  unfold clientPollRxBatch at h
  rw [hok] at h
  dsimp only at h
  split at h
  · cases h
  · cases h
    exact hbytes

theorem publish_isSome {ch : RxChannel} {pending packetLength : Nat}
    (hroom : pending < ch.dmaSlotCount) (hfree : ch.rxFreeSlots ≠ []) (hok : ChainOk m pkt.first pkt.rest)
    (hlen : ipLength pkt.mem pkt.first.l3 pkt.first.stop pkt.isIp4 = some packetLength)
    (hpos : 0 < packetLength) (hfit : packetLength ≤
      (chainBytes pkt.first.l3 pkt.first (pkt.rest.take (maxRxSegs - 1))).length) :
    (ch.publish m pending pkt).2.isSome := by
  unfold RxChannel.publish
  rw [if_neg (Nat.not_le.mpr hroom)]
  split
  · rename_i hnil
    exact absurd hnil hfree
  rename_i token free _
  have hbuilt : (rxDescriptorBuild pkt.mem m pkt.first pkt.rest token pkt.isIp4 pkt.isUdp).isSome :=
    rxDescriptorBuild_isSome hok hlen hpos hfit
  obtain ⟨desc, hdesc⟩ := Option.isSome_iff_exists.mp hbuilt
  rw [hdesc]
  rfl

end

end Uet.Vpp
