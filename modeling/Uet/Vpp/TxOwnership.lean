import Uet.Vpp.TxChannel
import Uet.Vpp.RxToken

/-!
# Sending over all channels

The channels of the workers share the pool that the buffers come from, and the graph that packets
go to. A buffer is in one slot of one channel, in the graph, or in the pool: a sweep takes a buffer
from the pool for the slot whose buffer it gives to the graph.
-/

namespace Uet.Vpp

open Spsc List Function

/-- All channels, with the buffers that no slot has. A buffer that a sweep has taken out of a
slot is the graph's. -/
structure TxSystem where
  channels : List TxChannel
  pool : List (BitVec 32)
  graph : List (BitVec 32)

inductive TxEv where
  | acquire (c : Nat)
  | releaseDma (c slot : Nat)
  | submitLoad (c : Nat)
  | submit (c : Nat) (requests : List TxRequest)
  | pollLoad (c : Nat)
  | poll (c completionCapacity : Nat)
  | sweepCq (c : Nat)
  | sweepTx (c : Nat)
  | request (c : Nat) (found : Found)
  | storeCq (c : Nat)
  | storeTx (c : Nat)
  | graphAlloc (buffer : BitVec 32)
  | graphFree (buffer : BitVec 32)

section

variable (n capacity : Nat)

def TxSystem.onChannel (s : TxSystem) (c : Nat) (f : TxChannel → TxChannel) : TxSystem :=
  match s.channels[c]? with
  | none => s
  | some ch => { s with channels := s.channels.set c (f ch) }

/-- One request of a sweep. Without room for the completion, or without a buffer for the slot,
the sweep ends and the request stays for the next one. -/
def TxSystem.request (s : TxSystem) (c : Nat) (f : Found) : TxSystem :=
  match s.channels[c]? with
  | none => s
  | some ch =>
    if ch.worker ≠ .running then s
    else
      match ch.nextRequest n with
      | none => s
      | some d =>
        if !ch.cq.hasRoom n then s
        else
          match refusal n capacity d f with
          | some status => { s with channels := s.channels.set c (ch.complete n d status 0) }
          | none =>
            match f.replacement with
            | none => s
            | some buffer =>
              if buffer ∉ s.pool then s
              else
                { channels := s.channels.set c
                    ((ch.replace d.dmaSlot buffer).complete n d .ok d.packetLength)
                  pool := s.pool.erase buffer
                  graph := s.graph ++ [ch.dmaBufferIndices d.dmaSlot] }

def TxSystem.step (s : TxSystem) : TxEv → TxSystem
  | .acquire c => s.onChannel c fun ch => (ch.acquire n).1
  | .releaseDma c slot => s.onChannel c fun ch => (ch.releaseDma n slot).1
  | .submitLoad c => s.onChannel c fun ch => { ch with tx := ch.tx.step n (spscIndex n) .pLoad }
  | .submit c requests => s.onChannel c fun ch => (ch.submitIpBatch n capacity requests).1
  | .pollLoad c => s.onChannel c fun ch => { ch with cq := ch.cq.step n (spscIndex n) .cLoad }
  | .poll c completionCapacity => s.onChannel c fun ch => (ch.pollBatch n completionCapacity).1
  | .sweepCq c => s.onChannel c fun ch =>
      if ch.worker = .idle then
        { ch with cq := ch.cq.step n (spscIndex n) .pLoad, worker := .cqLoaded }
      else ch
  | .sweepTx c => s.onChannel c fun ch =>
      if ch.worker = .cqLoaded then
        { ch with tx := ch.tx.step n (spscIndex n) .cLoad
                  worker := if n < (ch.cq.producer - ch.cq.pSeen).toNat then .idle else .running }
      else ch
  | .request c f => s.request n capacity c f
  | .storeCq c => s.onChannel c fun ch =>
      if ch.worker = .running then
        { ch with cq := ch.cq.step n (spscIndex n) .publish, worker := .stored }
      else ch
  | .storeTx c => s.onChannel c fun ch =>
      if ch.worker = .stored then
        { ch with tx := ch.tx.step n (spscIndex n) .release, worker := .idle }
      else ch
  | .graphAlloc buffer =>
    if buffer ∈ s.pool then { s with pool := s.pool.erase buffer, graph := s.graph ++ [buffer] } else s
  | .graphFree buffer =>
    if buffer ∈ s.graph then { s with graph := s.graph.erase buffer, pool := s.pool ++ [buffer] } else s

end

def TxChannel.buffers (n : Nat) (ch : TxChannel) : List (BitVec 32) :=
  (List.range n).map ch.dmaBufferIndices

def TxSystem.owned (n : Nat) (s : TxSystem) : List (BitVec 32) :=
  s.pool ++ (s.graph ++ s.channels.flatMap (TxChannel.buffers n))

def TxSystem.init (slots : List (Nat → BitVec 32)) (pool graph : List (BitVec 32)) : TxSystem :=
  ⟨slots.map TxChannel.init, pool, graph⟩

structure TxSystem.Ok (n : Nat) (all : List (BitVec 32)) (s : TxSystem) : Prop where
  channels : ∀ ch ∈ s.channels, ch.Ok n
  owned : (s.owned n).Perm all

/-! ## One channel among the others -/

variable {buffer : BitVec 32} {c : Nat}

section

variable {n capacity : Nat} {all : List (BitVec 32)} {s : TxSystem}

theorem TxSystem.Ok.set_channels {ch' : TxChannel} (h : s.Ok n all) (hch' : ch'.Ok n) :
    ∀ ch ∈ s.channels.set c ch', ch.Ok n := by
  intro ch hmem
  rcases mem_or_eq_of_mem_set hmem with hmem | rfl
  · exact h.channels ch hmem
  · exact hch'

theorem TxSystem.Ok.onChannel (h : s.Ok n all) {f : TxChannel → TxChannel}
    (hf : ∀ ch, ch.Ok n → (f ch).Ok n ∧ (f ch).dmaBufferIndices = ch.dmaBufferIndices) :
    (s.onChannel c f).Ok n all := by
  unfold TxSystem.onChannel
  split
  · exact h
  rename_i ch hget
  obtain ⟨hok, hkeep⟩ := hf ch (h.channels ch (mem_of_getElem? hget))
  obtain ⟨others, hold, hset⟩ := flatMap_set (TxChannel.buffers n) hget
  refine ⟨h.set_channels hok, Perm.trans ?_ h.owned⟩
  have hbuf : (f ch).buffers n = ch.buffers n := by rw [TxChannel.buffers, hkeep]; rfl
  have hsame := hset (f ch)
  rw [hbuf] at hsame
  exact ((hsame.trans hold.symm).append_left s.graph).append_left s.pool

theorem perm_buffers_replace {ch : TxChannel} {slot : Nat} (hslot : slot < n) (buffer : BitVec 32) :
    (ch.dmaBufferIndices slot :: (ch.replace slot buffer).buffers n).Perm (buffer :: ch.buffers n) := by
  have hperm : (range n).Perm (slot :: (range n).erase slot) := perm_cons_erase (mem_range.mpr hslot)
  have hrest : ((range n).erase slot).map (update ch.dmaBufferIndices slot buffer) =
      ((range n).erase slot).map ch.dmaBufferIndices := by
    refine map_congr_left fun k hk => update_of_ne ?_ _ _
    rintro rfl
    exact nodup_range.not_mem_erase hk
  have hnew := hperm.map (update ch.dmaBufferIndices slot buffer)
  have hold := hperm.map ch.dmaBufferIndices
  rw [map_cons, update_self, hrest] at hnew
  rw [map_cons] at hold
  exact (hnew.cons _).trans ((Perm.swap _ _ _).trans (hold.symm.cons _))

theorem perm_take {pool rest rest' : List (BitVec 32)} (hmem : buffer ∈ pool)
    (h : rest'.Perm (buffer :: rest)) : (pool.erase buffer ++ rest').Perm (pool ++ rest) := by
  have hpool := perm_cons_erase hmem
  refine (h.append_left _).trans ?_
  exact perm_middle.trans ((hpool.symm).append_right rest)

theorem TxSystem.Ok.request (h : s.Ok n all) (hn : n < 2 ^ 32) (hapart : Apart n (spscIndex n))
    (c : Nat) (f : Found) : (s.request n capacity c f).Ok n all := by
  unfold TxSystem.request
  split
  · exact h
  rename_i ch hget
  have hch := h.channels ch (mem_of_getElem? hget)
  obtain ⟨others, hold, hset⟩ := flatMap_set (TxChannel.buffers n) hget
  split
  · exact h
  rename_i hrun
  rw [not_not] at hrun
  split
  · exact h
  rename_i d hd
  obtain ⟨-, -, hopen⟩ := hch.nextRequest hn hapart hd
  have hslot := hch.bounded d (mem_of_mem_drop hopen)
  split
  · exact h
  rename_i hroom
  rw [Bool.not_eq_true', Bool.not_eq_false] at hroom
  split
  · rename_i status hrefuse
    refine ⟨h.set_channels (hch.complete hn hapart hrun hd hroom status 0), Perm.trans ?_ h.owned⟩
    have hsame := hset (ch.complete n d status 0)
    exact ((hsame.trans hold.symm).append_left s.graph).append_left s.pool
  · split
    · exact h
    · rename_i buffer hrep
      split
      · exact h
      rename_i hmem
      rw [not_not] at hmem
      have hinf := (hch.inflight d.dmaSlot).mpr (mem_map_of_mem hopen)
      refine ⟨h.set_channels ((hch.replace hinf buffer).complete hn hapart hrun hd hroom .ok
        d.packetLength), Perm.trans ?_ h.owned⟩
      refine perm_take hmem ?_
      -- the new buffer in the slot, the old one in the graph
      have hslots : (ch.dmaBufferIndices d.dmaSlot ::
          (s.channels.set c ((ch.replace d.dmaSlot buffer).complete n d .ok
            d.packetLength)).flatMap (TxChannel.buffers n)).Perm
          (buffer :: s.channels.flatMap (TxChannel.buffers n)) := by
        refine ((hset _).cons _).trans ?_
        refine ((perm_buffers_replace hslot buffer).append_right others).trans ?_
        exact (hold.symm.cons buffer)
      rw [append_assoc, singleton_append]
      exact (hslots.append_left s.graph).trans perm_middle

theorem acquire_buffers (n : Nat) (ch : TxChannel) :
    (ch.acquire n).1.dmaBufferIndices = ch.dmaBufferIndices := by
  unfold TxChannel.acquire
  split <;> rfl

theorem releaseDma_buffers (n : Nat) (ch : TxChannel) (slot : Nat) :
    (ch.releaseDma n slot).1.dmaBufferIndices = ch.dmaBufferIndices := by
  unfold TxChannel.releaseDma
  split
  · rfl
  · split <;> rfl

theorem putAll_buffers (n : Nat) (ch : TxChannel) (put rs : List TxRequest) :
    (ch.putAll n put rs).1.dmaBufferIndices = ch.dmaBufferIndices := by
  induction rs generalizing ch put with
  | nil => rfl
  | cons r rs ih =>
    rw [TxChannel.putAll]
    split
    · rw [foldl_takeBack, foldl_settle]
    · rw [ih]
      rfl

theorem submit_buffers (n capacity : Nat) (ch : TxChannel) (rs : List TxRequest) :
    (ch.submitIpBatch n capacity rs).1.dmaBufferIndices = ch.dmaBufferIndices := by
  have hput := putAll_buffers n ch [] rs
  unfold TxChannel.submitIpBatch
  dsimp only
  split
  · rfl
  split
  · rfl
  split
  · rfl
  · split
    · rfl
    · split <;> rename_i hrun <;> rw [hrun] at hput <;> exact hput

theorem poll_buffers (n : Nat) (ch : TxChannel) (cap : Nat) :
    (ch.pollBatch n cap).1.dmaBufferIndices = ch.dmaBufferIndices := by
  unfold TxChannel.pollBatch
  dsimp only
  split
  · rfl
  split
  · rfl
  split
  · rfl
  · rw [foldl_retire, foldl_settle]

theorem TxSystem.Ok.step (h : s.Ok n all) (hn : n < 2 ^ 32) (hapart : Apart n (spscIndex n))
    (capacity : Nat) (ev : TxEv) : (s.step n capacity ev).Ok n all := by
  cases ev with
  | acquire c => exact h.onChannel fun ch hch => ⟨hch.acquire, acquire_buffers n ch⟩
  | releaseDma _ slot => exact h.onChannel fun ch hch => ⟨hch.releaseDma .., releaseDma_buffers n ch slot⟩
  | submitLoad c => exact h.onChannel fun ch hch => ⟨hch.submitLoad hn hapart, rfl⟩
  | submit c rs =>
    exact h.onChannel fun ch hch =>
      ⟨(hch.submitIpBatch hn hapart rs).1, submit_buffers n capacity ch rs⟩
  | pollLoad c => exact h.onChannel fun ch hch => ⟨hch.pollLoad hn hapart, rfl⟩
  | poll _ cap => exact h.onChannel fun ch hch => ⟨hch.pollBatch hn hapart .., poll_buffers n ch cap⟩
  | sweepCq c =>
    refine h.onChannel fun ch hch => ?_
    split
    · rename_i hidle
      exact ⟨hch.sweepCq hn hapart hidle, rfl⟩
    · exact ⟨hch, rfl⟩
  | sweepTx c =>
    refine h.onChannel fun ch hch => ?_
    split
    · rename_i hloaded
      exact ⟨hch.sweepTx hn hapart hloaded, rfl⟩
    · exact ⟨hch, rfl⟩
  | request => exact h.request hn hapart ..
  | storeCq c =>
    refine h.onChannel fun ch hch => ?_
    split
    · exact ⟨hch.storeCq hn hapart, rfl⟩
    · exact ⟨hch, rfl⟩
  | storeTx c =>
    refine h.onChannel fun ch hch => ?_
    split
    · rename_i hstored
      exact ⟨hch.storeTx hn hapart hstored, rfl⟩
    · exact ⟨hch, rfl⟩
  | graphAlloc buffer =>
    simp only [TxSystem.step]
    split
    · rename_i hmem
      refine ⟨h.channels, Perm.trans ?_ h.owned⟩
      refine perm_take hmem ?_
      rw [append_assoc, singleton_append]
      exact perm_middle
    · exact h
  | graphFree buffer =>
    simp only [TxSystem.step]
    split
    · rename_i hmem
      refine ⟨h.channels, Perm.trans ?_ h.owned⟩
      have hgraph := perm_cons_erase hmem
      dsimp only [TxSystem.owned]
      rw [append_assoc, singleton_append, ← cons_append]
      exact (hgraph.symm.append_right _).append_left s.pool
    · exact h

end

/-! ## A sweep answers -/

section

variable {n : Nat} {s : TxSystem} {ch : TxChannel}

theorem TxChannel.Ok.opened_length_le (h : ch.Ok n) : ch.opened.length ≤ n := by
  have hsub : ch.opened.map TxDesc.dmaSlot ⊆ range n := by
    intro slot hmem
    obtain ⟨d, hd, rfl⟩ := mem_map.mp hmem
    exact mem_range.mpr (h.bounded d (mem_of_mem_drop hd))
  have hle := (h.nodup.subperm hsub).length_le
  rwa [length_map, length_range] at hle

theorem TxChannel.Ok.sweep_finds (h : ch.Ok n) (hn : n < 2 ^ 32) (hidle : ch.worker = .idle)
    (hmore : ch.cq.published.length < ch.tx.published.length) :
    let ch₂ := { ch with
      cq := ch.cq.step n (spscIndex n) .pLoad, tx := ch.tx.step n (spscIndex n) .cLoad
      worker := .running }
    ¬ n < (ch₂.cq.producer - ch₂.cq.pSeen).toNat ∧
      ch₂.cq.hasRoom n = true ∧
      ∃ d, ch.tx.published[ch.cq.published.length]? = some d ∧ ch₂.nextRequest n = some d := by
  intro ch₂
  obtain ⟨htaken, hstaged⟩ := h.swept (.inl hidle)
  have hlen := h.answers_length
  rw [htaken, hstaged, length_nil, length_nil, add_zero, add_zero] at hlen
  have hopen : ch.tx.published.length - ch.cq.delivered.length ≤ n := by
    have hle := h.opened_length_le
    rwa [TxChannel.opened, length_drop] at hle
  have hpolled := h.polled_le
  obtain ⟨pc, cp, hcq⟩ := h.cq
  obtain ⟨pc', cp', htx⟩ := h.tx
  have hcqFifo := hcq.fifo hn
  have htxFifo := htx.fifo hn
  have hcqCount : (ch.cq.producer - ch.cq.consumer).toNat =
      ch.cq.published.length - ch.cq.delivered.length := hcqFifo.count
  have htxCount : (ch.tx.producer - ch.tx.consumer).toNat =
      ch.tx.published.length - ch.tx.delivered.length := htxFifo.count
  refine ⟨?_, ?_, ch.tx.published[ch.cq.published.length], getElem?_eq_getElem hmore, ?_⟩
  · change ¬ n < (ch.cq.producer - ch.cq.consumer).toNat
    omega
  · have hnext : ch₂.cq.next = ch.cq.producer := BitVec.add_zero _
    rw [Ring.hasRoom, decide_eq_true_eq, hnext]
    change (ch.cq.producer - ch.cq.consumer).toNat < n
    omega
  · have hslot := htxFifo.intact 0 ch.tx.published[ch.cq.published.length] (by
      rw [add_zero, ← hlen]
      exact getElem?_eq_getElem hmore)
    have hlt : 0 < min (ch.tx.producer - ch.tx.consumer).toNat n := by omega
    exact (if_pos hlt).trans (congrArg some hslot)

theorem onChannel_get {f : TxChannel → TxChannel} (hget : s.channels[c]? = some ch) :
    (s.onChannel c f).channels[c]? = some (f ch) ∧ (s.onChannel c f).pool = s.pool := by
  have hlt := (List.getElem?_eq_some_iff.mp hget).1
  rw [TxSystem.onChannel, hget]
  exact ⟨getElem?_set_self hlt, rfl⟩

def sweep (c : Nat) (f : Found) : List TxEv :=
  [.sweepCq c, .sweepTx c, .request c f, .storeCq c, .storeTx c]

theorem request_answers (capacity : Nat) {f : Found} {d : TxDesc}
    (hch : ch.Ok n) (hn : n < 2 ^ 32) (hapart : Apart n (spscIndex n))
    (hget : s.channels[c]? = some ch) (hrun : ch.worker = .running)
    (hd : ch.nextRequest n = some d) (hroom : ch.cq.hasRoom n = true)
    (hbuffer : buffer ∈ s.pool) (hrep : f.replacement = some buffer) :
    ∃ ch', (s.request n capacity c f).channels[c]? = some ch' ∧ ch'.worker = .running ∧
      ch'.cq.published = ch.cq.published ∧
      ch'.cq.staged.map TxCompletion.key = ch.cq.staged.map TxCompletion.key ++ [d.key] := by
  have hlt := (List.getElem?_eq_some_iff.mp hget).1
  obtain ⟨-, -, hopen⟩ := hch.nextRequest hn hapart hd
  have hslot := hch.bounded d (mem_of_mem_drop hopen)
  have hcomplete : ∀ (ch₁ : TxChannel) status length, ch₁.cq = ch.cq →
      (ch₁.complete n d status length).cq.published = ch.cq.published ∧
      (ch₁.complete n d status length).cq.staged.map TxCompletion.key =
        ch.cq.staged.map TxCompletion.key ++ [d.key] := by
    intro ch₁ status length hcq
    simp only [TxChannel.complete, hcq, Ring.step, hroom, if_true, if_pos hslot, map_append]
    exact ⟨trivial, rfl⟩
  unfold TxSystem.request
  rw [hget]
  dsimp only
  rw [if_neg (fun hne => hne hrun), hd]
  dsimp only
  rw [hroom, Bool.not_true, if_neg Bool.false_ne_true]
  split
  · rename_i status hrefuse
    exact ⟨_, getElem?_set_self hlt, hrun, hcomplete ch status 0 rfl⟩
  rw [hrep]
  dsimp only
  rw [if_neg (not_not.mpr hbuffer)]
  exact ⟨_, getElem?_set_self hlt, hrun, hcomplete (ch.replace d.dmaSlot buffer) .ok d.packetLength rfl⟩

theorem sweep_answers (capacity : Nat) {f : Found} {all : List (BitVec 32)}
    (h : s.Ok n all) (hn : n < 2 ^ 32) (hapart : Apart n (spscIndex n))
    (hget : s.channels[c]? = some ch) (hidle : ch.worker = .idle)
    (hmore : ch.cq.published.length < ch.tx.published.length) (hbuffer : buffer ∈ s.pool)
    (hrep : f.replacement = some buffer) :
    ∃ ch', ((sweep c f).foldl (TxSystem.step n capacity) s).channels[c]? = some ch' ∧
      ch'.worker = .idle ∧ ch'.cq.published.map TxCompletion.key =
        (ch.tx.published.map TxDesc.key).take (ch.cq.published.length + 1) := by
  have hch := h.channels ch (mem_of_getElem? hget)
  obtain ⟨hfull, hroom, d, hd, hnext⟩ := hch.sweep_finds hn hidle hmore
  obtain ⟨htaken, hstaged⟩ := hch.swept (.inl hidle)
  have hpre : ch.cq.published.map TxCompletion.key =
      (ch.tx.published.map TxDesc.key).take ch.cq.published.length := by
    have hall := prefix_iff_eq_take.mp hch.answers_prefix
    rw [hstaged, append_nil, length_map] at hall
    exact hall
  -- the loads
  have h₂ := (h.step hn hapart capacity (.sweepCq c)).step hn hapart capacity (.sweepTx c)
  obtain ⟨hg₁, hp₁⟩ := onChannel_get (f := fun ch => if ch.worker = .idle then
      { ch with cq := ch.cq.step n (spscIndex n) .pLoad, worker := .cqLoaded } else ch) hget
  rw [if_pos hidle] at hg₁
  obtain ⟨hg₂, hp₂⟩ := onChannel_get (f := fun ch => if ch.worker = .cqLoaded then
      { ch with tx := ch.tx.step n (spscIndex n) .cLoad
                worker := if n < (ch.cq.producer - ch.cq.pSeen).toNat then .idle else .running } else ch) hg₁
  rw [if_pos rfl, if_neg hfull] at hg₂
  -- the request
  obtain ⟨ch₃, hg₃, hrun₃, hpub₃, hstaged₃⟩ := request_answers capacity
    (h₂.channels _ (mem_of_getElem? hg₂)) hn hapart hg₂ rfl hnext hroom
    ((hp₂.trans hp₁).symm ▸ hbuffer) hrep
  -- the stores
  obtain ⟨hg₄, -⟩ := onChannel_get (f := fun ch => if ch.worker = .running then
      { ch with cq := ch.cq.step n (spscIndex n) .publish, worker := .stored } else ch) hg₃
  rw [if_pos hrun₃] at hg₄
  obtain ⟨hg₅, -⟩ := onChannel_get (f := fun ch => if ch.worker = .stored then
      { ch with tx := ch.tx.step n (spscIndex n) .release, worker := .idle } else ch) hg₄
  rw [if_pos rfl] at hg₅
  refine ⟨_, hg₅, rfl, ?_⟩
  have hget' : (ch.tx.published.map TxDesc.key)[ch.cq.published.length]? = some d.key := by
    rw [getElem?_map, hd]
    rfl
  rw [take_add_one, hget', ← hpre]
  dsimp only [Ring.step]
  rw [map_append, hstaged₃, hpub₃]
  rfl

end

theorem ok_txInit (n : Nat) (slots : List (Nat → BitVec 32)) (pool graph : List (BitVec 32)) :
    (TxSystem.init slots pool graph).Ok n ((TxSystem.init slots pool graph).owned n) := by
  refine ⟨fun ch hch => ?_, .refl _⟩
  obtain ⟨buffers, -, rfl⟩ := mem_map.mp hch
  exact ok_init n buffers

theorem TxSystem.ok_run {n : Nat} (hn : n < 2 ^ 32) (hapart : Apart n (spscIndex n)) (capacity : Nat)
    {all : List (BitVec 32)} {s : TxSystem} (h : s.Ok n all) (evs : List TxEv) :
    (evs.foldl (TxSystem.step n capacity) s).Ok n all := by
  induction evs generalizing s with
  | nil => exact h
  | cons _ _ ih => exact ih (h.step hn hapart ..)

/-- One packet is sent over a channel of depth eight and its completion is taken. -/
def sendOne : List TxEv :=
  [.acquire 0, .submitLoad 0, .submit 0 [⟨0, 64, 7, 9⟩]] ++ sweep 0 ⟨true, false, true, some 100⟩ ++
    [.pollLoad 0, .poll 0 4]

end Uet.Vpp
