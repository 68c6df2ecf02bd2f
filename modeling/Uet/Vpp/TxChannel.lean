import Uet.Vpp.Ring
import Uet.Vpp.Endpoint

/-!
# A channel for sending

A channel has a table of slots, each with a buffer. The library hands a free slot out, the
application writes a packet into its buffer and submits it through one ring, and the worker answers
through another. The worker gives the buffer of a good packet to the graph and puts a new one into
the slot before it publishes the completion; the library frees the slot when it takes the
completion.

Loads, batches and stores of both sides are steps of their own. What a side writes into
a ring is not seen before it stores its counter, so the writes of a batch are one step.
-/

namespace Uet.Vpp

open Spsc List Function

/-- `UET_VPP_SVM_INVALID_DMA_SLOT`. -/
def invalidDmaSlot : Nat := 0xffffffff

/-- `uet_vpp_svm_status_t` as the worker uses it. -/
inductive TxStatus where
  | ok | invalidPacket | txNotConfigured | slotBusy
  deriving DecidableEq

/-- `uet_vpp_svm_tx_desc_t`. -/
structure TxDesc where
  dmaSlot : Nat
  packetLength : Nat
  requestId : BitVec 64
  userContext : BitVec 64
  reserved : BitVec 64
  deriving DecidableEq

/-- `uet_vpp_svm_tx_completion_t`; the worker leaves the reserved field zero. -/
structure TxCompletion where
  dmaSlot : Nat
  status : TxStatus
  completedLength : Nat
  requestId : BitVec 64
  userContext : BitVec 64
  deriving DecidableEq

def TxDesc.key (d : TxDesc) : BitVec 64 × Nat × BitVec 64 := (d.requestId, d.dmaSlot, d.userContext)

def TxCompletion.key (c : TxCompletion) : BitVec 64 × Nat × BitVec 64 :=
  (c.requestId, c.dmaSlot, c.userContext)

/-- `uet_vpp_slot_state_t`. -/
inductive SlotState where
  | free | reserved | inflight
  deriving DecidableEq

/-- Where the worker is in `uet_tx_process`. -/
inductive SweepPhase where
  | idle
  | cqLoaded
  | running
  | stored
  deriving DecidableEq

/-- A channel with the worker's side and the library's side. `dmaSlots` is the table in shared
memory, with the buffer that an offset leads to; `data` is the memory that the last
acquisition of a slot returned. -/
structure TxChannel where
  tx : Ring TxDesc 32
  cq : Ring TxCompletion 32
  worker : SweepPhase
  dmaBufferIndices : Nat → BitVec 32
  dmaSlots : Nat → BitVec 32
  slotStates : Nat → SlotState
  slotRequestIds : Nat → BitVec 64
  dmaNextSlot : Nat
  dmaInflight : Nat
  data : Nat → BitVec 32

def TxDesc.zero : TxDesc := ⟨0, 0, 0, 0, 0⟩

def TxCompletion.zero : TxCompletion := ⟨0, .ok, 0, 0, 0⟩

def TxChannel.init (buffers : Nat → BitVec 32) : TxChannel :=
  { tx := .init 32 .zero, cq := .init 32 .zero, worker := .idle, dmaBufferIndices := buffers
    dmaSlots := buffers, slotStates := fun _ => .free, slotRequestIds := fun _ => 0, dmaNextSlot := 0
    dmaInflight := 0, data := fun _ => 0 }

section

variable (n capacity : Nat)

/-! ## The library -/

/-- `uet_vpp_client_acquire_dma`. -/
def TxChannel.acquire (ch : TxChannel) : TxChannel × Except Errno Nat :=
  match (List.range n).find? fun i => ch.slotStates ((ch.dmaNextSlot + i) % n) = .free with
  | none => (ch, .error .eagain)
  | some i =>
    let slot := (ch.dmaNextSlot + i) % n
    ({ ch with
        slotStates := update ch.slotStates slot .reserved
        dmaNextSlot := (slot + 1) % n
        data := update ch.data slot (ch.dmaSlots slot) }, .ok slot)

/-- `uet_vpp_client_release_dma`. -/
def TxChannel.releaseDma (ch : TxChannel) (slot : Nat) : TxChannel × Option Errno :=
  if n ≤ slot then (ch, some .einval)
  else if ch.slotStates slot ≠ .reserved then (ch, some .eperm)
  else ({ ch with slotStates := update ch.slotStates slot .free }, none)

/-- `uet_vpp_client_tx_request_t`. -/
structure TxRequest where
  dmaSlot : Nat
  packetLength : Nat
  requestId : BitVec 64
  userContext : BitVec 64

def TxRequest.desc (r : TxRequest) : TxDesc :=
  ⟨r.dmaSlot, r.packetLength, r.requestId, r.userContext, 0⟩

def TxChannel.requestError (ch : TxChannel) (r : TxRequest) : Option Errno :=
  if n ≤ r.dmaSlot then some .einval
  else if ch.slotStates r.dmaSlot ≠ .reserved then some .eperm
  else if r.packetLength < 20 ∨ capacity < r.packetLength then some .emsgsize
  else none

def TxChannel.put (ch : TxChannel) (r : TxRequest) : TxChannel :=
  { ch with
    tx := ch.tx.step n (spscIndex n) (.write r.desc)
    slotRequestIds := update ch.slotRequestIds r.dmaSlot r.requestId
    slotStates := update ch.slotStates r.dmaSlot .inflight }

def TxChannel.settle (st : SlotState) (ch : TxChannel) (slot : Nat) : TxChannel :=
  { ch with
    slotRequestIds := update ch.slotRequestIds slot 0
    slotStates := update ch.slotStates slot st }

def TxChannel.takeBack (ch : TxChannel) (r : TxRequest) : TxChannel := ch.settle .reserved r.dmaSlot

/-- The second loop of `uet_vpp_client_submit_ip_batch`: a slot that comes twice makes the
batch fail. -/
def TxChannel.putAll : TxChannel → List TxRequest → List TxRequest → TxChannel × Option Errno
  | ch, _, [] => (ch, none)
  | ch, put, r :: rs =>
    if ch.slotStates r.dmaSlot ≠ .reserved then
      let back := put.foldl TxChannel.takeBack ch
      ({ back with tx := back.tx.step n (spscIndex n) .pAbandon }, some .einval)
    else TxChannel.putAll (ch.put n r) (r :: put) rs

/-- `uet_vpp_client_submit_ip_batch` after the load of the consumer. -/
def TxChannel.submitIpBatch (ch : TxChannel) (rs : List TxRequest) : TxChannel × Option Errno :=
  let pending := (ch.tx.producer - ch.tx.pSeen).toNat
  if rs = [] then (ch, some .einval)
  else if n < pending then (ch, some .eproto)
  else if n - pending < rs.length then (ch, some .eagain)
  else
    match rs.findSome? (ch.requestError n capacity) with
    | some e => (ch, some e)
    | none =>
      match ch.putAll n [] rs with
      | (ch', some e) => (ch', some e)
      | (ch', none) =>
        ({ ch' with
            dmaInflight := ch'.dmaInflight + rs.length
            tx := ch'.tx.step n (spscIndex n) .publish }, none)

def TxChannel.completionInvalid (ch : TxChannel) (c : TxCompletion) : Bool :=
  decide (n ≤ c.dmaSlot) || ch.slotStates c.dmaSlot != .inflight ||
    ch.slotRequestIds c.dmaSlot != c.requestId

def TxChannel.retire (ch : TxChannel) (c : TxCompletion) : TxChannel := ch.settle .free c.dmaSlot

/-- `uet_vpp_client_poll_batch` after the load of the producer. -/
def TxChannel.pollBatch (ch : TxChannel) (completionCapacity : Nat) :
    TxChannel × Except Errno (List TxCompletion) :=
  let available := (ch.cq.cSeen - ch.cq.consumer).toNat
  if completionCapacity = 0 then (ch, .error .einval)
  else if n < available then (ch, .error .eproto)
  else
    let cq := ch.cq.readAll n (spscIndex n) (min available completionCapacity)
    if cq.taken.any (ch.completionInvalid n) then (ch, .error .eproto)
    else
      let ch' := cq.taken.foldl TxChannel.retire ch
      ({ ch' with
          dmaInflight := ch'.dmaInflight - cq.taken.length
          cq := cq.step n (spscIndex n) .release }, .ok cq.taken)

/-! ## The worker -/

def TxChannel.nextRequest (ch : TxChannel) : Option TxDesc :=
  if ch.tx.taken.length < min (ch.tx.cSeen - ch.tx.consumer).toNat n then
    some (ch.tx.slot (spscIndex n (ch.tx.consumer + BitVec.ofNat 32 ch.tx.taken.length)))
  else none

/-- A request is answered: `uet_tx_completion_add`, and the loop goes on. -/
def TxChannel.complete (ch : TxChannel) (d : TxDesc) (status : TxStatus) (length : Nat) : TxChannel :=
  { ch with
    tx := ch.tx.step n (spscIndex n) .read
    cq := ch.cq.step n (spscIndex n) (.write
      ⟨if d.dmaSlot < n then d.dmaSlot else invalidDmaSlot, status, length, d.requestId,
        d.userContext⟩) }

/-- What the sweep finds outside of the channel: whether TX is configured, whether the
buffer has other references, whether `uet_tx_ip_prepare` takes the packet, and the buffer
that the pool gives, if any. -/
structure Found where
  configured : Bool
  busy : Bool
  prepared : Bool
  replacement : Option (BitVec 32)

def refusal (d : TxDesc) (f : Found) : Option TxStatus :=
  if !f.configured then some .txNotConfigured
  else if n ≤ d.dmaSlot ∨ capacity < d.packetLength ∨ d.reserved ≠ 0 then some .invalidPacket
  else if f.busy then some .slotBusy
  else if !f.prepared then some .invalidPacket
  else none

/-- `uet_dma_slot_replace` for a slot. -/
def TxChannel.replace (ch : TxChannel) (slot : Nat) (buffer : BitVec 32) : TxChannel :=
  { ch with
    dmaBufferIndices := update ch.dmaBufferIndices slot buffer
    dmaSlots := update ch.dmaSlots slot buffer }

end

def TxChannel.opened (ch : TxChannel) : List TxDesc := ch.tx.published.drop ch.cq.delivered.length

/-- The two rings are queues; the completions answer the submissions in order; the slots in
flight are those of the open submissions, each once; and the memory of a reserved slot is the buffer
that the slot has. -/
structure TxChannel.Ok (n : Nat) (ch : TxChannel) : Prop where
  tx : Good n (spscIndex n) ch.tx
  cq : Good n (spscIndex n) ch.cq
  txStaged : ch.tx.staged = []
  cqTaken : ch.cq.taken = []
  swept : ch.worker = .idle ∨ ch.worker = .cqLoaded → ch.tx.taken = [] ∧ ch.cq.staged = []
  stored : ch.worker = .stored → ch.cq.staged = []
  answers : (ch.cq.published ++ ch.cq.staged).map TxCompletion.key =
    (ch.tx.delivered ++ ch.tx.taken).map TxDesc.key
  bounded : ∀ d ∈ ch.tx.published, d.dmaSlot < n
  nodup : (ch.opened.map TxDesc.dmaSlot).Nodup
  inflight : ∀ slot, ch.slotStates slot = .inflight ↔ slot ∈ ch.opened.map TxDesc.dmaSlot
  ids : ∀ d ∈ ch.opened, ch.slotRequestIds d.dmaSlot = d.requestId
  count : ch.dmaInflight = ch.opened.length
  table : ch.dmaSlots = ch.dmaBufferIndices
  data : ∀ slot, ch.slotStates slot = .reserved → ch.data slot = ch.dmaBufferIndices slot

/-! ## What the invariant says -/

section

variable {n : Nat} {ch : TxChannel}

section

variable (h : ch.Ok n)
include h

theorem TxChannel.Ok.taken_le : ch.tx.delivered.length + ch.tx.taken.length ≤ ch.tx.published.length := by
  have hle := h.tx.order.length_le
  rwa [length_append] at hle

theorem TxChannel.Ok.polled_le : ch.cq.delivered.length ≤ ch.cq.published.length := by
  have hle := h.cq.order.length_le
  rwa [h.cqTaken, append_nil] at hle

theorem TxChannel.Ok.answers_length :
    ch.cq.published.length + ch.cq.staged.length = ch.tx.delivered.length + ch.tx.taken.length := by
  have hlen := congrArg List.length h.answers
  simpa only [length_map, length_append] using hlen

theorem TxChannel.Ok.answers_prefix :
    (ch.cq.published ++ ch.cq.staged).map TxCompletion.key <+: ch.tx.published.map TxDesc.key := by
  rw [h.answers]
  exact h.tx.order.map _

theorem TxChannel.Ok.waiting_prefix :
    (ch.cq.published.drop ch.cq.delivered.length).map TxCompletion.key <+: ch.opened.map TxDesc.key := by
  have hpre : ch.cq.published.map TxCompletion.key <+: ch.tx.published.map TxDesc.key := by
    refine IsPrefix.trans ?_ h.answers_prefix
    rw [map_append]
    exact prefix_append _ _
  rw [TxChannel.opened, map_drop, map_drop]
  exact hpre.drop _

theorem TxChannel.Ok.nextRequest (hn : n < 2 ^ 32) (hapart : Apart n (spscIndex n))
    {d : TxDesc} (hd : ch.nextRequest n = some d) :
    ch.tx.step n (spscIndex n) .read = { ch.tx with taken := ch.tx.taken ++ [d] } ∧
      ch.tx.published[ch.tx.delivered.length + ch.tx.taken.length]? = some d ∧ d ∈ ch.opened := by
  unfold TxChannel.nextRequest at hd
  split at hd
  · have hentry : ch.tx.hasEntry = true := by
      rw [Ring.hasEntry, decide_eq_true_eq]
      omega
    have hstep : ch.tx.step n (spscIndex n) .read = { ch.tx with taken := ch.tx.taken ++ [d] } := by
      rw [Ring.step, if_pos hentry]
      rw [Option.some.inj hd]
    have horder := (h.tx.step hn hapart .read).order
    rw [hstep] at horder
    rw [← append_assoc] at horder
    have hget : ch.tx.published[ch.tx.delivered.length + ch.tx.taken.length]? = some d := by
      obtain ⟨rest, hrest⟩ := horder
      rw [← hrest, ← length_append, append_assoc, getElem?_append_right (Nat.le_refl _), Nat.sub_self]
      rfl
    refine ⟨hstep, hget, ?_⟩
    have hle := h.polled_le
    have hlen := h.answers_length
    have hdrop : ch.opened[ch.tx.delivered.length + ch.tx.taken.length - ch.cq.delivered.length]? =
        some d := by
      rw [TxChannel.opened, getElem?_drop, Nat.add_sub_cancel' (by omega)]
      exact hget
    exact mem_of_getElem? hdrop
  · cases hd

end

end

/-! ## The library keeps it -/

section

variable {n capacity : Nat} {ch : TxChannel}

theorem ok_init (n : Nat) (buffers : Nat → BitVec 32) : (TxChannel.init buffers).Ok n := by
  constructor
  case tx => exact good_init _
  case cq => exact good_init _
  case swept => exact fun _ => ⟨rfl, rfl⟩
  case stored => exact nofun
  case bounded => exact fun d hd => absurd hd not_mem_nil
  case nodup => exact nodup_nil
  case inflight => exact fun slot => ⟨nofun, fun hmem => absurd hmem not_mem_nil⟩
  case ids => exact fun d hd => absurd hd not_mem_nil
  case data => exact nofun
  all_goals rfl

theorem TxChannel.Ok.submitLoad (h : ch.Ok n) (hn : n < 2 ^ 32) (hapart : Apart n (spscIndex n)) :
    TxChannel.Ok n { ch with tx := ch.tx.step n (spscIndex n) .pLoad } :=
  { h with tx := h.tx.step hn hapart .pLoad, txStaged := rfl }

theorem TxChannel.Ok.pollLoad (h : ch.Ok n) (hn : n < 2 ^ 32) (hapart : Apart n (spscIndex n)) :
    TxChannel.Ok n { ch with cq := ch.cq.step n (spscIndex n) .cLoad } :=
  { h with cq := h.cq.step hn hapart .cLoad, cqTaken := rfl }

theorem TxChannel.Ok.setState (h : ch.Ok n) {slot : Nat} {st : SlotState} {next : Nat}
    {data : Nat → BitVec 32} (hold : ch.slotStates slot ≠ .inflight) (hst : st ≠ .inflight)
    (hdata : ∀ k, k ≠ slot → data k = ch.data k) (hslot : st = .reserved → data slot = ch.dmaSlots slot) :
    TxChannel.Ok n { ch with
      slotStates := update ch.slotStates slot st, dmaNextSlot := next, data } := by
  refine { h with inflight := fun k => ?_, data := fun k hk => ?_ }
  · dsimp only
    by_cases hks : k = slot
    · subst hks
      rw [update_self]
      exact ⟨fun hc => absurd hc hst, fun hmem => absurd ((h.inflight k).mpr hmem) hold⟩
    · rw [update_of_ne hks]
      exact h.inflight k
  · dsimp only at hk ⊢
    by_cases hks : k = slot
    · subst hks
      rw [update_self] at hk
      rw [hslot hk, h.table]
    rw [update_of_ne hks] at hk
    rw [hdata k hks]
    exact h.data k hk

variable {ch' : TxChannel}

theorem acquire_cases {slot : Nat} (h : ch.acquire n = (ch', .ok slot)) :
    slot < n ∧ ch.slotStates slot = .free ∧
      ch' = { ch with
        slotStates := update ch.slotStates slot .reserved
        dmaNextSlot := (slot + 1) % n
        data := update ch.data slot (ch.dmaSlots slot) } := by
  unfold TxChannel.acquire at h
  split at h
  · cases h
  rename_i i hfind
  cases h
  have hmem := mem_range.mp (mem_of_find?_eq_some hfind)
  refine ⟨Nat.mod_lt _ (by omega), ?_, rfl⟩
  simpa only [decide_eq_true_eq] using find?_some hfind

theorem TxChannel.Ok.acquire (h : ch.Ok n) : (ch.acquire n).1.Ok n := by
  rcases hacq : ch.acquire n with ⟨ch', e | slot⟩
  · unfold TxChannel.acquire at hacq
    split at hacq
    · cases hacq
      exact h
    · cases hacq
  · obtain ⟨-, hfree, rfl⟩ := acquire_cases hacq
    refine h.setState (by rw [hfree]; nofun) nofun (fun k hk => update_of_ne hk _ _) fun _ => ?_
    exact update_self _ _ _

theorem TxChannel.Ok.releaseDma (h : ch.Ok n) (slot : Nat) : (ch.releaseDma n slot).1.Ok n := by
  unfold TxChannel.releaseDma
  split
  · exact h
  split
  · exact h
  · rename_i hst
    rw [not_not] at hst
    exact h.setState (by rw [hst]; nofun) nofun (fun _ _ => rfl) nofun

structure Midway (n : Nat) (ch₀ ch : TxChannel) (put : List TxRequest) : Prop where
  frame : ch = { ch₀ with
    tx := ch₀.tx.writeAll n (spscIndex n) (put.reverse.map TxRequest.desc)
    slotStates := ch.slotStates, slotRequestIds := ch.slotRequestIds }
  states : ∀ slot, ch.slotStates slot =
    if slot ∈ put.map TxRequest.dmaSlot then .inflight else ch₀.slotStates slot
  ids : ∀ slot, slot ∉ put.map TxRequest.dmaSlot → ch.slotRequestIds slot = ch₀.slotRequestIds slot
  putIds : ∀ r ∈ put, ch.slotRequestIds r.dmaSlot = r.requestId
  nodup : (put.map TxRequest.dmaSlot).Nodup
  reserved : ∀ r ∈ put, ch₀.slotStates r.dmaSlot = .reserved

theorem Midway.put {ch₀ : TxChannel} {put : List TxRequest} {r : TxRequest}
    (h : Midway n ch₀ ch put) (hr : ch.slotStates r.dmaSlot = .reserved) :
    Midway n ch₀ (ch.put n r) (r :: put) := by
  have hnot : r.dmaSlot ∉ put.map TxRequest.dmaSlot := by
    intro hmem
    rw [h.states, if_pos hmem] at hr
    cases hr
  refine ⟨?_, fun slot => ?_, fun slot hslot => ?_, fun r' hr' => ?_, ?_, fun r' hr' => ?_⟩
  · have htx : ch.tx = ch₀.tx.writeAll n (spscIndex n) (put.reverse.map TxRequest.desc) := by
      rw [h.frame]
    have hwrite : ch.tx.step n (spscIndex n) (.write r.desc) =
        ch₀.tx.writeAll n (spscIndex n) ((r :: put).reverse.map TxRequest.desc) := by
      rw [htx, reverse_cons, map_append, Ring.writeAll, Ring.writeAll, foldl_append]
      rfl
    rw [TxChannel.put, hwrite]
    rw [h.frame]
  · simp only [TxChannel.put, map_cons, mem_cons]
    by_cases hs : slot = r.dmaSlot
    · subst hs
      rw [update_self, if_pos (.inl rfl)]
    · rw [update_of_ne hs, h.states]
      simp only [hs, false_or]
  · rw [map_cons, mem_cons, not_or] at hslot
    rw [TxChannel.put]
    dsimp only
    rw [update_of_ne hslot.1]
    exact h.ids slot hslot.2
  · rw [TxChannel.put]
    dsimp only
    rcases mem_cons.mp hr' with rfl | hmem
    · exact update_self _ _ _
    have hne : r'.dmaSlot ≠ r.dmaSlot := fun heq =>
      hnot (heq ▸ mem_map_of_mem hmem)
    rw [update_of_ne hne]
    exact h.putIds r' hmem
  · rw [map_cons]
    exact nodup_cons.mpr ⟨hnot, h.nodup⟩
  · rcases mem_cons.mp hr' with rfl | hmem
    · rw [h.states, if_neg hnot] at hr
      exact hr
    · exact h.reserved r' hmem

theorem foldl_settle (st : SlotState) (slots : List Nat) (ch : TxChannel) :
    slots.foldl (TxChannel.settle st) ch = { ch with
      slotStates := fun slot => if slot ∈ slots then st else ch.slotStates slot
      slotRequestIds := fun slot => if slot ∈ slots then 0 else ch.slotRequestIds slot } := by
  induction slots generalizing ch with
  | nil => simp
  | cons k slots ih =>
    rw [foldl_cons, ih, TxChannel.settle]
    simp only [mem_cons]
    congr 1 <;> funext slot <;> by_cases hs : slot = k
    · subst hs
      simp
    · simp [hs]
    · subst hs
      simp
    · simp [hs]

theorem foldl_takeBack (put : List TxRequest) (ch : TxChannel) :
    put.foldl TxChannel.takeBack ch = (put.map TxRequest.dmaSlot).foldl (TxChannel.settle .reserved) ch := by
  rw [foldl_map]
  rfl

theorem foldl_retire (l : List TxCompletion) (ch : TxChannel) :
    l.foldl TxChannel.retire ch = (l.map TxCompletion.dmaSlot).foldl (TxChannel.settle .free) ch := by
  rw [foldl_map]
  rfl

/-- What is left of a batch that fails: some slots of the ring written and not published, and
request ids of reserved slots cleared. -/
structure TakenBack (n bound : Nat) (ch₀ ch : TxChannel) : Prop where
  frame : ch = { ch₀ with tx := ch.tx, slotRequestIds := ch.slotRequestIds }
  ring : ∃ l : List TxDesc, l.length ≤ bound ∧
    ch.tx = (ch₀.tx.writeAll n (spscIndex n) l).step n (spscIndex n) .pAbandon
  ids : ∀ slot, ch₀.slotStates slot ≠ .reserved → ch.slotRequestIds slot = ch₀.slotRequestIds slot

theorem Midway.takeBack {ch₀ : TxChannel} {put : List TxRequest} (h : Midway n ch₀ ch put) :
    TakenBack n put.length ch₀ { put.foldl TxChannel.takeBack ch with
      tx := (put.foldl TxChannel.takeBack ch).tx.step n (spscIndex n) .pAbandon } := by
  have hstates : (fun slot => if slot ∈ put.map TxRequest.dmaSlot then SlotState.reserved
      else ch.slotStates slot) = ch₀.slotStates := by
    funext slot
    rw [h.states]
    split
    · rename_i hmem
      obtain ⟨r, hr, rfl⟩ := mem_map.mp hmem
      exact (h.reserved r hr).symm
    · rfl
  rw [foldl_takeBack, foldl_settle, hstates]
  refine ⟨?_, ⟨put.reverse.map TxRequest.desc, ?_, ?_⟩, fun slot hslot => ?_⟩
  · rw [h.frame]
  · rw [length_map, length_reverse]
  · rw [h.frame]
  · dsimp only
    have hnot : slot ∉ put.map TxRequest.dmaSlot := by
      intro hmem
      obtain ⟨r, hr, rfl⟩ := mem_map.mp hmem
      exact hslot (h.reserved r hr)
    rw [if_neg hnot, h.ids slot hnot]

theorem Midway.putAll {ch₀ ch' : TxChannel} {put rs : List TxRequest} {res : Option Errno}
    (h : Midway n ch₀ ch put) (hrun : ch.putAll n put rs = (ch', res)) :
    (res = none ∧ Midway n ch₀ ch' (rs.reverse ++ put)) ∨
      (res ≠ none ∧ TakenBack n (put.length + rs.length) ch₀ ch') := by
  induction rs generalizing ch put with
  | nil =>
    rw [TxChannel.putAll] at hrun
    cases hrun
    exact .inl ⟨rfl, h⟩
  | cons r rs ih =>
    rw [TxChannel.putAll] at hrun
    split at hrun
    · cases hrun
      obtain ⟨hframe, ⟨l, hl, htx⟩, hids⟩ := h.takeBack
      exact .inr ⟨nofun, hframe, ⟨l, by omega, htx⟩, hids⟩
    rename_i hst
    rw [not_not] at hst
    rcases ih (h.put hst) hrun with ⟨hres, hmid⟩ | ⟨hres, hback⟩
    · refine .inl ⟨hres, ?_⟩
      rw [reverse_cons, append_assoc]
      exact hmid
    refine .inr ⟨hres, ?_⟩
    rw [length_cons] at hback ⊢
    rwa [show put.length + (rs.length + 1) = put.length + 1 + rs.length from by omega]

section

variable (h : ch.Ok n) (hn : n < 2 ^ 32) (hapart : Apart n (spscIndex n))
include h hn hapart

theorem TxChannel.Ok.takenBack {bound : Nat}
    (hbound : (ch.tx.producer - ch.tx.pSeen).toNat + bound ≤ n) (hback : TakenBack n bound ch ch') :
    ch'.Ok n := by
  obtain ⟨hframe, ⟨l, hl, htx⟩, hids⟩ := hback
  obtain ⟨hgood, slot, heq⟩ := h.tx.writeAll hn hapart (l := l) (by
    rw [h.txStaged, length_nil]
    omega)
  have hring := hgood.step hn hapart .pAbandon
  rw [heq] at htx hring
  rw [hframe, htx]
  refine { h with tx := hring, txStaged := rfl, ids := fun d hd => ?_ }
  have hst := (h.inflight d.dmaSlot).mpr (mem_map_of_mem hd)
  exact (hids d.dmaSlot (by rw [hst]; nofun)).trans (h.ids d hd)

theorem TxChannel.Ok.submitted {put : List TxRequest}
    (hbound : (ch.tx.producer - ch.tx.pSeen).toNat + put.length ≤ n) (hmid : Midway n ch ch' put)
    (hslots : ∀ r ∈ put, r.dmaSlot < n) :
    TxChannel.Ok n { ch' with
      dmaInflight := ch'.dmaInflight + put.length
      tx := ch'.tx.step n (spscIndex n) .publish } ∧
    (ch'.tx.step n (spscIndex n) .publish).published =
      ch.tx.published ++ put.reverse.map TxRequest.desc := by
  obtain ⟨hgood, slot, heq⟩ := h.tx.writeAll hn hapart (l := put.reverse.map TxRequest.desc) (by
    rw [h.txStaged, length_nil, length_map, length_reverse]
    omega)
  have hring := hgood.step hn hapart .publish
  have htx : ch'.tx = { ch.tx with slot, staged := put.reverse.map TxRequest.desc } := by
    rw [hmid.frame]
    rw [heq, h.txStaged, nil_append]
  rw [heq, h.txStaged, nil_append] at hring
  have hframe : ch' = { ch with
      tx := { ch.tx with slot, staged := put.reverse.map TxRequest.desc }
      slotStates := ch'.slotStates, slotRequestIds := ch'.slotRequestIds } := by
    rw [← htx]
    conv_lhs => rw [hmid.frame]
    rw [hmid.frame]
  have hle : ch.cq.delivered.length ≤ ch.tx.published.length := by
    have h1 := h.polled_le
    have h2 := h.taken_le
    have h3 := h.answers_length
    omega
  have hslotsEq : (put.reverse.map TxRequest.desc).map TxDesc.dmaSlot =
      (put.map TxRequest.dmaSlot).reverse := by
    rw [map_map, map_reverse]
    rfl
  have hopen : (ch.tx.published ++ put.reverse.map TxRequest.desc).drop ch.cq.delivered.length =
      ch.opened ++ put.reverse.map TxRequest.desc := by
    rw [drop_append_of_le_length hle]
    rfl
  refine ⟨?_, by rw [htx]; rfl⟩
  rw [htx, hframe]
  refine { h with
    tx := hring, txStaged := rfl, bounded := ?_, nodup := ?_, inflight := ?_, ids := ?_, count := ?_
    data := ?_ }
  · intro d hd
    rcases mem_append.mp hd with hd | hd
    · exact h.bounded d hd
    · obtain ⟨r, hr, rfl⟩ := mem_map.mp hd
      exact hslots r (mem_reverse.mp hr)
  · refine (congrArg (fun l => (l.map TxDesc.dmaSlot).Nodup) hopen).mpr ?_
    rw [map_append, hslotsEq, nodup_append]
    refine ⟨h.nodup, nodup_reverse.mpr hmid.nodup, fun k hk k' hk' heqk => ?_⟩
    -- a slot of the batch was reserved, so it was not in flight
    subst heqk
    obtain ⟨r, hr, rfl⟩ := mem_map.mp (mem_reverse.mp hk')
    have hres := hmid.reserved r hr
    rw [(h.inflight _).mpr hk] at hres
    cases hres
  · intro k
    refine Iff.trans ?_ (iff_of_eq (congrArg (fun l => k ∈ l.map TxDesc.dmaSlot) hopen.symm))
    rw [map_append, hslotsEq, mem_append, mem_reverse, ← h.inflight k]
    rw [hmid.states k]
    split
    · rename_i hmem
      exact ⟨fun _ => .inr hmem, fun _ => rfl⟩
    · rename_i hmem
      exact ⟨.inl, fun hor => hor.resolve_right hmem⟩
  · intro d hd
    have hd' : d ∈ ch.opened ++ put.reverse.map TxRequest.desc := hopen ▸ hd
    rcases mem_append.mp hd' with hd | hd
    · have hnot : d.dmaSlot ∉ put.map TxRequest.dmaSlot := by
        intro hmem
        obtain ⟨r, hr, heqr⟩ := mem_map.mp hmem
        have hres := hmid.reserved r hr
        rw [heqr, (h.inflight _).mpr (mem_map_of_mem hd)] at hres
        cases hres
      rw [hmid.ids _ hnot]
      exact h.ids d hd
    · obtain ⟨r, hr, rfl⟩ := mem_map.mp hd
      exact hmid.putIds r (mem_reverse.mp hr)
  · have hlen := congrArg List.length hopen
    rw [length_append, length_map, length_reverse, ← h.count] at hlen
    exact hlen.symm
  · intro k hk
    rw [hmid.states k] at hk
    split at hk
    · cases hk
    · exact h.data k hk

theorem TxChannel.Ok.submitIpBatch
    (rs : List TxRequest) : (ch.submitIpBatch n capacity rs).1.Ok n ∧
      ((ch.submitIpBatch n capacity rs).2 = none → (ch.submitIpBatch n capacity rs).1.tx.published =
        ch.tx.published ++ rs.map TxRequest.desc) := by
  unfold TxChannel.submitIpBatch
  dsimp only
  split
  · exact ⟨h, nofun⟩
  split
  · exact ⟨h, nofun⟩
  split
  · exact ⟨h, nofun⟩
  · split
    · exact ⟨h, nofun⟩
    rename_i hcheck
    have hstart : Midway n ch ch [] :=
      ⟨rfl, fun _ => by simp, fun _ _ => rfl, fun _ h => absurd h not_mem_nil,
        nodup_nil, fun _ h => absurd h not_mem_nil⟩
    have hbound : (ch.tx.producer - ch.tx.pSeen).toNat + rs.length ≤ n := by omega
    have hslots : ∀ r ∈ rs, r.dmaSlot < n := by
      intro r hr
      have hnone := findSome?_eq_none_iff.mp hcheck r hr
      unfold TxChannel.requestError at hnone
      split at hnone
      · cases hnone
      · omega
    split
    · rename_i ch' e hrun
      rcases hstart.putAll hrun with ⟨hres, -⟩ | ⟨-, hback⟩
      · cases hres
      · rw [length_nil, zero_add] at hback
        exact ⟨h.takenBack hn hapart hbound hback, nofun⟩
    · rename_i ch' hrun
      rcases hstart.putAll hrun with ⟨-, hmid⟩ | ⟨hres, -⟩
      · rw [append_nil] at hmid
        have hsub := h.submitted hn hapart (by rw [length_reverse]; exact hbound) hmid
          (fun r hr => hslots r (mem_reverse.mp hr))
        rw [length_reverse, reverse_reverse] at hsub
        exact ⟨hsub.1, fun _ => hsub.2⟩
      · exact absurd rfl hres

theorem TxChannel.Ok.pollBatch_eq {completionCapacity : Nat} (hcap : 0 < completionCapacity) :
    let k := min (ch.cq.cSeen - ch.cq.consumer).toNat completionCapacity
    let l := (ch.cq.published.drop ch.cq.delivered.length).take k
    ch.pollBatch n completionCapacity = ({ l.foldl TxChannel.retire ch with
      dmaInflight := ch.dmaInflight - l.length
      cq := { ch.cq with
        consumer := ch.cq.consumer + BitVec.ofNat 32 l.length
        taken := [], delivered := ch.cq.delivered ++ l } }, .ok l) ∧
    l.map TxCompletion.key = (ch.opened.take l.length).map TxDesc.key ∧ l.length = k := by
  intro k l
  obtain ⟨havail, hle⟩ := h.cq.available_le hn
  have hk : k ≤ (ch.cq.cSeen - ch.cq.consumer).toNat := min_le_left _ _
  obtain ⟨-, hread, -⟩ := h.cq.readAll hn hapart h.cqTaken hk
  have hlen : l.length = k := by
    rw [length_take, length_drop]
    omega
  have hkeys : l.map TxCompletion.key = (ch.opened.take l.length).map TxDesc.key := by
    have hpre := h.waiting_prefix
    rw [prefix_iff_eq_take] at hpre
    have htake := congrArg (List.take k) hpre
    rw [← map_take, take_take, ← map_take, length_map, length_drop, min_eq_left (by omega)] at htake
    rw [hlen]
    exact htake
  have hvalid : l.any (ch.completionInvalid n) = false := by
    rw [any_eq_false]
    intro c hc
    have hmem : c.key ∈ (ch.opened.take l.length).map TxDesc.key := hkeys ▸ mem_map_of_mem hc
    obtain ⟨d, hd, hkey⟩ := mem_map.mp hmem
    have hopen : d ∈ ch.opened := mem_of_mem_take hd
    simp only [TxDesc.key, TxCompletion.key, Prod.mk.injEq] at hkey
    have hbound := h.bounded d (mem_of_mem_drop hopen)
    have hst := (h.inflight d.dmaSlot).mpr (mem_map_of_mem hopen)
    have hid := h.ids d hopen
    rw [hkey.2.1] at hbound hst hid
    simp only [TxChannel.completionInvalid, hst, hid, hkey.1, bne_self_eq_false, Bool.or_false,
      decide_eq_true_eq, not_le]
    exact hbound
  refine ⟨?_, hkeys, hlen⟩
  unfold TxChannel.pollBatch
  rw [if_neg (by omega), if_neg (by omega), hread]
  dsimp only
  rw [hvalid, if_neg Bool.false_ne_true]
  have hinf : (l.foldl TxChannel.retire ch).dmaInflight = ch.dmaInflight := by
    rw [foldl_retire, foldl_settle]
  rw [hinf]
  rfl

theorem TxChannel.Ok.pollBatch (completionCapacity : Nat) : (ch.pollBatch n completionCapacity).1.Ok n := by
  rcases Nat.eq_zero_or_pos completionCapacity with hzero | hcap
  · subst hzero
    unfold TxChannel.pollBatch
    rw [if_pos rfl]
    exact h
  · obtain ⟨heq, hkeys, hlen⟩ := h.pollBatch_eq hn hapart hcap
    generalize hl : (ch.cq.published.drop ch.cq.delivered.length).take
      (min (ch.cq.cSeen - ch.cq.consumer).toNat completionCapacity) = l at heq hkeys hlen
    rw [heq]
    have hk : min (ch.cq.cSeen - ch.cq.consumer).toNat completionCapacity ≤
        (ch.cq.cSeen - ch.cq.consumer).toNat := min_le_left _ _
    obtain ⟨hgood, hread, -⟩ := h.cq.readAll hn hapart h.cqTaken hk
    have hring := hgood.step hn hapart .release
    rw [hread, hl] at hring
    have hslots : l.map TxCompletion.dmaSlot = (ch.opened.map TxDesc.dmaSlot).take l.length := by
      have hsnd := congrArg (List.map fun key : BitVec 64 × Nat × BitVec 64 => key.2.1) hkeys
      rw [map_map, map_map] at hsnd
      rw [← map_take]
      exact hsnd
    have hopen : ch.tx.published.drop (ch.cq.delivered ++ l).length = ch.opened.drop l.length := by
      rw [TxChannel.opened, drop_drop, length_append]
    have hsplit : ch.opened.map TxDesc.dmaSlot = l.map TxCompletion.dmaSlot ++
        (ch.opened.drop l.length).map TxDesc.dmaSlot := by
      rw [hslots, map_drop, take_append_drop]
    have hnodup := h.nodup
    rw [hsplit, nodup_append] at hnodup
    rw [foldl_retire, foldl_settle]
    refine { h with
      cq := hring, cqTaken := rfl, nodup := ?_, inflight := fun slot => ?_, ids := fun d hd => ?_
      count := ?_, data := fun slot hslot => ?_ }
    · refine (congrArg (fun l => (l.map TxDesc.dmaSlot).Nodup) hopen).mpr hnodup.2.1
    · refine Iff.trans ?_ (iff_of_eq (congrArg (fun l => slot ∈ l.map TxDesc.dmaSlot) hopen.symm))
      dsimp only
      have hold := h.inflight slot
      rw [hsplit, mem_append] at hold
      split
      · rename_i hmem
        exact ⟨nofun, fun hlater => absurd rfl (hnodup.2.2 slot hmem slot hlater)⟩
      rename_i hmem
      rw [hold]
      exact ⟨fun hor => hor.resolve_left hmem, .inr⟩
    · have hd' : d ∈ ch.opened.drop l.length := hopen ▸ hd
      dsimp only
      rw [if_neg fun hmem => hnodup.2.2 _ hmem _ (mem_map_of_mem hd') rfl]
      exact h.ids d (mem_of_mem_drop hd')
    · have hlen' := congrArg List.length hopen
      rw [length_drop (i := l.length), ← h.count] at hlen'
      exact hlen'.symm
    · dsimp only at hslot
      split at hslot
      · cases hslot
      · exact h.data slot hslot

end

end

/-! ## The worker keeps it -/

section

variable {n : Nat} {ch : TxChannel}

section

variable (h : ch.Ok n) (hn : n < 2 ^ 32) (hapart : Apart n (spscIndex n))
include h hn hapart

theorem TxChannel.Ok.sweepCq (hidle : ch.worker = .idle) : TxChannel.Ok n { ch with
      cq := ch.cq.step n (spscIndex n) .pLoad, worker := .cqLoaded } := by
  obtain ⟨htaken, hstaged⟩ := h.swept (.inl hidle)
  have hanswers := h.answers
  rw [hstaged] at hanswers
  exact { h with
    cq := h.cq.step hn hapart .pLoad, swept := fun _ => ⟨htaken, rfl⟩, stored := nofun
    answers := hanswers }

theorem TxChannel.Ok.sweepTx (hloaded : ch.worker = .cqLoaded) {worker : SweepPhase} :
    TxChannel.Ok n { ch with tx := ch.tx.step n (spscIndex n) .cLoad, worker } := by
  obtain ⟨htaken, hstaged⟩ := h.swept (.inr hloaded)
  have hanswers := h.answers
  rw [htaken] at hanswers
  refine { h with
    tx := h.tx.step hn hapart .cLoad, swept := fun _ => ⟨rfl, hstaged⟩, stored := fun _ => hstaged
    answers := hanswers }

theorem TxChannel.Ok.complete (hrun : ch.worker = .running) {d : TxDesc} (hd : ch.nextRequest n = some d)
    (hroom : ch.cq.hasRoom n = true) (status : TxStatus) (length : Nat) :
    (ch.complete n d status length).Ok n := by
  obtain ⟨hread, hget, hopen⟩ := h.nextRequest hn hapart hd
  have hslot : d.dmaSlot < n := h.bounded d (mem_of_mem_drop hopen)
  have htx := h.tx.step hn hapart .read
  have hcq := h.cq.step hn hapart (.write (⟨d.dmaSlot, status, length, d.requestId,
    d.userContext⟩ : TxCompletion))
  unfold TxChannel.complete
  rw [if_pos hslot]
  rw [hread] at htx ⊢
  simp only [Ring.step, hroom, if_true] at hcq ⊢
  refine { h with tx := htx, cq := hcq, swept := fun hw => ?_, stored := fun hw => ?_, answers := ?_ }
  · rw [hrun] at hw
    rcases hw with hw | hw <;> cases hw
  · rw [hrun] at hw
    cases hw
  · rw [← append_assoc, ← append_assoc, map_append, h.answers]
    simp only [map_append]
    rfl

end

theorem TxChannel.Ok.replace (h : ch.Ok n) {slot : Nat} (hslot : ch.slotStates slot = .inflight)
    (buffer : BitVec 32) : (ch.replace slot buffer).Ok n := by
  refine { h with table := ?_, data := fun k hk => ?_ }
  · dsimp only [TxChannel.replace]
    rw [h.table]
  · dsimp only [TxChannel.replace] at hk ⊢
    have hne : k ≠ slot := by
      rintro rfl
      rw [hslot] at hk
      cases hk
    rw [update_of_ne hne]
    exact h.data k hk

theorem TxChannel.Ok.storeCq (h : ch.Ok n) (hn : n < 2 ^ 32) (hapart : Apart n (spscIndex n)) :
    TxChannel.Ok n { ch with
      cq := ch.cq.step n (spscIndex n) .publish, worker := .stored } := by
  refine { h with
    cq := h.cq.step hn hapart .publish, swept := fun hw => ?_, stored := fun _ => rfl, answers := ?_ }
  · rcases hw with hw | hw <;> cases hw
  · dsimp only [Ring.step]
    rw [append_nil]
    exact h.answers

theorem TxChannel.Ok.storeTx (h : ch.Ok n) (hn : n < 2 ^ 32) (hapart : Apart n (spscIndex n))
    (hstored : ch.worker = .stored) : TxChannel.Ok n { ch with
      tx := ch.tx.step n (spscIndex n) .release, worker := .idle } := by
  have hstaged := h.stored hstored
  refine { h with
    tx := h.tx.step hn hapart .release, swept := fun _ => ⟨rfl, hstaged⟩, stored := nofun
    answers := ?_ }
  dsimp only [Ring.step]
  rw [append_nil]
  exact h.answers

end

end Uet.Vpp
