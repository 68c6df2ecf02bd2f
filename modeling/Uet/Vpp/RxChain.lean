import Uet.Vpp.Endpoint

/-!
# A packet from its buffer chain to the application

The worker describes a received packet by the pieces of its buffer chain that hold it, as offsets
into the memory that both sides map: `uet_rx_descriptor_build`. The library checks a descriptor and
turns it into a list of addresses: `uet_vpp_client_rx_decode`.

Addresses are integers and memory is a function on them. A chain is its first buffer and the
buffers that follow; a buffer has `VLIB_BUFFER_NEXT_PRESENT` when one follows.
-/

namespace Uet.Vpp

open List

/-- `VLIB_BUFFER_PRE_DATA_SIZE`. -/
def bufferPreDataSize : Int := 128

/-- `UET_VPP_SVM_MAX_RX_SEGS`. -/
def maxRxSegs : Nat := 8

/-- The fields of `vlib_buffer_t` and its opaque part that delivery reads; `data` is the address
of the data of the buffer. -/
structure Buffer where
  data : Int
  currentData : BitVec 16
  currentLength : BitVec 16
  totalLengthNotIncludingFirstBuffer : BitVec 32
  l3HdrOffset : BitVec 16
  rxSwIfIndex : BitVec 32

/-- `vlib_buffer_get_current`. -/
def Buffer.current (b : Buffer) : Int := b.data + b.currentData.toInt

def Buffer.stop (b : Buffer) : Int := b.current + b.currentLength.toNat

def Buffer.l3 (b : Buffer) : Int := b.data + b.l3HdrOffset.toInt

structure DmaMap where
  base : Int
  size : Nat

def u32 (d : Int) : Nat := (d % 2 ^ 32).toNat

structure RxSegment where
  dataOffset : Nat
  length : Nat
  reserved : BitVec 32
  deriving DecidableEq

/-- `uet_vpp_svm_rx_desc_t`; the segments up to `segment_count`. -/
structure RxDesc where
  rxId : BitVec 64
  releaseToken : Nat
  packetLength : Nat
  rxSwIfIndex : BitVec 32
  flags : BitVec 16
  reserved : BitVec 64
  segments : List RxSegment
  deriving DecidableEq

/-- `UET_VPP_SVM_RX_F_IP4`. -/
def rxFlagIp4 : BitVec 16 := 1
/-- `UET_VPP_SVM_RX_F_IP6`. -/
def rxFlagIp6 : BitVec 16 := 2
/-- `UET_VPP_SVM_RX_F_UDP`. -/
def rxFlagUdp : BitVec 16 := 4

/-! ## The descriptor -/

section

variable (mem : Int → BitVec 8) (m : DmaMap)

def net16 (a : Int) : Nat := (mem a).toNat * 256 + (mem (a + 1)).toNat

def ipLength (start stop : Int) (isIp4 : Bool) : Option Nat :=
  if isIp4 then
    if stop - start < 20 ∨ (mem start).toNat / 16 ≠ 4 then none else some (net16 mem (start + 2))
  else if stop - start < 40 ∨ (mem start).toNat / 16 ≠ 6 then none
  else some (40 + net16 mem (start + 4))

def rxSegment (remaining : Nat) (start : Int) (b : Buffer) : Option RxSegment :=
  let length := min remaining (u32 (b.stop - start))
  if length = 0 ∨ start < m.base ∨ (m.size : Int) ≤ start - m.base then none
  else
    let offset := (start - m.base).toNat
    if m.size - offset < length then none else some ⟨offset, length, 0⟩

def rxSegments : List Buffer → Nat → Nat → Int → Buffer → Option (List RxSegment)
  | rest, count, remaining, start, b =>
    if count = maxRxSegs then none
    else
      match rxSegment m remaining start b with
      | none => none
      | some seg =>
        if remaining - seg.length = 0 then some [seg]
        else
          match rest with
          | [] => none
          | b' :: rest' =>
            (rxSegments rest' (count + 1) (remaining - seg.length) b'.current b').map (seg :: ·)

/-- `uet_rx_descriptor_build`; the caller fills in the id. -/
def rxDescriptorBuild (first : Buffer) (rest : List Buffer) (releaseToken : Nat)
    (isIp4 isUdp : Bool) : Option RxDesc :=
  if first.l3 < first.data - bufferPreDataSize ∨ first.stop ≤ first.l3 then none
  else
    match ipLength mem first.l3 first.stop isIp4 with
    | none => none
    | some packetLength =>
      if packetLength = 0 ∨ (u32 (first.stop - first.l3) +
          first.totalLengthNotIncludingFirstBuffer.toNat) % 2 ^ 32 < packetLength then none
      else
        match rxSegments m rest 0 packetLength first.l3 first with
        | none => none
        | some segments =>
          some { rxId := 0, releaseToken, packetLength, rxSwIfIndex := first.rxSwIfIndex
                 flags := (if isIp4 then rxFlagIp4 else rxFlagIp6) ||| (if isUdp then rxFlagUdp else 0)
                 reserved := 0, segments }

end

/-! ## The library -/

structure Iov where
  base : Int
  length : Nat
  deriving DecidableEq

/-- `uet_vpp_client_rx_t`. -/
structure Rx where
  rxId : BitVec 64
  releaseToken : Nat
  packetLength : Nat
  rxSwIfIndex : BitVec 32
  flags : BitVec 16
  iov : List Iov
  deriving DecidableEq

section

variable (dmaMap : Int) (mapSize ringSize : Nat)

def rxSegmentInvalid (seg : RxSegment) : Bool :=
  decide (seg.length = 0) || seg.reserved != 0 || decide (mapSize < seg.dataOffset) ||
    decide (mapSize - seg.dataOffset < seg.length)

/-- `uet_vpp_client_rx_decode`; `dmaMap` is where the library has mapped the memory. -/
def clientRxDecode (desc : RxDesc) : Except Errno Rx :=
  if desc.rxId = 0 ∨ desc.reserved ≠ 0 ∨ ringSize ≤ desc.releaseToken ∨ desc.segments.length = 0 ∨
      maxRxSegs < desc.segments.length ∨ desc.packetLength = 0 ∨
      (desc.flags &&& rxFlagIp4) ^^^ (desc.flags &&& rxFlagIp6) = 0 ∨
      desc.flags &&& ~~~(rxFlagIp4 ||| rxFlagIp6 ||| rxFlagUdp) ≠ 0 then .error .eproto
  else if desc.segments.any (rxSegmentInvalid mapSize) then .error .eproto
  else if (desc.segments.map RxSegment.length).sum ≠ desc.packetLength then .error .eproto
  else
    .ok { rxId := desc.rxId, releaseToken := desc.releaseToken, packetLength := desc.packetLength
          rxSwIfIndex := desc.rxSwIfIndex, flags := desc.flags
          iov := desc.segments.map fun seg => ⟨dmaMap + seg.dataOffset, seg.length⟩ }

/-- The tokens of a batch become the library's; a token that it has already makes the batch
fail, and those taken before it are given back. -/
def takeTokens (tokenIds : Nat → BitVec 64) : List Rx → Option (Nat → BitVec 64)
  | [] => some tokenIds
  | rx :: rxs =>
    if tokenIds rx.releaseToken ≠ 0 then none
    else takeTokens (Function.update tokenIds rx.releaseToken rx.rxId) rxs

/-- `uet_vpp_client_poll_rx_batch` on the descriptors of a batch. -/
def clientPollRxBatch (tokenIds : Nat → BitVec 64) (descs : List RxDesc) :
    (Nat → BitVec 64) × Except Errno (List Rx) :=
  match descs.mapM (clientRxDecode dmaMap mapSize ringSize) with
  | .error e => (tokenIds, .error e)
  | .ok rxs =>
    match takeTokens tokenIds rxs with
    | none => (tokenIds, .error .eproto)
    | some ids => (ids, .ok rxs)

end

/-! ## The bytes of a packet -/

/-- The addresses of `n` bytes from `a` on. -/
def span (a : Int) (n : Nat) : List Int := (List.range n).map fun k : Nat => a + (k : Int)

@[simp] theorem length_span (a : Int) (n : Nat) : (span a n).length = n := by
  simp only [span, length_map, length_range]

theorem take_span (a : Int) (k n : Nat) : (span a n).take k = span a (min k n) := by
  rw [span, ← map_take, take_range]
  rfl

def chainBytes (start : Int) (b : Buffer) (rest : List Buffer) : List Int :=
  span start (b.stop - start).toNat ++ rest.flatMap fun b => span b.current b.currentLength.toNat

def packetBytes (m : DmaMap) (first : Buffer) (rest : List Buffer) (length : Nat) : List Int :=
  ((chainBytes first.l3 first rest).take length).map (· - m.base)

def Rx.bytes (dmaMap : Int) (rx : Rx) : List Int :=
  rx.iov.flatMap fun v => (span v.base v.length).map (· - dmaMap)

theorem map_sub_span (a c : Int) (n : Nat) : (span a n).map (· - c) = span (a - c) n := by
  rw [span, map_map]
  refine map_congr_left fun k _ => ?_
  simp only [Function.comp_apply]
  omega

theorem u32_first (b : Buffer) (h : b.l3 < b.stop) : (u32 (b.stop - b.l3) : Int) = b.stop - b.l3 := by
  have h1 := BitVec.two_mul_toInt_lt (x := b.currentData)
  have h2 := BitVec.le_two_mul_toInt (x := b.l3HdrOffset)
  simp only [u32, Buffer.stop, Buffer.current, Buffer.l3] at h ⊢
  omega

theorem u32_next (b : Buffer) : u32 (b.stop - b.current) = b.currentLength.toNat := by
  simp only [u32, Buffer.stop]
  omega

section

variable {m : DmaMap}

variable {remaining : Nat} {start : Int} {b : Buffer} {seg : RxSegment} {rest : List Buffer} {count : Nat}
  {segs : List RxSegment}

theorem rxSegment_eq (h : rxSegment m remaining start b = some seg) :
    seg = ⟨(start - m.base).toNat, min remaining (u32 (b.stop - start)), 0⟩ ∧ 0 < seg.length ∧
      m.base ≤ start ∧ seg.dataOffset + seg.length ≤ m.size := by
  simp only [rxSegment] at h
  split at h
  · cases h
  rename_i hno
  split at h
  · cases h
  cases h
  obtain ⟨hpos, hbase, hsize⟩ : _ ∧ _ ∧ _ := by simpa only [not_or] using hno
  refine ⟨rfl, Nat.pos_of_ne_zero hpos, by omega, ?_⟩
  dsimp only
  omega

/-- A segment is good for the library when it is not empty, has no reserved bits set and lies in
the memory. -/
structure SegmentOk (size : Nat) (seg : RxSegment) : Prop where
  nonempty : 0 < seg.length
  reserved : seg.reserved = 0
  inside : seg.dataOffset + seg.length ≤ size

theorem rxSegments_cases (h : rxSegments m rest count remaining start b = some segs) :
    count ≠ maxRxSegs ∧ ∃ seg, rxSegment m remaining start b = some seg ∧
      ((remaining - seg.length = 0 ∧ segs = [seg]) ∨
        ∃ b' rest' segs', rest = b' :: rest' ∧ segs = seg :: segs' ∧ remaining - seg.length ≠ 0 ∧
          rxSegments m rest' (count + 1) (remaining - seg.length) b'.current b' = some segs') := by
  rw [rxSegments.eq_def] at h
  by_cases hcount : count = maxRxSegs
  · simp only [hcount, if_true] at h
    cases h
  refine ⟨hcount, ?_⟩
  simp only [hcount, if_false] at h
  split at h
  · cases h
  rename_i seg hseg
  refine ⟨seg, hseg, ?_⟩
  split at h
  · rename_i hlast
    cases h
    exact .inl ⟨hlast, rfl⟩
  rename_i hmore
  split at h
  · cases h
  rename_i b' rest'
  obtain ⟨segs', hrec, rfl⟩ := Option.map_eq_some_iff.mp h
  exact .inr ⟨b', rest', segs', rfl, rfl, hmore, hrec⟩

structure Names (m : DmaMap) (segs : List RxSegment) (count : Nat) (bytes : List Int) : Prop where
  bytes_eq : segs.flatMap (fun seg => span seg.dataOffset seg.length) = bytes.map (· - m.base)
  segment_ok : ∀ seg ∈ segs, SegmentOk m.size seg
  nonempty : segs ≠ []
  count_le : count + segs.length ≤ maxRxSegs

theorem names_last (hcount : count < maxRxSegs) (hstart : (u32 (b.stop - start) : Int) = b.stop - start)
    (hseg : rxSegment m remaining start b = some seg) (hlast : remaining - seg.length = 0) :
    Names m [seg] count ((chainBytes start b rest).take remaining) ∧ seg.length = remaining := by
  obtain ⟨heq, hpos, hbase, hin⟩ := rxSegment_eq hseg
  have hlen : seg.length = min remaining (u32 (b.stop - start)) := by rw [heq]
  have hoff : (seg.dataOffset : Int) = start - m.base := by
    rw [heq]
    exact Int.toNat_of_nonneg (by omega)
  have hall : seg.length = remaining := by omega
  have hle : remaining ≤ (span start (b.stop - start).toNat).length := by
    rw [length_span]
    omega
  refine ⟨⟨?_, ?_, cons_ne_nil _ _, hcount⟩, hall⟩
  · rw [chainBytes, take_append_of_le_length hle, take_span, map_sub_span, flatMap_singleton, hall, hoff]
    rw [length_span] at hle
    rw [min_eq_left hle]
  · intro seg' hmem
    cases mem_singleton.mp hmem
    exact ⟨hpos, by rw [heq], hin⟩

theorem names_cons {b' : Buffer} (hstart : (u32 (b.stop - start) : Int) = b.stop - start)
    (hseg : rxSegment m remaining start b = some seg) (hmore : remaining - seg.length ≠ 0)
    (h : Names m segs (count + 1) ((chainBytes b'.current b' rest).take (remaining - seg.length))) :
    Names m (seg :: segs) count ((chainBytes start b (b' :: rest)).take remaining) := by
  obtain ⟨heq, hpos, hbase, hin⟩ := rxSegment_eq hseg
  have hlen : seg.length = min remaining (u32 (b.stop - start)) := by rw [heq]
  have hoff : (seg.dataOffset : Int) = start - m.base := by
    rw [heq]
    exact Int.toNat_of_nonneg (by omega)
  have hall : seg.length = (b.stop - start).toNat := by omega
  have hcur : (b'.stop - b'.current).toNat = b'.currentLength.toNat := by
    rw [Buffer.stop]
    omega
  have htail : chainBytes b'.current b' rest =
      (b' :: rest).flatMap fun b => span b.current b.currentLength.toNat := by
    rw [chainBytes, hcur, flatMap_cons]
  have hle : (span start (b.stop - start).toNat).length ≤ remaining := by
    rw [length_span]
    omega
  refine ⟨?_, ?_, cons_ne_nil _ _, ?_⟩
  · rw [flatMap_cons, h.bytes_eq, htail, hoff, chainBytes, take_append,
      take_of_length_le hle, map_append, map_sub_span, length_span, hall]
  · intro seg' hmem
    rcases mem_cons.mp hmem with rfl | hmem
    · exact ⟨hpos, by rw [heq], hin⟩
    · exact h.segment_ok seg' hmem
  · have := h.count_le
    rw [length_cons]
    omega

theorem rxSegments_names (hcount : count ≤ maxRxSegs) (hstart : (u32 (b.stop - start) : Int) = b.stop - start)
    (h : rxSegments m rest count remaining start b = some segs) :
    Names m segs count ((chainBytes start b rest).take remaining) ∧
      (segs.map RxSegment.length).sum = remaining := by
  -- the loop walks the chain, so the induction is on what is left of it
  induction rest generalizing count remaining start b segs with
  | nil =>
    obtain ⟨hmax, seg, hseg, ⟨hlast, rfl⟩ | ⟨b', rest', segs', hrest, -⟩⟩ := rxSegments_cases h
    · have hlt : count < maxRxSegs := lt_of_le_of_ne hcount hmax
      obtain ⟨hnames, hlen⟩ := names_last hlt hstart hseg hlast
      exact ⟨hnames, hlen⟩
    · cases hrest
  | cons b₁ rest ih =>
    obtain ⟨hmax, seg, hseg, ⟨hlast, rfl⟩ | ⟨b', rest', segs', hrest, rfl, hmore, hrec⟩⟩ := rxSegments_cases h
    · have hlt : count < maxRxSegs := lt_of_le_of_ne hcount hmax
      obtain ⟨hnames, hlen⟩ := names_last hlt hstart hseg hlast
      exact ⟨hnames, hlen⟩
    · cases hrest
      have hnext : (u32 (b₁.stop - b₁.current) : Int) = b₁.stop - b₁.current := by
        rw [u32_next, Buffer.stop]
        omega
      obtain ⟨hnames, hsum⟩ := ih (by omega) hnext hrec
      refine ⟨names_cons hstart hseg hmore hnames, ?_⟩
      rw [map_cons, sum_cons, hsum]
      omega

structure BufferOk (m : DmaMap) (start stop : Int) : Prop where
  nonempty : start < stop
  base_le : m.base ≤ start
  le_end : stop ≤ m.base + m.size

theorem rxSegment_of_ok (hpos : 0 < remaining) (hstart : (u32 (b.stop - start) : Int) = b.stop - start)
    (hb : BufferOk m start b.stop) : rxSegment m remaining start b =
      some ⟨(start - m.base).toNat, min remaining (b.stop - start).toNat, 0⟩ := by
  have h1 := hb.nonempty
  have h2 := hb.base_le
  have h3 := hb.le_end
  have hu : u32 (b.stop - start) = (b.stop - start).toNat := by omega
  unfold rxSegment
  rw [hu]
  rw [if_neg (by omega), if_neg (by omega)]

/-- The loop comes through a chain whose first buffers hold the packet, where no buffer is empty
and all of them lie in the memory. -/
theorem rxSegments_isSome (hcount : count < maxRxSegs) (hpos : 0 < remaining)
    (hstart : (u32 (b.stop - start) : Int) = b.stop - start) (hb : BufferOk m start b.stop)
    (hrest : ∀ b' ∈ rest, BufferOk m b'.current b'.stop)
    (hfit : remaining ≤ (chainBytes start b (rest.take (maxRxSegs - count - 1))).length) :
    (rxSegments m rest count remaining start b).isSome := by
  induction rest generalizing count remaining start b with
  | nil =>
    rw [take_nil, chainBytes, flatMap_nil, append_nil, length_span] at hfit
    rw [rxSegments, if_neg (ne_of_lt hcount), rxSegment_of_ok hpos hstart hb]
    dsimp only
    rw [if_pos (by omega)]
    rfl
  | cons b' rest ih =>
    rw [rxSegments, if_neg (ne_of_lt hcount), rxSegment_of_ok hpos hstart hb]
    dsimp only
    split
    · rfl
    rw [Option.isSome_map]
    have hne : maxRxSegs - count - 1 ≠ 0 := by
      intro h0
      rw [h0, take_zero, chainBytes, flatMap_nil, append_nil, length_span] at hfit
      omega
    obtain ⟨k, hk⟩ := Nat.exists_eq_succ_of_ne_zero hne
    have hcur : (b'.stop - b'.current).toNat = b'.currentLength.toNat := by
      rw [Buffer.stop]
      omega
    have hnext : (u32 (b'.stop - b'.current) : Int) = b'.stop - b'.current := by
      rw [u32_next, Buffer.stop]
      omega
    refine ih (by omega) (by omega) hnext (hrest b' mem_cons_self)
      (fun b'' hb'' => hrest b'' (mem_cons_of_mem _ hb'')) ?_
    rw [hk, take_succ_cons, chainBytes, flatMap_cons, length_append, length_span] at hfit
    rw [chainBytes, hcur, show maxRxSegs - (count + 1) - 1 = k from by omega]
    omega

end

section

variable {mem : Int → BitVec 8} {m : DmaMap}

variable {first : Buffer} {rest : List Buffer} {token : Nat} {isIp4 isUdp : Bool}

theorem rxDescriptorBuild_names {desc : RxDesc} (h : rxDescriptorBuild mem m first rest token isIp4 isUdp = some desc) :
    ipLength mem first.l3 first.stop isIp4 = some desc.packetLength ∧ 0 < desc.packetLength ∧
      desc.releaseToken = token ∧ desc.rxSwIfIndex = first.rxSwIfIndex ∧ desc.reserved = 0 ∧
      desc.flags = (if isIp4 then rxFlagIp4 else rxFlagIp6) ||| (if isUdp then rxFlagUdp else 0) ∧
      Names m desc.segments 0 ((chainBytes first.l3 first rest).take desc.packetLength) ∧
      (desc.segments.map RxSegment.length).sum = desc.packetLength := by
  unfold rxDescriptorBuild at h
  split at h
  · cases h
  split at h
  · cases h
  rename_i packetLength hlen
  split at h
  · cases h
  split at h
  · cases h
  rename_i segs hsegs
  cases h
  have hfirst := u32_first first (by omega)
  obtain ⟨hnames, hsum⟩ := rxSegments_names (Nat.zero_le _) hfirst hsegs
  exact ⟨hlen, by dsimp only; omega, rfl, rfl, rfl, rfl, hnames, hsum⟩

theorem flags_ok (isIp4 isUdp : Bool) (flags : BitVec 16)
    (h : flags = (if isIp4 then rxFlagIp4 else rxFlagIp6) ||| (if isUdp then rxFlagUdp else 0)) :
    (flags &&& rxFlagIp4) ^^^ (flags &&& rxFlagIp6) ≠ 0 ∧
      flags &&& ~~~(rxFlagIp4 ||| rxFlagIp6 ||| rxFlagUdp) = 0 := by
  subst h
  revert isIp4 isUdp
  decide

/-- The chain is as `vlib` keeps chains: its total length is right, no buffer is empty,
and all of it lies in the memory; its header is in the first buffer. -/
structure ChainOk (m : DmaMap) (first : Buffer) (rest : List Buffer) : Prop where
  header : first.data - bufferPreDataSize ≤ first.l3
  first_ok : BufferOk m first.l3 first.stop
  rest_ok : ∀ b ∈ rest, BufferOk m b.current b.stop
  total : first.totalLengthNotIncludingFirstBuffer.toNat =
    (rest.map fun b => b.currentLength.toNat).sum
  small : (chainBytes first.l3 first rest).length < 2 ^ 32

theorem rxDescriptorBuild_isSome {packetLength : Nat} (hok : ChainOk m first rest)
    (hlen : ipLength mem first.l3 first.stop isIp4 = some packetLength) (hpos : 0 < packetLength)
    (hfit : packetLength ≤ (chainBytes first.l3 first (rest.take (maxRxSegs - 1))).length) :
    (rxDescriptorBuild mem m first rest token isIp4 isUdp).isSome := by
  have hne := hok.first_ok.nonempty
  have hfirst := u32_first first hne
  have hlength : (chainBytes first.l3 first rest).length =
      u32 (first.stop - first.l3) + first.totalLengthNotIncludingFirstBuffer.toNat := by
    rw [chainBytes, length_append, length_span, length_flatMap, hok.total]
    simp only [length_span]
    omega
  have hall : packetLength ≤ (chainBytes first.l3 first rest).length := by
    refine hfit.trans ?_
    rw [chainBytes, chainBytes, length_append, length_append]
    exact Nat.add_le_add_left (((take_sublist _ rest).flatMap _).length_le) _
  have hsmall := hok.small
  unfold rxDescriptorBuild
  rw [if_neg (by have := hok.header; omega), hlen]
  dsimp only
  rw [if_neg (by omega)]
  obtain ⟨segs, hsegs⟩ := Option.isSome_iff_exists.mp
    (rxSegments_isSome (Nat.zero_lt_succ 7) hpos hfirst hok.first_ok hok.rest_ok hfit)
  rw [hsegs]
  rfl

theorem clientRxDecode_build {ringSize : Nat} {desc : RxDesc} {id : BitVec 64} (dmaMap : Int) (hid : id ≠ 0)
    (htoken : token < ringSize) (h : rxDescriptorBuild mem m first rest token isIp4 isUdp = some desc) :
    ∃ rx, clientRxDecode dmaMap m.size ringSize { desc with rxId := id } = .ok rx ∧
      rx.rxId = id ∧ rx.releaseToken = token ∧
      ipLength mem first.l3 first.stop isIp4 = some rx.packetLength ∧
      rx.bytes dmaMap = packetBytes m first rest rx.packetLength := by
  obtain ⟨hlen, hpos, htok, hsw, hres, hflags, hnames, hsum⟩ := rxDescriptorBuild_names h
  obtain ⟨hxor, hand⟩ := flags_ok isIp4 isUdp desc.flags hflags
  have hcount := hnames.count_le
  have hne : desc.segments.length ≠ 0 := fun h0 => hnames.nonempty (eq_nil_of_length_eq_zero h0)
  have hvalid : desc.segments.any (rxSegmentInvalid m.size) = false := by
    rw [any_eq_false]
    intro seg hseg
    have hok := hnames.segment_ok seg hseg
    have h1 := hok.nonempty
    have h2 := hok.inside
    simp only [rxSegmentInvalid, hok.reserved, Bool.or_eq_true, decide_eq_true_eq, bne_self_eq_false,
      Bool.false_eq_true, or_false, not_or]
    omega
  unfold clientRxDecode
  rw [if_neg (by simp only [not_or, hres, htok]; exact ⟨hid, by simp, by omega, hne, by omega, by omega, hxor, by simp [hand]⟩)]
  rw [hvalid, if_neg Bool.false_ne_true, if_neg (fun h => h hsum)]
  refine ⟨_, rfl, rfl, htok, hlen, ?_⟩
  dsimp only [Rx.bytes, packetBytes]
  rw [← hnames.bytes_eq, flatMap_map]
  refine flatMap_congr fun seg _ => ?_
  rw [map_sub_span]
  exact congrArg (span · seg.length) (add_sub_cancel_left dmaMap (seg.dataOffset : Int))

end

end Uet.Vpp
