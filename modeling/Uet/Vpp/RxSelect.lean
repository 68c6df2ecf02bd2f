import Uet.Vpp.RxChain

/-!
# Which application a packet goes to

With several applications a worker chooses the channel of a received packet by what the packet
carries. Requests name an endpoint, which is looked up in the table of registrations. Answers
carry a number that the application has chosen: with the real PDS the number lies in the
namespace of the application; with stop-and-go the fields of the PDC ids hold the source endpoint,
which is looked up, with the job of the response, first as a relative and then as an absolute key.

A number of one scheme can be read in the other (`Unaliased` says when it is not).
-/

namespace Uet.Vpp

inductive PdsType where
  | rudReq | rodReq | rudiReq | rudiResp | uudReq | ack | ackCc | ackCcx | nack | ctrl | nackCcx
  | rudCcReq | rodCcReq
  deriving DecidableEq

/-- `UET_WIRE_PDS_*`. -/
def PdsType.ofWire : Nat → Option PdsType
  | 2 => some .rudReq
  | 3 => some .rodReq
  | 4 => some .rudiReq
  | 5 => some .rudiResp
  | 6 => some .uudReq
  | 7 => some .ack
  | 8 => some .ackCc
  | 9 => some .ackCcx
  | 10 => some .nack
  | 11 => some .ctrl
  | 12 => some .nackCcx
  | 13 => some .rudCcReq
  | 14 => some .rodCcReq
  | _ => none

/-- `UET_WIRE_SES_REQ_STD`. -/
def sesReqStd : Nat := 3

/-- `UET_WIRE_SES_RSP`, `UET_WIRE_SES_RSP_DATA` and `UET_WIRE_SES_RSP_DATA_SMALL`. -/
def isSesRsp (nextHeader : Nat) : Bool := nextHeader == 4 || nextHeader == 5 || nextHeader == 6

/-- `UET_WIRE_PDC_HEADER_SIZE`. -/
def pdcHeaderSize : Nat := 12
/-- `UET_WIRE_NACK_HEADER_SIZE`. -/
def nackHeaderSize : Nat := 16
/-- `UET_WIRE_CTRL_HEADER_SIZE`. -/
def ctrlHeaderSize : Nat := 16
/-- `UET_WIRE_RUDI_HEADER_SIZE`. -/
def rudiHeaderSize : Nat := 8
/-- `UET_WIRE_UUD_HEADER_SIZE`. -/
def uudHeaderSize : Nat := 4
/-- `UET_WIRE_SES_REQ_CMN_SIZE`. -/
def sesReqCmnSize : Nat := 12
/-- `UET_WIRE_SES_RSP_CMN_SIZE`. -/
def sesRspCmnSize : Nat := 8

/-- What the worker reads of a channel of its own: whether it is in use, and two of the flags that
the application sets. -/
structure ChannelFlags where
  active : Bool
  sng : Bool
  dmaReady : Bool
  deriving DecidableEq

structure Located where
  pds : Int
  available : Nat
  dst : Fin 16 → BitVec 8

section

variable (mem : Int → BitVec 8)

def net32 (a : Int) : Nat := net16 mem a * 65536 + net16 mem (a + 2)

def addressAt (a : Int) (size : Nat) : Fin 16 → BitVec 8 :=
  fun i => if i.val < size then mem (a + i.val) else 0

def rxIpHeader (start : Int) (available : Nat) (isIp4 : Bool) : Option (Nat × (Fin 16 → BitVec 8)) :=
  if isIp4 then
    if available < 20 then none
    else
      let l4Offset := ((mem start).toNat &&& 0xf) <<< 2
      if l4Offset < 20 ∨ available < l4Offset then none
      else some (l4Offset, addressAt mem (start + 16) 4)
  else if available < 40 then none
  else some (40, addressAt mem (start + 24) 16)

/-- The first part of `uet_rx_packet_namespace`: the way to the PDS header. -/
def rxLocate (b : Buffer) (isIp4 isUdp : Bool) : Option Located :=
  if b.l3 < b.data - bufferPreDataSize ∨ b.stop ≤ b.l3 then none
  else
    let available := u32 (b.stop - b.l3)
    match rxIpHeader mem b.l3 available isIp4 with
    | none => none
    | some (offset, dst) =>
      let l4Offset := offset + if isUdp then 8 else 4
      if available < l4Offset + 2 then none
      else some ⟨b.l3 + l4Offset, available - l4Offset, dst⟩

namespace Located

variable (w : Located)

def prologue : Nat := net16 mem w.pds
def type : Option PdsType := PdsType.ofWire ((w.prologue mem &&& 0xf800) >>> 11)
def nextHeader : Nat := (w.prologue mem &&& 0x0780) >>> 7
def flags : Nat := w.prologue mem &&& 0x007f

/-- `UET_WIRE_PDS_REQ_SYN`. -/
def syn : Bool := w.flags mem &&& 0x04 != 0

/-- `UET_WIRE_PDS_NACK_RUDI`. -/
def nackRudi : Bool := w.flags mem &&& 0x08 != 0

/-- The namespace of a PDC id, above `UET_VPP_SVM_PDC_LOCAL_BITS`. -/
def pdcNamespace : Nat := net16 mem (w.pds + 10) >>> 6

/-- The namespace of a RUDI packet id, above `UET_VPP_SVM_RUDI_LOCAL_BITS`. -/
def rudiNamespace : Nat := net32 mem (w.pds + 4) >>> 22

end Located

def nonzero (ns : Nat) : Option Nat := if ns = 0 then none else some ns

variable (um : Plugin) (channels : List ChannelFlags)

/-- `uet_rx_endpoint_key_namespace`. -/
def rxEndpointKeyNamespace (key : EndpointKey) : Option Nat :=
  match um.endpointHash.lookup key with
  | none => none
  | some ns => if ns = 0 ∨ clientNamespaceMax < ns then none else some ns

def sesEndpoint (ses : Int) (dst : Fin 16 → BitVec 8) (isIp4 : Bool) : EndpointKey :=
  let absolute := (mem (ses + 1)).toNat &&& 0x08 == 0
  { ipVersion := if isIp4 then 4 else 6
    absolute := if absolute then 1 else 0
    pidOnFep := BitVec.ofNat 16 (net16 mem (ses + 8) &&& 0x0fff)
    resourceIndex := BitVec.ofNat 16 (net16 mem (ses + 10) &&& 0x0fff)
    reserved0 := 0
    jobId := if absolute then 0 else BitVec.ofNat 32 (net32 mem (ses + 4) &&& 0x00ffffff)
    ipAddress := dst, reserved1 := 0 }

/-- `uet_rx_endpoint_namespace`. -/
def rxEndpointNamespace (ses : Int) (available : Nat) (dst : Fin 16 → BitVec 8) (isIp4 : Bool) :
    Option Nat :=
  if available < sesReqCmnSize then none else rxEndpointKeyNamespace um (sesEndpoint mem ses dst isIp4)

structure SngSource where
  pidOnFep : Nat
  resourceIndex : Nat
  jobId : Nat
  deriving DecidableEq

/-- The SES header is at `ses`. -/
def sngSource (pds ses : Int) : SngSource :=
  { pidOnFep := net16 mem (pds + 8) &&& 0x0fff
    resourceIndex := net16 mem (pds + 10) &&& 0x0fff
    jobId := net32 mem (ses + 4) &&& 0x00ffffff }

def SngSource.key (src : SngSource) (dst : Fin 16 → BitVec 8) (isIp4 absolute : Bool) : EndpointKey :=
  { ipVersion := if isIp4 then 4 else 6
    absolute := if absolute then 1 else 0
    pidOnFep := BitVec.ofNat 16 src.pidOnFep
    resourceIndex := BitVec.ofNat 16 src.resourceIndex
    reserved0 := 0
    jobId := if absolute then 0 else BitVec.ofNat 32 src.jobId
    ipAddress := dst, reserved1 := 0 }

/-- `uet_rx_sng_ack_namespace`. -/
def rxSngAckNamespace (w : Located) (isIp4 : Bool) : Option Nat :=
  if !isSesRsp (w.nextHeader mem) || decide (w.available < pdcHeaderSize + sesRspCmnSize) then none
  else
    let src := sngSource mem w.pds (w.pds + pdcHeaderSize)
    match rxEndpointKeyNamespace um (src.key w.dst isIp4 false) with
    | some ns => some ns
    | none => rxEndpointKeyNamespace um (src.key w.dst isIp4 true)

/-- `uet_rx_namespace_mode`: whether the application of a namespace uses stop-and-go. -/
def rxNamespaceMode (ns : Nat) : Option Bool :=
  if ns = 0 ∨ clientNamespaceMax < ns then none
  else
    match um.clientByNamespace ns with
    | none => none
    | some i =>
      match channels[i]? with
      | none => none
      | some f => if f.active then some f.sng else none

/-- `uet_rx_namespace_uses_sng`. -/
def rxNamespaceUsesSng (ns : Nat) : Bool := rxNamespaceMode um channels ns == some true

/-- The second part of `uet_rx_packet_namespace`: the namespace by the type of the packet. -/
def rxPdsNamespace (w : Located) (isIp4 : Bool) : Option Nat :=
  match w.type mem with
  | some .rudReq | some .rodReq =>
    if w.available < pdcHeaderSize then none
    else if w.syn mem then
      if w.nextHeader mem ≠ sesReqStd then none
      else rxEndpointNamespace mem um (w.pds + pdcHeaderSize) (w.available - pdcHeaderSize) w.dst isIp4
    else
      -- stop-and-go has the destination endpoint in every request
      match if w.nextHeader mem = sesReqStd then
          rxEndpointNamespace mem um (w.pds + pdcHeaderSize) (w.available - pdcHeaderSize) w.dst isIp4
        else none with
      | some ns => if rxNamespaceUsesSng um channels ns then some ns else nonzero (w.pdcNamespace mem)
      | none => nonzero (w.pdcNamespace mem)
  | some .rudCcReq | some .rodCcReq =>
    if w.available < pdcHeaderSize then none
    else if w.syn mem then
      if w.nextHeader mem ≠ sesReqStd ∨ w.available < pdcHeaderSize + 4 then none
      else rxEndpointNamespace mem um (w.pds + (pdcHeaderSize + 4 : Nat))
        (w.available - (pdcHeaderSize + 4)) w.dst isIp4
    else nonzero (w.pdcNamespace mem)
  | some .ack =>
    if w.available < pdcHeaderSize then none
    else
      match rxSngAckNamespace mem um w isIp4 with
      | some ns =>
        if rxNamespaceUsesSng um channels ns then
          -- two live applications are not chosen between
          if w.pdcNamespace mem ≠ ns ∧ rxNamespaceMode um channels (w.pdcNamespace mem) = some false then none
          else some ns
        else nonzero (w.pdcNamespace mem)
      | none => nonzero (w.pdcNamespace mem)
  | some .ackCc | some .ackCcx =>
    if w.available < pdcHeaderSize then none else nonzero (w.pdcNamespace mem)
  | some .nack | some .nackCcx =>
    if w.available < nackHeaderSize then none
    else if w.nackRudi mem then nonzero (w.rudiNamespace mem)
    else nonzero (w.pdcNamespace mem)
  | some .ctrl =>
    if w.available < ctrlHeaderSize ∨ w.syn mem then none else nonzero (w.pdcNamespace mem)
  | some .rudiReq =>
    if w.available < rudiHeaderSize ∨ w.nextHeader mem ≠ sesReqStd then none
    else rxEndpointNamespace mem um (w.pds + rudiHeaderSize) (w.available - rudiHeaderSize) w.dst isIp4
  | some .rudiResp =>
    if w.available < rudiHeaderSize then none else nonzero (w.rudiNamespace mem)
  | some .uudReq =>
    if w.available < uudHeaderSize ∨ w.nextHeader mem ≠ sesReqStd then none
    else rxEndpointNamespace mem um (w.pds + uudHeaderSize) (w.available - uudHeaderSize) w.dst isIp4
  | none => none

/-- `uet_rx_packet_namespace`. -/
def rxPacketNamespace (b : Buffer) (isIp4 isUdp : Bool) : Option Nat :=
  match rxLocate mem b isIp4 isUdp with
  | none => none
  | some w => rxPdsNamespace mem um channels w isIp4

def rxNamespaceChannel (ns : Nat) : Option Nat :=
  if clientNamespaceMax < ns then none
  else
    match um.clientByNamespace ns with
    | none => none
    | some i =>
      match channels[i]? with
      | none => none
      | some f => if f.active && f.dmaReady then some i else none

/-- `uet_rx_channel_select`: the channel, and whether the choice was ambiguous. -/
def rxChannelSelect (b : Buffer) (isIp4 isUdp : Bool) (readyCount : Nat) (singleChannel : Option Nat) :
    Option Nat × Bool :=
  if readyCount ≤ 1 then (singleChannel, false)
  else
    match rxPacketNamespace mem um channels b isIp4 isUdp with
    | none => (none, true)
    | some ns =>
      match rxNamespaceChannel um channels ns with
      | none => (none, true)
      | some i => (some i, false)

/-! ## Whose packet it is -/

/-- An application: its namespace and channel, its mode, and, with stop-and-go, the source
endpoints that it puts into its packets. -/
structure App where
  ns : Nat
  index : Nat
  sng : Bool
  sources : Set SngSource

structure App.Attached (a : App) : Prop where
  pos : a.ns ≠ 0
  le_max : a.ns ≤ clientNamespaceMax
  client : um.clientByNamespace a.ns = some a.index
  channel : ∃ dmaReady, channels[a.index]? = some ⟨true, a.sng, dmaReady⟩

def PdsType.requestSize : PdsType → Option Nat
  | .rudReq | .rodReq => some 12
  | .rudCcReq | .rodCcReq => some 16
  | .rudiReq => some 8
  | .uudReq => some 4
  | _ => none

def PdsType.ackSize : PdsType → Option Nat
  | .ack => some 12
  | .ackCc => some 32
  | .ackCcx => some 40
  | _ => none

def App.RequestFor (a : App) (w : Located) (isIp4 : Bool) : Prop :=
  ∃ t size, w.type mem = some t ∧ t.requestSize = some size ∧ w.nextHeader mem = sesReqStd ∧
    size + sesReqCmnSize ≤ w.available ∧
    um.endpointHash.lookup (sesEndpoint mem (w.pds + size) w.dst isIp4) = some a.ns

/-- An answer with the number that the application has chosen: a PDC id or a RUDI packet id in its
namespace. -/
def App.PdsAnswerFor (a : App) (w : Located) : Prop :=
  ∃ t, w.type mem = some t ∧
    ((t = .ack ∨ t = .ackCc ∨ t = .ackCcx ∨ t = .ctrl ∨ ((t = .nack ∨ t = .nackCcx) ∧ w.nackRudi mem = false)) ∧
        w.pdcNamespace mem = a.ns ∨
      (t = .rudiResp ∨ ((t = .nack ∨ t = .nackCcx) ∧ w.nackRudi mem = true)) ∧
        w.rudiNamespace mem = a.ns)

def App.SngAnswerFor (a : App) (w : Located) : Prop :=
  ∃ t size, w.type mem = some t ∧ t.ackSize = some size ∧ isSesRsp (w.nextHeader mem) = true ∧
    size + sesRspCmnSize ≤ w.available ∧ sngSource mem w.pds (w.pds + size) ∈ a.sources

def App.Owns (a : App) (w : Located) (isIp4 : Bool) : Prop :=
  a.RequestFor mem um w isIp4 ∨ (a.sng = false ∧ a.PdsAnswerFor mem w) ∨
    (a.sng = true ∧ a.SngAnswerFor mem w)

def App.Only (a : App) (ns : Nat) : Prop := ∀ i, rxNamespaceChannel um channels ns = some i → i = a.index

/-- What a packet of the application carries leads to no other one when it is read in the
other scheme: the PDC id of a request to it that is not found by its endpoint; the
source endpoint of an answer to it, which as a key has to be its own first, or else to be no
key of another one that uses stop-and-go, and no number of another one. -/
structure App.Unaliased (a : App) (w : Located) (isIp4 : Bool) : Prop where
  request : ∀ t, w.type mem = some t → t = .rudReq ∨ t = .rodReq ∨ t = .rudCcReq ∨ t = .rodCcReq →
    w.syn mem = false → ¬ ((t = .rudReq ∨ t = .rodReq) ∧ a.sng = true) →
    a.Only um channels (w.pdcNamespace mem)
  answer : a.sng = true → ∀ t, w.type mem = some t → t.ackSize.isSome →
    ¬ (t = .ack ∧ rxSngAckNamespace mem um w isIp4 = some a.ns) →
    a.Only um channels (w.pdcNamespace mem) ∧
      ∀ ns, rxSngAckNamespace mem um w isIp4 = some ns → rxNamespaceUsesSng um channels ns = true →
        a.Only um channels ns

end

section

variable {mem : Int → BitVec 8} {um : Plugin} {channels : List ChannelFlags} {a : App} {w : Located}
  {isIp4 : Bool}

theorem App.Attached.only (ha : a.Attached um channels) : a.Only um channels a.ns := by
  intro i hi
  obtain ⟨ready, hchannel⟩ := ha.channel
  rw [rxNamespaceChannel, if_neg ha.le_max.not_gt, ha.client] at hi
  simp only [hchannel] at hi
  split at hi
  · exact (Option.some.inj hi).symm
  · cases hi

theorem App.Attached.mode (ha : a.Attached um channels) : rxNamespaceMode um channels a.ns = some a.sng := by
  obtain ⟨ready, hchannel⟩ := ha.channel
  rw [rxNamespaceMode, if_neg (not_or.mpr ⟨ha.pos, ha.le_max.not_gt⟩), ha.client]
  simp only [hchannel, if_true]

theorem App.Attached.keyNamespace (ha : a.Attached um channels) {key : EndpointKey}
    (h : um.endpointHash.lookup key = some a.ns) : rxEndpointKeyNamespace um key = some a.ns := by
  simp only [rxEndpointKeyNamespace, h]
  rw [if_neg (not_or.mpr ⟨ha.pos, ha.le_max.not_gt⟩)]

theorem nonzero_only {ns n : Nat} (h : a.Only um channels n) (hns : nonzero n = some ns) :
    a.Only um channels ns := by
  unfold nonzero at hns
  split at hns
  · cases hns
  · rw [← Option.some.inj hns]
    exact h

section

variable (ha : a.Attached um channels)
include ha

theorem endpoint_only {size ns : Nat}
    (hkey : um.endpointHash.lookup (sesEndpoint mem (w.pds + size) w.dst isIp4) = some a.ns)
    (h : rxEndpointNamespace mem um (w.pds + size) (w.available - size) w.dst isIp4 = some ns) :
    a.Only um channels ns := by
  unfold rxEndpointNamespace at h
  split at h
  · cases h
  rw [ha.keyNamespace hkey] at h
  rw [← Option.some.inj h]
  exact ha.only

theorem request_only (hreq : a.RequestFor mem um w isIp4)
    (hclear : a.Unaliased mem um channels w isIp4) {ns : Nat}
    (h : rxPdsNamespace mem um channels w isIp4 = some ns) : a.Only um channels ns := by
  obtain ⟨t, size, htype, hsize, hnext, hlen, hkey⟩ := hreq
  have hclear := hclear.request t htype
  simp only [rxPdsNamespace, htype] at h
  cases t with
  | rudReq | rodReq =>
    cases hsize
    dsimp only at h
    split at h
    · cases h
    split at h
    · rw [if_neg (not_not.mpr hnext)] at h
      exact endpoint_only ha hkey h
    rename_i hsyn
    have hfound : rxEndpointNamespace mem um (w.pds + pdcHeaderSize) (w.available - pdcHeaderSize)
        w.dst isIp4 = some a.ns := by
      have hroom : ¬ w.available - pdcHeaderSize < sesReqCmnSize :=
        Nat.not_lt.mpr (Nat.le_sub_of_add_le' hlen)
      rw [rxEndpointNamespace, if_neg hroom]
      exact ha.keyNamespace hkey
    rw [hfound] at h
    dsimp only at h
    split at h
    · rw [← Option.some.inj h]
      exact ha.only
    rename_i hsng
    refine nonzero_only (hclear (by simp) (Bool.eq_false_iff.mpr hsyn) fun hc => hsng ?_) h
    rw [rxNamespaceUsesSng, ha.mode, hc.2]
    rfl
  | rudCcReq | rodCcReq =>
    cases hsize
    dsimp only at h
    split at h
    · cases h
    split at h
    · split at h
      · cases h
      · exact endpoint_only ha hkey h
    · rename_i hsyn
      exact nonzero_only (hclear (by simp) (Bool.eq_false_iff.mpr hsyn) (by simp)) h
  | rudiReq | uudReq =>
    cases hsize
    dsimp only at h
    split at h
    · cases h
    · exact endpoint_only ha hkey h
  | _ => cases hsize

theorem pdsAnswer_only (hmode : a.sng = false)
    (hans : a.PdsAnswerFor mem w) {ns : Nat} (h : rxPdsNamespace mem um channels w isIp4 = some ns) :
    a.Only um channels ns := by
  obtain ⟨t, htype, hans⟩ := hans
  have hown : ∀ {n : Nat}, n = a.ns → nonzero n = some ns → a.Only um channels ns :=
    fun hn hns => nonzero_only (hn ▸ ha.only) hns
  simp only [rxPdsNamespace, htype] at h
  rcases hans with ⟨ht, hns⟩ | ⟨ht, hns⟩
  · rcases ht with rfl | rfl | rfl | rfl | ⟨rfl | rfl, hrudi⟩
    · dsimp only at h
      split at h
      · cases h
      split at h
      · rename_i other hother
        split at h
        · rename_i hsng
          split at h
          · cases h
          -- the key is one of a stop-and-go application, which this one is not
          rename_i hnot
          rw [hns, ha.mode, hmode] at hnot
          have hsame : a.ns = other := by
            by_contra hne
            exact hnot ⟨hne, rfl⟩
          rw [← hsame, rxNamespaceUsesSng, ha.mode, hmode] at hsng
          cases hsng
        · exact hown hns h
      · exact hown hns h
    · dsimp only at h
      split at h
      · cases h
      · exact hown hns h
    · dsimp only at h
      split at h
      · cases h
      · exact hown hns h
    · dsimp only at h
      split at h
      · cases h
      · exact hown hns h
    all_goals
      dsimp only at h
      rw [hrudi] at h
      split at h
      · cases h
      · exact hown hns h
  · rcases ht with rfl | ⟨rfl | rfl, hrudi⟩
    · dsimp only at h
      split at h
      · cases h
      · exact hown hns h
    all_goals
      dsimp only at h
      rw [hrudi] at h
      split at h
      · cases h
      · exact hown hns h

theorem sngAnswer_only (hmode : a.sng = true)
    (hans : a.SngAnswerFor mem w) (hclear : a.Unaliased mem um channels w isIp4) {ns : Nat}
    (h : rxPdsNamespace mem um channels w isIp4 = some ns) : a.Only um channels ns := by
  obtain ⟨t, size, htype, hsize, -⟩ := hans
  have hclear := hclear.answer hmode t htype (hsize ▸ rfl)
  simp only [rxPdsNamespace, htype] at h
  cases t with
  | ack =>
    dsimp only at h
    split at h
    · cases h
    by_cases hkey : rxSngAckNamespace mem um w isIp4 = some a.ns
    · have hsng : rxNamespaceUsesSng um channels a.ns = true := by
        rw [rxNamespaceUsesSng, ha.mode, hmode]
        rfl
      rw [hkey] at h
      dsimp only at h
      rw [if_pos hsng] at h
      split at h
      · cases h
      · rw [← Option.some.inj h]
        exact ha.only
    · obtain ⟨hnumber, hother⟩ := hclear fun hc => hkey hc.2
      split at h
      · rename_i ns' hns'
        split at h
        · rename_i hsng
          split at h
          · cases h
          · rw [← Option.some.inj h]
            exact hother ns' hns' hsng
        · exact nonzero_only hnumber h
      · exact nonzero_only hnumber h
  | ackCc | ackCcx =>
    obtain ⟨hnumber, -⟩ := hclear (by simp)
    dsimp only at h
    split at h
    · cases h
    · exact nonzero_only hnumber h
  | _ => cases hsize

end

end

/-! ## Two applications with one source endpoint -/

/-- An acknowledgement with the source endpoint 5, 1 and the job 9, over UDP and IPv4. -/
def ackBytes : List (BitVec 8) :=
  [0x45, 0, 0, 48, 0, 0, 0, 0, 64, 17, 0, 0, 10, 0, 0, 2, 10, 0, 0, 1] ++
  [0x12, 0xb5, 0x12, 0xb5, 0, 28, 0, 0] ++
  [0x3a, 0, 0, 0, 0, 0, 0, 1, 0, 5, 0, 1] ++
  [0, 0, 0, 0, 0, 0, 0, 9]

def bytesAt (bytes : List (BitVec 8)) (a : Int) : BitVec 8 := bytes.getD a.toNat 0

def ackBuffer : Buffer :=
  { data := 0, currentData := 0, currentLength := 48, totalLengthNotIncludingFirstBuffer := 0
    l3HdrOffset := 0, rxSwIfIndex := 1 }

def ackLocated : Located := ⟨28, 20, addressAt (bytesAt ackBytes) 16 4⟩

theorem locate_ack : rxLocate (bytesAt ackBytes) ackBuffer true true = some ackLocated := rfl

def absoluteApp : App := ⟨1, 0, true, fun src => src = ⟨5, 1, 9⟩⟩

/-- It has registered its endpoint; another one has the same PIDonFEP and resource index in
a job. -/
def twoApps (jobId : Nat) : Plugin :=
  { clientByNamespace := fun ns => if ns = 1 then some 0 else if ns = 2 then some 1 else none
    endpointHash :=
      [((⟨5, 1, 9⟩ : SngSource).key ackLocated.dst true true, 1),
        ((⟨5, 1, jobId⟩ : SngSource).key ackLocated.dst true false, 2)] }

def twoSng : List ChannelFlags := [⟨true, true, true⟩, ⟨true, true, true⟩]

theorem absoluteApp_attached (jobId : Nat) : absoluteApp.Attached (twoApps jobId) twoSng :=
  ⟨by decide, by decide, rfl, true, rfl⟩

theorem absoluteApp_owns (jobId : Nat) : absoluteApp.Owns (bytesAt ackBytes) (twoApps jobId) ackLocated true :=
  have hsrc : sngSource (bytesAt ackBytes) ackLocated.pds (ackLocated.pds + (12 : Nat)) = ⟨5, 1, 9⟩ := by
    decide +kernel
  .inr (.inr ⟨rfl, .ack, 12, by decide, rfl, by decide, by decide, hsrc⟩)

end Uet.Vpp
