import Uet.Ses.EndToEnd
import Uet.Ses.AddrConvention
import Uet.Ses.TxPlaces

/-!
# Lengths against the fields and buffers that hold them

The response to a request is written into a buffer that the packet layer sizes before it
knows the request, and the length of a message is added up in 64 bits and kept in 32. Both
are exact up to a bound that the code does not check: the bound is the hypothesis of each
result.
-/

namespace Uet.Ses

open Flat

/-! ## Responses -/

/-- `UET_DEFAULT_PDS_MAX_ACK_DATA`. -/
def maxAckData : Nat := 16

/-- `UET_DEFAULT_MAX_PAYLOAD_LEN`: `max_payload_len` of the instance, and the size of `gather_buf`. -/
def instMaxPayloadLen : Nat := 1024

/-- The size of `struct uet_ses_rsp`. -/
def sesRspLen : Nat := 12

/-- The size of `struct uet_ses_rsp_d`. -/
def sesRspDLen : Nat := 20

/-- `uet_rx_rd_req_pkt`: how much data of a read the response carries, if it does. -/
def rdAckLen (s : RxEp) (p : SesReq) : Option Nat :=
  match rxRdReqPkt s p with
  | .error _ => none
  | .ok (i, off, len) =>
    let b := (s.dom.mr i).region.buf
    if p.pds = .rudi ∨ s.maxPayloadLen = maxAckData ∨ p.reqLen.toNat ≤ maxAckData then
      if b.isScattered ∧ (instMaxPayloadLen < len ∨ (mrGather s.mem b off len).length ≠ len) then none
      else some len
    else none

/-- `rsp_ses_hdr_len` of `uet_pds_to_ses_rx_req`. -/
def rspSesHdrLen (s : RxEp) (p : SesReq) (ext : AtomicExt) : Nat :=
  match p.opcode with
  | .read => match rdAckLen s p with
    | some len => sesRspDLen + len
    | none => sesRspLen
  | .fetchAtomic => match (rxFetchAtomicReqPkt s p ext).2 with
    | .ok _ => sesRspDLen + 8
    | .error _ => sesRspLen
  | _ => sesRspLen

/-- The buffer of `uet_rudi_rx_req`, or of `uet_pds_upcall_ses_rx_req` and the stop-and-go
receive. -/
def rspRoom (p : SesReq) : Nat :=
  sesRspDLen + if p.pds = .rudi then instMaxPayloadLen else maxAckData

theorem rxRdReqPkt_len {s : RxEp} {p : SesReq} {i : MrIdx} {off len : Nat}
    (h : rxRdReqPkt s p = .ok (i, off, len)) : len = p.payloadLen s.maxPayloadLen ∧ len ≤ p.reqLen.toNat := by
  simp only [rxRdReqPkt] at h
  split at h
  · cases h
  rename_i hle
  repeat' split at h
  all_goals cases h
  exact ⟨rfl, Nat.not_lt.1 hle⟩

/-- A packet of a read after the first asks for no more than the response holds where the
data always travels in it: over RUDI, and on an endpoint whose packets are that small. -/
structure RdChunk (s : RxEp) (p : SesReq) : Prop where
  rudi : p.pds = .rudi → p.wordLen ≤ instMaxPayloadLen
  small : p.pds ≠ .rudi → s.maxPayloadLen = maxAckData → p.wordLen ≤ maxAckData

theorem rdAckLen_le {s : RxEp} {p : SesReq} {len : Nat} (hmtu : s.maxPayloadLen ≤ instMaxPayloadLen)
    (hop : p.opcode = .read) (hchunk : p.som = false → RdChunk s p) (h : rdAckLen s p = some len) :
    len ≤ if p.pds = .rudi then instMaxPayloadLen else maxAckData := by
  unfold rdAckLen at h
  split at h
  · cases h
  rename_i i off n hr
  obtain ⟨hn, hreq⟩ := rxRdReqPkt_len hr
  dsimp only at h
  split at h
  on_goal 2 => cases h
  rename_i hack
  split at h
  · cases h
  cases h
  -- the first packet asks for the endpoint's payload, a later one says how much
  have hfirst : p.som = true → len ≤ s.maxPayloadLen := fun hs => by
    simp only [SesReq.payloadLen, hs, hop, if_true] at hn
    split at hn <;> omega
  have hlater : p.som = false → len = p.wordLen := fun hs => by
    simpa only [SesReq.payloadLen, hs, Bool.false_eq_true, if_false] using hn
  split
  · rename_i hrudi
    cases hs : p.som with
    | true => exact le_trans (hfirst hs) hmtu
    | false => exact hlater hs ▸ (hchunk hs).rudi hrudi
  · rename_i hrudi
    rcases hack with hack | hack | hack
    · exact absurd hack hrudi
    · cases hs : p.som with
      | true => exact hack ▸ hfirst hs
      | false => exact hlater hs ▸ (hchunk hs).small hrudi hack
    · exact le_trans hreq hack

def largeReg : RegReq :=
  { userReg 0x8000000000000005 with region := ⟨⟨.contig 4096, 65536, by decide⟩, 0⟩ }

/-- A packet of a RUDI read that asks for `len` bytes from offset 0. -/
def rudiReadOf (len : BitVec 64) : SesReq :=
  { readOf (virtualWrite .rudi 0) with som := false, reqLen := 65536, word := len <<< 32 }

def noExt : AtomicExt := ⟨false, .other, 0, 0, 0⟩

/-- What an API call names as the buffer of a request. -/
inductive SendBuf where
  | iov (iov : List Iovec)
  | seg (segs : List MrSeg)

/-- The number of bytes the caller names. -/
def SendBuf.total : SendBuf → Nat
  | .iov v => (v.map (·.len)).sum
  | .seg segs => (segs.map (·.len)).sum

/-- `uet_seg_total_len`, a `size_t`. -/
def segTotalLen (segs : List MrSeg) : Nat := segs.foldl (fun total s => (total + s.len) % 2 ^ 64) 0

/-- `msg_len` of `uet_send_req_api_common`, a `uint32_t`. -/
def SendBuf.msgLen : SendBuf → Nat
  | .iov v => v.foldl (fun total e => (total + e.len) % 2 ^ 32) 0
  | .seg segs => segTotalLen segs % 2 ^ 32

/-- The request with its buffer and length, as the call records them. -/
def SendBuf.request (b : SendBuf) (r : SendReq) : SendReq :=
  match b with
  | .seg segs => { r with kind := .seg segs, len := b.msgLen }
  | .iov [v] => { r with kind := .contig, buf := v.base, len := b.msgLen }
  | .iov v => { r with kind := .iov v, len := b.msgLen }

theorem SendBuf.request_len (b : SendBuf) (r : SendReq) : (b.request r).len = b.msgLen := by
  unfold SendBuf.request
  split <;> rfl

theorem SendBuf.request_api (b : SendBuf) (r : SendReq) : (b.request r).api = r.api := by
  unfold SendBuf.request
  split <;> rfl

theorem foldl_mod {α : Type} (len : α → Nat) (w acc : Nat) (l : List α) (h : acc + (l.map len).sum < 2 ^ w) :
    l.foldl (fun total x => (total + len x) % 2 ^ w) acc = acc + (l.map len).sum := by
  induction l generalizing acc with
  | nil => simp
  | cons x l ih =>
    rw [List.map_cons, List.sum_cons] at h
    rw [List.foldl_cons, Nat.mod_eq_of_lt (by omega), ih _ (by omega), List.map_cons, List.sum_cons, Nat.add_assoc]

theorem SendBuf.msgLen_eq {b : SendBuf} (h : b.total < 2 ^ 32) : b.msgLen = b.total := by
  cases b with
  | iov v => exact (foldl_mod (·.len) 32 0 v (by simpa [SendBuf.total] using h)).trans (Nat.zero_add _)
  | seg segs =>
    have hle : (segs.map (·.len)).sum < 2 ^ 32 := h
    have hsum := foldl_mod (fun s : MrSeg => s.len) 64 0 segs (by omega)
    rw [SendBuf.msgLen, segTotalLen, hsum, Nat.zero_add, Nat.mod_eq_of_lt hle, SendBuf.total]

/-- The packets of a message of `len` bytes from one offset to another: each says the whole
length, a later one where its part stands and how long it is, and the part is carried or, by
a read, asked for. -/
inductive Cut (rd : Bool) (len : Nat) : Nat → List TxPkt → Nat → Prop
  | nil {off : Nat} : Cut rd len off [] off
  | cons {off n stop : Nat} {k : TxPkt} {ks : List TxPkt} (reqLen : k.hdr.reqLen.toNat = len)
      (som : k.hdr.som = decide (off = 0))
      (msgOff : off ≠ 0 → (k.hdr.word &&& 0x00000000ffffffff).toNat = off)
      (wordLen : off ≠ 0 → ((k.hdr.word &&& 0x00003fff00000000) >>> 32).toNat = n)
      (payload : rd = false → k.payload.length = n) (fits : off + n ≤ len)
      (rest : Cut rd len (off + n) ks stop) : Cut rd len off (k :: ks) stop

theorem Cut.append {rd : Bool} {len off mid stop : Nat} {ks ls : List TxPkt} (h : Cut rd len off ks mid)
    (h' : Cut rd len mid ls stop) : Cut rd len off (ks ++ ls) stop := by
  induction h with
  | nil => exact h'
  | cons h1 h2 h3 h4 h5 h6 _ ih => exact .cons h1 h2 h3 h4 h5 h6 (ih h')

/-- The descriptor of a message of `len` bytes, some of which are sent. -/
structure Sending (o : TxOp) (n : Nat) (d : TxDesc) : Prop where
  op : d.op = o
  len : d.len = n
  sum : d.bufOff + d.remaining = n
  live : d.cancelPending = false

section

variable {cfg : TxCfg} {op : TxOp} {len : Nat} {d : TxDesc}

theorem txPayload_length {mrs : Nat → Region} {m : Mem} {alloc : Bool} {n : Nat} {bytes : List Byte}
    (h : txPayload mrs m alloc d n = some bytes) : bytes.length = n := by
  unfold txPayload at h
  split at h
  · dsimp only at h
    split at h
    · rename_i hn
      cases h
      rw [Bool.and_eq_true, beq_iff_eq] at hn
      exact hn.2
    · cases h
  · split at h
    · simp only [gatherIovToBuffer] at h
      split at h
      · rename_i hn
        exact Option.some.inj h ▸ hn
      · cases h
    · cases h
  · rw [← Option.some.inj h, List.length_map, length_run]

theorem Sending.cut (h : Sending op len d) (hlt : len < 2 ^ 32) (hmtu : cfg.maxPayloadLen ≤ instMaxPayloadLen)
    (hop : op.noPayload = true → op = .read) {bytes : List Byte} {ks : List TxPkt} {stop : Nat}
    (hb : bytes.length = min d.remaining cfg.maxPayloadLen)
    (hrest : Cut (op == .read) len (d.bufOff + bytes.length) ks stop) :
    Cut (op == .read) len d.bufOff (d.nextPkt cfg bytes :: ks) stop := by
  have hsum := h.sum
  have hsmall : min d.remaining cfg.maxPayloadLen < 2 ^ 14 := by
    have : instMaxPayloadLen = 1024 := rfl
    omega
  have hsom : d.som = decide (d.bufOff = 0) := by
    rw [TxDesc.som, Bool.beq_eq_decide_eq, h.len]
    congr 1
    rw [eq_iff_iff]
    omega
  have hlater : d.bufOff ≠ 0 → (d.nextPkt cfg bytes).hdr.word = payloadLenMsgOff d.bufOff bytes.length := by
    intro hne
    have hs : d.som = false := by rw [hsom]; exact decide_eq_false hne
    simp only [TxDesc.nextPkt, buildSesHdr, h.live, hs, TxDesc.hdrPayloadLen, Bool.false_eq_true, if_false,
      Bool.not_false, Bool.true_and, beq_iff_eq, h.op]
    split
    · rw [hb]
    · rename_i hr
      rw [if_neg fun hn => hr (hop hn)]
  refine .cons ?_ hsom (fun hne => ?_) (fun hne => ?_) (fun hr => ?_) (by omega) hrest
  · show (BitVec.ofNat 32 d.len).toNat = len
    rw [h.len, BitVec.toNat_ofNat, Nat.mod_eq_of_lt hlt]
  · rw [hlater hne]
    exact payloadLenMsgOff_off _ (by omega)
  · rw [hlater hne]
    exact payloadLenMsgOff_len _ (hb ▸ hsmall)
  · have hn : op.noPayload = false := by
      by_contra hc
      exact absurd (hop (by simpa using hc)) (by simpa using hr)
    simp [TxDesc.nextPkt, h.op, hn]

variable (hlt : len < 2 ^ 32) (hmtu : cfg.maxPayloadLen ≤ instMaxPayloadLen)
  (hop : op.noPayload = true → op = .read) (mrs : Nat → Region) (m : Mem)

include hlt hmtu hop

theorem txMsgLoop_cut (ts : List TxTry) (h : Sending op len d) :
    Sending op len (txMsgLoop cfg mrs m ts d).1 ∧
      Cut (op == .read) len d.bufOff (txMsgLoop cfg mrs m ts d).2.1 (txMsgLoop cfg mrs m ts d).1.bufOff := by
  induction ts generalizing d with
  | nil => exact ⟨h, .nil⟩
  | cons t ts ih =>
    rw [txMsgLoop]
    split
    · exact ⟨h, .nil⟩
    dsimp only
    split
    · exact ⟨⟨h.op, h.len, h.sum, h.live⟩, .nil⟩
    rename_i bytes hb
    have hlen := txPayload_length hb
    split
    · obtain ⟨h1, h2⟩ := ih (d := ({ d with pktCnt := d.pktCnt + 1 } : TxDesc).sent (min d.remaining cfg.maxPayloadLen))
        ⟨h.op, h.len, by have := h.sum; simp only [TxDesc.sent]; omega, h.live⟩
      exact ⟨h1, h.cut hlt hmtu hop hlen (hlen ▸ h2)⟩
    · exact ⟨⟨h.op, h.len, h.sum, h.live⟩, .nil⟩
    · exact ⟨⟨h.op, h.len, h.sum, h.live⟩, .nil⟩

theorem txCalls_cut (calls : List TxCall) (h : Sending op len d) :
    Sending op len (txCalls cfg mrs m calls d).1 ∧
      Cut (op == .read) len d.bufOff (txCalls cfg mrs m calls d).2 (txCalls cfg mrs m calls d).1.bufOff := by
  induction calls generalizing d with
  | nil => exact ⟨h, .nil⟩
  | cons c calls ih =>
    have hinit : Sending op len (if d.som then dsendInit cfg c.token d else d) ∧
        (if d.som then dsendInit cfg c.token d else d).bufOff = d.bufOff := by
      split
      · obtain ⟨hs, h1, h2, -⟩ := dsendInit_same cfg c.token d
        exact ⟨⟨hs.op.trans h.op, hs.len.trans h.len, by rw [h1, h2, h.sum], hs.cancelPending.trans h.live⟩, h1⟩
      · exact ⟨h, rfl⟩
    obtain ⟨h1, h2⟩ := txMsgLoop_cut hlt hmtu hop mrs m c.tries hinit.1
    rw [hinit.2] at h2
    obtain ⟨h3, h4⟩ := ih h1
    exact ⟨h3, h2.append h4⟩

end

end Uet.Ses
