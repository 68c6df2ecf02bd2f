import Uet.Ses.RxConfine

/-!
# The data of a read

The answers to a read carry the offset of their data in the message. `uet_rx_read_data` compares the end of
the data with the length of the read, in a sum of 32 bits: an offset close to the end of that range passes for one at
the beginning of the buffer. A vector or a segment list is searched for the offset and ends before it; a contiguous
buffer is not.
-/

namespace Uet.Ses

open Uet.Flat

/-- The buffer of a read: a vector of one entry, another vector, or a list of segments. -/
inductive ReadBuf where
  | contig (v : Iovec)
  | iov (vs : List Iovec)
  | seg (segs : List MrSeg)

/-- `msg_len`, a `uint32_t`. -/
def ReadBuf.msgLen : ReadBuf → Nat
  | .contig v => v.len % 2 ^ 32
  | .iov vs => (vs.map (·.len)).sum % 2 ^ 32
  | .seg segs => (segs.map (·.len)).sum % 2 ^ 32

/-- The receive descriptor that `uet_send_req_api_common` sets up for a read. -/
def ReadBuf.rxDesc (b : ReadBuf) (msgId : BitVec 16) (context : Nat) : RxDesc :=
  { RxDesc.zero with
    active := true, postCq := true, len := b.msgLen, msgLen := b.msgLen, remaining := b.msgLen, context
    msgKey := ⟨0, 0, msgId⟩
    buf := match b with
      | .contig v => v.base
      | _ => 0
    kind := match b with
      | .contig _ => .contig
      | .iov vs => .iov vs
      | .seg segs => .seg segs }

/-- A read response as `uet_parse_pkt` leaves it. -/
structure RdRsp where
  msgOff : BitVec 32
  sesPayloadLen : BitVec 16
  pktPayloadLen : BitVec 16
  byteAt : Nat → Byte

def RdRsp.payload (r : RdRsp) : List Byte := (List.range r.sesPayloadLen.toNat).map r.byteAt

/-- The switch of `uet_rx_read_data` on the type of the buffer. -/
def rdPlace (s : RxEp) (d : RxDesc) (off : Nat) (bs : List Byte) : Mem × SesRc :=
  match d.kind with
  | .seg segs =>
    let (m, n) := scatterFlatToSeg (fun i => (s.dom.mr i).region) s.mem segs bs off
    (m, if n = bs.length then .ok else .badAddr)
  | .iov iov =>
    let (m, n) := scatterFlatToIov s.mem iov bs off
    (m, if n = bs.length then .ok else .badAddr)
  | .contig => (memcpy s.mem ((d.buf + off) % 2 ^ 64) bs, .ok)
  | .mr => (s.mem, .badAddr)

/-- `uet_rx_read_data`. -/
def rxReadData (s : RxEp) (d : RxDesc) (r : RdRsp) : Mem × SesRc :=
  if d.msgLen < r.sesPayloadLen.toNat || r.pktPayloadLen.toNat < r.sesPayloadLen.toNat then (s.mem, .opViolation)
  else if d.len < (r.msgOff + r.sesPayloadLen.setWidth 32).toNat then (s.mem, .badAddr)
  else rdPlace s d r.msgOff.toNat r.payload

section

variable {s : RxEp} {d : RxDesc} {as : List Nat} {off : Nat} {bs : List Byte}

/-- Within the buffer a copy stores through the addresses of the buffer. -/
theorem rdPlace_mem (has : d.addrs s = some as) (hfit : off + bs.length ≤ d.len) :
    (rdPlace s d off bs).1 = poke s.mem (as.drop off) bs ∨ (rdPlace s d off bs).1 = s.mem := by
  unfold rdPlace
  unfold RxDesc.addrs at has
  cases hk : d.kind with
  | contig =>
    simp only [hk] at has
    split at has
    · rename_i hspace
      cases has
      exact .inl (memcpy_within _ hspace hfit)
    · cases has
  | iov iov =>
    simp only [hk, Option.some.injEq] at has
    subst has
    refine .inl ?_
    simp only [scatterFlatToIov_eq]
  | mr => exact .inr rfl
  | seg segs =>
    simp only [hk] at has
    refine .inl ?_
    simp only [scatterFlatToSeg_eq s.mem has]

/-- A list that ends before the offset takes nothing. -/
theorem rdPlace_past (has : d.addrs s = some as) (hk : d.kind ≠ .contig) (hoff : as.length ≤ off) (hbs : bs ≠ []) :
    rdPlace s d off bs = (s.mem, .badAddr) := by
  have hnone : (poke s.mem (as.drop off) bs, if min bs.length (as.length - off) = bs.length then SesRc.ok else .badAddr) =
      (s.mem, .badAddr) := by
    have hpos := List.length_pos_iff.2 hbs
    rw [List.drop_eq_nil_of_le hoff, poke_nil_left, if_neg (by omega)]
  unfold rdPlace
  unfold RxDesc.addrs at has
  cases hkind : d.kind with
  | contig => exact absurd hkind hk
  | iov iov =>
    simp only [hkind, Option.some.injEq] at has
    subst has
    simp only [scatterFlatToIov_eq]
    exact hnone
  | mr => rfl
  | seg segs =>
    simp only [hkind] at has
    simp only [scatterFlatToSeg_eq s.mem has]
    exact hnone

end

/-- The end of the data is within the 32 bits in which it is computed, or something else refuses the packet: its
length, or a list that ends before the offset. -/
def RdRsp.EndFits (r : RdRsp) (b : ReadBuf) (as : List Nat) : Prop :=
  r.msgOff.toNat + r.sesPayloadLen.toNat < 2 ^ 32 ∨ b.msgLen < r.sesPayloadLen.toNat ∨
    r.pktPayloadLen.toNat < r.sesPayloadLen.toNat ∨ (∀ v, b ≠ .contig v) ∧ as.length ≤ r.msgOff.toNat

/-- Two bytes for a read of four into the buffer at 4096. -/
def readFour : ReadBuf := .contig ⟨4096, 4⟩

def twoAt (msgOff : BitVec 32) : RdRsp := ⟨msgOff, 2, 2, fun _ => 7⟩

end Uet.Ses
