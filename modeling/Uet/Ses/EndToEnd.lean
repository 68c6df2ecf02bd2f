import Uet.Ses.Reassembly
import Uet.Ses.TxMsg

/-!
# From one end to the other

A message that `uet_tx_msg` cuts into packets, in as many calls as it takes, and the
endpoint that gets these packets in any order. The bytes arrive whole whatever the order;
what is posted to the completion queue depends on the packet that comes first, because only
the packet from offset 0 carries immediate data and only the first packet to arrive sets
the descriptor up.
-/

namespace Uet.Ses

open Flat List

/-! ## The word of a later packet -/

private theorem msgOffMask (i : Nat) : (0x00000000ffffffff : BitVec 64).getLsbD i = decide (i < 32) := by
  show (BitVec.ofNat 64 (2 ^ 32 - 1)).getLsbD i = decide (i < 32)
  rw [BitVec.getLsbD_ofNat, Nat.testBit_two_pow_sub_one]
  by_cases h : i < 32
  · simp [h]
    omega
  · simp [h]

private theorem payloadLenMask (i : Nat) :
    (0x00003fff00000000 : BitVec 64).getLsbD i = (decide (32 ≤ i) && decide (i < 46)) := by
  show (BitVec.ofNat 64 (2 ^ 14 - 1) <<< 32).getLsbD i = (decide (32 ≤ i) && decide (i < 46))
  rw [BitVec.getLsbD_shiftLeft, BitVec.getLsbD_ofNat, Nat.testBit_two_pow_sub_one]
  by_cases h : 32 ≤ i
  · by_cases h' : i < 46
    · simp [h, h', show i < 64 by omega, show i - 32 < 64 by omega, show i - 32 < 14 by omega, Nat.not_lt.2 h]
    · simp [h', show ¬ i - 32 < 14 by omega]
  · simp [h, Nat.lt_of_not_le h]

private theorem getLsbD_eq_false {w : BitVec 64} {k i : Nat} (h : w.toNat < 2 ^ k) (hi : k ≤ i) :
    w.getLsbD i = false := by
  rw [BitVec.getLsbD]
  exact Nat.testBit_lt_two_pow (Nat.lt_of_lt_of_le h (Nat.pow_le_pow_right (by decide) hi))

section

variable {off n lo hi : BitVec 64} (hlo : ∀ i, lo.getLsbD i = decide (i < 32))
  (hhi : ∀ i, hi.getLsbD i = (decide (32 ≤ i) && decide (i < 46)))

include hlo hhi

private theorem word_low (h1 : off.toNat < 2 ^ 32) : ((off &&& lo) ||| ((n <<< 32) &&& hi)) &&& lo = off := by
  apply BitVec.eq_of_getLsbD_eq
  intro i _
  simp only [BitVec.getLsbD_and, BitVec.getLsbD_or, hlo, hhi]
  by_cases h : i < 32
  · simp [h, show ¬ 32 ≤ i by omega]
  · rw [getLsbD_eq_false h1 (by omega)]
    simp [h]

private theorem word_high (h2 : n.toNat < 2 ^ 14) :
    (((off &&& lo) ||| ((n <<< 32) &&& hi)) &&& hi) >>> 32 = n := by
  apply BitVec.eq_of_getLsbD_eq
  intro i _
  simp only [BitVec.getLsbD_and, BitVec.getLsbD_or, hlo, hhi, BitVec.getLsbD_shiftLeft,
    BitVec.getLsbD_ushiftRight]
  by_cases h : i < 14
  · simp [show 32 + i < 46 by omega, show 32 + i < 64 by omega, show ¬ 32 + i < 32 by omega]
  · have hn := getLsbD_eq_false h2 (show 14 ≤ i by omega)
    simp [hn, show ¬ 32 + i < 32 by omega]

end

private theorem toNat_ofNat_of_lt {k a : Nat} (ha : a < 2 ^ k) (hk : k ≤ 64) :
    (BitVec.ofNat 64 a).toNat = a := by
  rw [BitVec.toNat_ofNat]
  exact Nat.mod_eq_of_lt (Nat.lt_of_lt_of_le ha (Nat.pow_le_pow_right (by decide) hk))

theorem payloadLenMsgOff_off {off : Nat} (n : Nat) (h : off < 2 ^ 32) :
    (payloadLenMsgOff off n &&& 0x00000000ffffffff).toNat = off := by
  have hoff := toNat_ofNat_of_lt h (by decide)
  rw [payloadLenMsgOff, word_low msgOffMask payloadLenMask (by rw [hoff]; exact h), hoff]

theorem payloadLenMsgOff_len (off : Nat) {n : Nat} (h : n < 2 ^ 14) :
    ((payloadLenMsgOff off n &&& 0x00003fff00000000) >>> 32).toNat = n := by
  have hn := toNat_ofNat_of_lt h (by decide)
  rw [payloadLenMsgOff, word_high msgOffMask payloadLenMask (by rw [hn]; exact h), hn]

/-! ## What is sent, and what arrives -/

def MsgOp.txOp : MsgOp → TxOp
  | .send => .send
  | .taggedSend => .tsend
  | .write => .write

def TxDesc.source (mrs : Nat → Region) (d : TxDesc) : Option (List Nat) :=
  match d.kind with
  | .seg segs => segAddrs mrs segs
  | .iov iov => some (iovAddrs iov)
  | _ => some (run d.buf d.len)

def TxDesc.imm (d : TxDesc) : Option (BitVec 64) :=
  if d.immValid && (d.op == .send || d.op == .write || d.op == .writeSync) then some d.tagOrImm
  else none

/-- A message before its first packet: the descriptor as the API call sets it up, with the
source buffer it reads. -/
structure Outgoing where
  cfg : TxCfg
  mrs : Nat → Region
  mem : Mem
  desc : TxDesc
  op : MsgOp
  src : List Nat
  hasOp : desc.op = op.txOp
  start : desc.bufOff = 0
  whole : desc.remaining = desc.len
  untouched : desc.transmitted = false
  notCancelled : desc.cancelPending = false
  resolves : desc.source mrs = some src
  holds : desc.len ≤ src.length
  mtu_pos : 0 < cfg.maxPayloadLen
  mtu_lt : cfg.maxPayloadLen < 2 ^ 14
  len_lt : desc.len < 2 ^ 32

def Outgoing.data (o : Outgoing) : List Byte := (o.src.take o.desc.len).map o.mem

theorem Outgoing.length_data (o : Outgoing) : o.data.length = o.desc.len := by
  rw [Outgoing.data, length_map, length_take]
  exact Nat.min_eq_left o.holds

/-- What the packet layer adds on the way: the source address, the context, the trailer and
what stands after the payload. -/
structure Wire where
  src : Nat
  spdcid : BitVec 16
  trailerLen : Nat
  after : Nat → Byte

def Wire.arrive (w : Wire) (pds : PdsReq) (k : TxPkt) : SesReq :=
  { pds, opcode := k.hdr.opcode, som := k.hdr.som, eom := k.hdr.eom, hd := k.hdr.hd, ie := false,
    src := w.src, spdcid := w.spdcid, msgId := k.hdr.msgId, gen := k.hdr.gen, jobId := k.hdr.jobId,
    reqLen := k.hdr.reqLen, bufOff := k.hdr.bufOff, word := k.hdr.word,
    matchBits := k.hdr.matchBits, initiator := k.hdr.initiator, syncGrp := k.hdr.syncGrp,
    syncCnt := k.hdr.syncCnt, frameLen := k.payload.length + w.trailerLen,
    trailerLen := w.trailerLen, byteAt := fun i => k.payload.getD i (w.after (i - k.payload.length)) }

variable (w : Wire)

theorem Wire.arrive_pktPayloadLen (pds : PdsReq) {k : TxPkt}
    (h : k.payload.length < 2 ^ 16) : (w.arrive pds k).pktPayloadLen = k.payload.length := by
  show (BitVec.ofNat 16 (k.payload.length + w.trailerLen) - BitVec.ofNat 16 w.trailerLen).toNat
    = k.payload.length
  rw [BitVec.ofNat_add, BitVec.add_sub_cancel, BitVec.toNat_ofNat]
  exact Nat.mod_eq_of_lt h

theorem Wire.arrive_read (pds : PdsReq) (k : TxPkt) :
    (w.arrive pds k).read k.payload.length = k.payload := by
  apply ext_getElem
  · simp
  · intro i h1 h2
    simp [SesReq.read, Wire.arrive, h2]

/-- `ri_gen_job_id` of the packets of a message. -/
def Outgoing.ri (o : Outgoing) : BitVec 32 :=
  riGenJobId (if o.desc.op = .tsend then o.cfg.taggedGen else o.cfg.untaggedGen) o.desc.jobId

def Outgoing.msg (o : Outgoing) (w : Wire) : Msg :=
  { op := o.op, pds := o.desc.pdsMode, key := ⟨w.src, w.spdcid, o.desc.msgId⟩
    gen := (o.ri &&& 0xff000000) >>> 24, jobId := o.ri &&& 0x00ffffff
    matchBits := o.desc.matchBits, initiator := o.cfg.initiator, start := o.desc.remoteStartOff
    imm := o.desc.imm, mtu := o.cfg.maxPayloadLen, data := o.data
    mtu_pos := o.mtu_pos, mtu_lt := o.mtu_lt
    len_lt := by rw [o.length_data]; exact o.len_lt }

theorem Outgoing.msg_len (o : Outgoing) (w : Wire) : (o.msg w).len = o.desc.len := o.length_data

structure SameMsg (d d' : TxDesc) : Prop where
  op : d'.op = d.op
  kind : d'.kind = d.kind
  buf : d'.buf = d.buf
  len : d'.len = d.len
  immValid : d'.immValid = d.immValid
  tagOrImm : d'.tagOrImm = d.tagOrImm
  remoteKey : d'.remoteKey = d.remoteKey
  remoteStartOff : d'.remoteStartOff = d.remoteStartOff
  jobId : d'.jobId = d.jobId
  msgId : d'.msgId = d.msgId
  pdsMode : d'.pdsMode = d.pdsMode
  cancelPending : d'.cancelPending = d.cancelPending

/-- The descriptor stands at offset `off`, with something to send. -/
structure Outgoing.SendingAt (o : Outgoing) (off : Nat) (d : TxDesc) : Prop where
  same : SameMsg o.desc d
  bufOff : d.bufOff = off
  remaining : d.remaining = o.desc.len - off
  here : off < o.desc.len ∨ o.desc.len = 0 ∧ off = 0 ∧ d.transmitted = false

section

variable {o : Outgoing} {off : Nat} {d : TxDesc}

section

variable (h : o.SendingAt off d)
include h

theorem Outgoing.SendingAt.le : off ≤ o.desc.len := by
  have := h.here
  omega

theorem Outgoing.SendingAt.not_allSent : d.allSent = false := by
  unfold TxDesc.allSent
  rcases h.here with hlt | ⟨-, -, ht⟩
  · have : d.remaining ≠ 0 := by rw [h.remaining]; omega
    simp [this]
  · simp [ht]

theorem Outgoing.SendingAt.som : d.som = decide (off = 0) := by
  unfold TxDesc.som
  rw [h.remaining, h.same.len, Bool.beq_eq_decide_eq]
  congr 1
  have := h.here
  rw [eq_iff_iff]
  omega

theorem Outgoing.SendingAt.payload {alloc : Bool} {bytes : List Byte}
    (hb : txPayload o.mrs o.mem alloc d (min d.remaining o.cfg.maxPayloadLen) = some bytes) :
    bytes = part o.data off (min d.remaining o.cfg.maxPayloadLen) := by
  have hsrc := o.resolves
  have hlen := o.holds
  have hrem := h.remaining
  have hle := h.le
  generalize hn : min d.remaining o.cfg.maxPayloadLen = n at hb
  have hpart : part o.data off n = ((o.src.drop off).take n).map o.mem := by
    rw [part, Outgoing.data, ← map_drop, ← map_take, drop_take, take_take, Nat.min_eq_left (by omega)]
  rw [hpart]
  unfold txPayload at hb
  unfold TxDesc.source at hsrc
  rw [h.same.kind, h.same.buf, h.bufOff] at hb
  cases hk : o.desc.kind with
  | seg segs =>
    simp only [hk] at hsrc hb
    rw [gatherSegToFlat_eq o.mem hsrc] at hb
    split at hb
    · exact (Option.some.inj hb).symm
    · cases hb
  | iov iov =>
    simp only [hk, Option.some.injEq] at hsrc hb
    rw [gatherIovToBuffer_eq o.mem iov (by rw [hsrc]; omega), hsrc] at hb
    split at hb
    · exact (Option.some.inj hb).symm
    · cases hb
  | contig | mr =>
    simp only [hk, Option.some.injEq] at hsrc hb
    rw [← hb, ← hsrc, drop_run, take_run, Nat.min_eq_left (by omega)]

theorem Outgoing.SendingAt.carries {bytes : List Byte}
    (hb : bytes = part o.data off (min d.remaining o.cfg.maxPayloadLen)) :
    (o.msg w).Carries off (w.arrive o.desc.pdsMode (d.nextPkt o.cfg bytes)) := by
  have hle := h.le
  have hrem := h.remaining
  have hsame := h.same
  have hmtu := o.mtu_lt
  have hlt := o.len_lt
  have hop : d.op = o.op.txOp := hsame.op.trans o.hasOp
  have hnc : d.cancelPending = false := hsame.cancelPending.trans o.notCancelled
  have hpart : (o.msg w).partLen off = min d.remaining o.cfg.maxPayloadLen := by
    rw [Msg.partLen, tileLen, o.msg_len, hrem, Nat.min_comm]
    rfl
  have hlen : bytes.length = (o.msg w).partLen off := by
    rw [hb, length_part (by rw [o.length_data]; omega), hpart]
  have hpkt : d.nextPkt o.cfg bytes = ⟨buildSesHdr o.cfg d bytes.length, bytes⟩ := by
    have hno : d.op.noPayload = false := by rw [hop]; cases o.op <;> rfl
    simp [TxDesc.nextPkt, hno]
  have hword : d.som = false → d.hdrPayloadLen o.cfg bytes.length = (o.msg w).partLen off := by
    intro hs
    have hr : (d.op == .read) = false := by rw [hop]; cases o.op <;> rfl
    simp [TxDesc.hdrPayloadLen, hr, hlen]
  have hpay : (w.arrive o.desc.pdsMode ⟨buildSesHdr o.cfg d bytes.length, bytes⟩).pktPayloadLen
      = (o.msg w).partLen off := by
    rw [w.arrive_pktPayloadLen _ (by simp only; omega)]
    exact hlen
  have himm : d.hdrData = (d.som && o.desc.imm.isSome) := by
    unfold TxDesc.hdrData TxDesc.imm
    rw [← hsame.immValid, ← hsame.op, Bool.and_assoc]
    split <;> simp_all
  rw [hpkt]
  refine
    { le := by rw [o.msg_len]; exact hle
      op := ?_, pds := rfl, som := h.som, ie := rfl, hd := himm, imm := ?_, key := ?_, gen := ?_
      jobId := ?_, matchBits := ?_, initiator := rfl, reqLen := ?_, start := ?_, msgOff := ?_
      wordLen := ?_, pktPayloadLen := hpay, bytes := ?_ }
  · show o.op.HasOpcode (buildSesHdr o.cfg d bytes.length).opcode
    simp only [buildSesHdr, hnc, Bool.false_eq_true, if_false, TxDesc.opcode, hop]
    cases o.op with
    | send =>
      by_cases hd : d.dsend = true
      · exact Or.inr (if_pos hd)
      · exact Or.inl (if_neg hd)
    | taggedSend =>
      by_cases hd : d.dsend = true
      · exact Or.inr (if_pos hd)
      · exact Or.inl (if_neg hd)
    | write => rfl
  · intro hs v hv
    have hs : d.som = true := hs
    have hv : o.desc.imm = some v := hv
    have hdata : d.hdrData = true := by rw [himm, hs, hv]; rfl
    simp only [buildSesHdr, hnc, Bool.false_eq_true, if_false, hs, if_true, hdata]
    unfold TxDesc.imm at hv
    split at hv
    · rw [hsame.tagOrImm]
      exact Option.some.inj hv
    · cases hv
  · show RxMsgKey.mk w.src w.spdcid d.msgId = ⟨w.src, w.spdcid, o.desc.msgId⟩
    rw [hsame.msgId]
  · show (buildSesHdr o.cfg d bytes.length).gen = (o.ri &&& 0xff000000) >>> 24
    simp only [buildSesHdr, Outgoing.ri, hsame.op, hsame.jobId]
  · show (buildSesHdr o.cfg d bytes.length).jobId = o.ri &&& 0x00ffffff
    simp only [buildSesHdr, Outgoing.ri, hsame.op, hsame.jobId]
  · show d.matchBits = o.desc.matchBits
    simp only [TxDesc.matchBits, hsame.op, hsame.tagOrImm, hsame.remoteKey]
  · show (BitVec.ofNat 32 d.len).toNat = (o.msg w).len
    rw [hsame.len, o.msg_len, BitVec.toNat_ofNat]
    exact Nat.mod_eq_of_lt hlt
  · intro hw
    have hwr : o.op = .write := by simpa [Msg.write, Outgoing.msg] using hw
    have hs : d.op.isSend = false := by rw [hop, hwr]; rfl
    simp only [buildSesHdr, hnc, Bool.false_and, Bool.false_eq_true, if_false, TxDesc.hdrBufOff, hs]
    exact hsame.remoteStartOff
  · intro hs
    have hs : d.som = false := hs
    simp only [buildSesHdr, hnc, Bool.false_eq_true, if_false, hs, h.bufOff]
    exact payloadLenMsgOff_off _ (by omega)
  · intro hs
    have hs : d.som = false := hs
    simp only [buildSesHdr, hnc, Bool.false_eq_true, if_false, hs, hword hs]
    exact payloadLenMsgOff_len _ (by omega)
  · rw [← hlen]
    exact (w.arrive_read o.desc.pdsMode ⟨buildSesHdr o.cfg d bytes.length, bytes⟩).trans
      (by rw [hlen, hpart]; exact hb)

end

theorem SameMsg.trans {a b c : TxDesc} (h : SameMsg a b) (h' : SameMsg b c) : SameMsg a c :=
  ⟨h'.op.trans h.op, h'.kind.trans h.kind, h'.buf.trans h.buf, h'.len.trans h.len,
    h'.immValid.trans h.immValid, h'.tagOrImm.trans h.tagOrImm, h'.remoteKey.trans h.remoteKey,
    h'.remoteStartOff.trans h.remoteStartOff, h'.jobId.trans h.jobId, h'.msgId.trans h.msgId,
    h'.pdsMode.trans h.pdsMode, h'.cancelPending.trans h.cancelPending⟩

def Outgoing.Sends (o : Outgoing) (w : Wire) (offs : List Nat) (pkts : List TxPkt) : Prop :=
  List.Forall₂ (fun off k => (o.msg w).Carries off (w.arrive o.desc.pdsMode k)) offs pkts

/-- Where the offsets sent from `off` on leave the descriptor: all of the message has been
sent, or what is left to send completes the cut. -/
def Outgoing.Reaches (o : Outgoing) (off : Nat) (offs : List Nat) (d : TxDesc) : Prop :=
  (d.allSent = true ∧ Tiles o.cfg.maxPayloadLen o.desc.len off offs) ∨
    ∃ off', o.SendingAt off' d ∧ ∀ rest, Tiles o.cfg.maxPayloadLen o.desc.len off' rest →
      Tiles o.cfg.maxPayloadLen o.desc.len off (offs ++ rest)

theorem Outgoing.SendingAt.reaches (h : o.SendingAt off d) : o.Reaches off [] d :=
  Or.inr ⟨off, h, fun _ hr => hr⟩

theorem Outgoing.SendingAt.congr {d' : TxDesc} (h : o.SendingAt off d) (hs : SameMsg d d')
    (h1 : d'.bufOff = d.bufOff) (h2 : d'.remaining = d.remaining)
    (h3 : d'.transmitted = d.transmitted) : o.SendingAt off d' :=
  ⟨h.same.trans hs, h1.trans h.bufOff, h2.trans h.remaining, by rw [h3]; exact h.here⟩

theorem Outgoing.SendingAt.setErr (h : o.SendingAt off d) (err : Nat) (state : TxState) :
    o.SendingAt off (d.setErr err state) :=
  h.congr ⟨rfl, rfl, rfl, rfl, rfl, rfl, rfl, rfl, rfl, rfl, rfl, rfl⟩ rfl rfl rfl

variable (cfg : TxCfg) (mrs : Nat → Region)

theorem txMsgLoop_allSent (m : Mem) (ts : List TxTry)
    (h : d.allSent = true) : txMsgLoop cfg mrs m ts d = (d, [], .ok) := by
  cases ts <;> simp [txMsgLoop, h]

theorem Outgoing.SendingAt.sent (h : o.SendingAt off d) :
    let n := min d.remaining o.cfg.maxPayloadLen
    ((d.sent n).allSent = true ∧ o.desc.len - off ≤ o.cfg.maxPayloadLen) ∨
      (o.SendingAt (off + o.cfg.maxPayloadLen) (d.sent n) ∧ o.cfg.maxPayloadLen < o.desc.len - off) := by
  intro n
  have hrem := h.remaining
  by_cases hlast : o.desc.len - off ≤ o.cfg.maxPayloadLen
  · left
    have h0 : d.remaining - n = 0 := by omega
    exact ⟨by simp [TxDesc.allSent, TxDesc.sent, h0], hlast⟩
  right
  have hn : n = o.cfg.maxPayloadLen := by omega
  refine ⟨⟨h.same.trans ⟨rfl, rfl, rfl, rfl, rfl, rfl, rfl, rfl, rfl, rfl, rfl, rfl⟩, ?_, ?_, ?_⟩, by omega⟩
  · show d.bufOff + n = off + o.cfg.maxPayloadLen
    rw [h.bufOff, hn]
  · show d.remaining - n = o.desc.len - (off + o.cfg.maxPayloadLen)
    omega
  · left
    omega

theorem txMsgLoop_sends (ts : List TxTry) (h : o.SendingAt off d) :
    ∃ offs, o.Sends w offs (txMsgLoop o.cfg o.mrs o.mem ts d).2.1 ∧
      o.Reaches off offs (txMsgLoop o.cfg o.mrs o.mem ts d).1 := by
  induction ts generalizing off d with
  | nil => exact ⟨[], .nil, h.reaches⟩
  | cons t ts ih =>
    simp only [txMsgLoop, h.not_allSent, Bool.false_eq_true, if_false]
    cases hb : txPayload o.mrs o.mem t.alloc d (min d.remaining o.cfg.maxPayloadLen) with
    | none => exact ⟨[], .nil, (h.setErr fiEnomem .errComplete).reaches⟩
    | some bytes =>
      have hcarry := h.carries w (h.payload hb)
      have hcnt : o.SendingAt off { d with pktCnt := d.pktCnt + 1 } :=
        h.congr ⟨rfl, rfl, rfl, rfl, rfl, rfl, rfl, rfl, rfl, rfl, rfl, rfl⟩ rfl rfl rfl
      cases t.rc with
      | eagain => exact ⟨[], .nil, hcnt.reaches⟩
      | fail err => exact ⟨[], .nil, (hcnt.setErr err .errComplete).reaches⟩
      | ok =>
        rcases hcnt.sent with ⟨hall, hlast⟩ | ⟨hnext, hmore⟩
        · rw [txMsgLoop_allSent _ _ _ _ hall]
          exact ⟨[off], .cons hcarry .nil, Or.inl ⟨hall, .last hlast⟩⟩
        obtain ⟨offs, hs, hr⟩ := ih hnext
        refine ⟨off :: offs, .cons hcarry hs, ?_⟩
        rcases hr with ⟨hd, ht⟩ | ⟨off', hd, ht⟩
        · exact Or.inl ⟨hd, .more hmore ht⟩
        · exact Or.inr ⟨off', hd, fun rest hrest => .more hmore (ht rest hrest)⟩

theorem dsendInit_same (token : Option (BitVec 16)) (d : TxDesc) :
    SameMsg d (dsendInit cfg token d) ∧ (dsendInit cfg token d).bufOff = d.bufOff ∧
      (dsendInit cfg token d).remaining = d.remaining ∧
      (dsendInit cfg token d).transmitted = d.transmitted := by
  unfold dsendInit
  generalize (if d.op = .send then cfg.msgRndzSize else cfg.tagRndzSize) = limit
  split
  · exact ⟨⟨rfl, rfl, rfl, rfl, rfl, rfl, rfl, rfl, rfl, rfl, rfl, rfl⟩, rfl, rfl, rfl⟩
  split
  · exact ⟨⟨rfl, rfl, rfl, rfl, rfl, rfl, rfl, rfl, rfl, rfl, rfl, rfl⟩, rfl, rfl, rfl⟩
  · cases token <;>
      exact ⟨⟨rfl, rfl, rfl, rfl, rfl, rfl, rfl, rfl, rfl, rfl, rfl, rfl⟩, rfl, rfl, rfl⟩

theorem txMsg_sends (c : TxCall) (h : o.SendingAt off d) :
    ∃ offs, o.Sends w offs (txMsg o.cfg o.mrs o.mem c d).2.1 ∧
      o.Reaches off offs (txMsg o.cfg o.mrs o.mem c d).1 := by
  unfold txMsg
  obtain ⟨hs, h1, h2, h3⟩ := dsendInit_same o.cfg c.token d
  split
  · exact txMsgLoop_sends w c.tries (h.congr hs h1 h2 h3)
  · exact txMsgLoop_sends w c.tries h

theorem txMsg_allSent (m : Mem) (c : TxCall) (h : d.allSent = true) :
    (txMsg cfg mrs m c d).2.1 = [] ∧ (txMsg cfg mrs m c d).1.allSent = true := by
  obtain ⟨-, -, h2, h3⟩ := dsendInit_same cfg c.token d
  have hd : (if d.som then dsendInit cfg c.token d else d).allSent = true := by
    split
    · rw [TxDesc.allSent, h2, h3]
      exact h
    · exact h
  rw [txMsg, txMsgLoop_allSent _ _ _ _ hd]
  exact ⟨rfl, hd⟩

theorem txCalls_allSent (m : Mem) (calls : List TxCall)
    (h : d.allSent = true) :
    (txCalls cfg mrs m calls d).2 = [] ∧ (txCalls cfg mrs m calls d).1.allSent = true := by
  induction calls generalizing d with
  | nil => exact ⟨rfl, h⟩
  | cons c calls ih =>
    obtain ⟨h1, h2⟩ := txMsg_allSent cfg mrs m c h
    obtain ⟨h3, h4⟩ := ih h2
    exact ⟨by simp only [txCalls, h1, h3, append_nil], h4⟩

theorem txCalls_sends (calls : List TxCall) (h : o.SendingAt off d) :
    ∃ offs, o.Sends w offs (txCalls o.cfg o.mrs o.mem calls d).2 ∧
      o.Reaches off offs (txCalls o.cfg o.mrs o.mem calls d).1 := by
  induction calls generalizing off d with
  | nil => exact ⟨[], .nil, h.reaches⟩
  | cons c calls ih =>
    obtain ⟨offs, hs, hr⟩ := txMsg_sends w c h
    simp only [txCalls]
    rcases hr with ⟨hd, ht⟩ | ⟨off', hd, ht⟩
    · obtain ⟨h1, h2⟩ := txCalls_allSent o.cfg o.mrs o.mem calls hd
      rw [h1, append_nil]
      exact ⟨offs, hs, Or.inl ⟨h2, ht⟩⟩
    obtain ⟨offs', hs', hr'⟩ := ih hd
    refine ⟨offs ++ offs', rel_append hs hs', ?_⟩
    rcases hr' with ⟨hd', ht'⟩ | ⟨off'', hd', ht'⟩
    · exact Or.inl ⟨hd', ht offs' ht'⟩
    refine Or.inr ⟨off'', hd', fun rest hrest => ?_⟩
    rw [append_assoc]
    exact ht _ (ht' rest hrest)

theorem Outgoing.sent_whole (o : Outgoing) (w : Wire) (calls : List TxCall)
    (h : (txCalls o.cfg o.mrs o.mem calls o.desc).1.allSent = true) :
    ∃ offs, Tiles o.cfg.maxPayloadLen o.desc.len 0 offs ∧
      o.Sends w offs (txCalls o.cfg o.mrs o.mem calls o.desc).2 := by
  have h0 : o.SendingAt 0 o.desc := by
    refine ⟨⟨rfl, rfl, rfl, rfl, rfl, rfl, rfl, rfl, rfl, rfl, rfl, rfl⟩, o.start, o.whole, ?_⟩
    rcases Nat.eq_zero_or_pos o.desc.len with hz | hpos
    · exact Or.inr ⟨hz, rfl, o.untouched⟩
    · exact Or.inl hpos
  obtain ⟨offs, hs, ⟨-, ht⟩ | ⟨off', hd, -⟩⟩ := txCalls_sends w calls h0
  · exact ⟨offs, ht, hs⟩
  · rw [hd.not_allSent] at h
    cases h

end

/-! ## Delivery -/

/-- The endpoint can take the message, at offset `base` of the buffer with these addresses:
through a descriptor, or packet by packet into a region for a RUDI write. -/
inductive Takes (M : Msg) (as : List Nat) (s : RxEp) : Nat → Prop
  | desc {id : DescId} {d : RxDesc} :
      (M.write = true → M.pds ≠ .rudi) → Ready M as id d s → Takes M as s M.base
  | rudi {base : Nat} {i : MrIdx} :
      M.write = true → M.pds = .rudi → RudiReady M as base i s → Takes M as s base

/-- Whether the message posts a completion: a send always does; a write does when it has
immediate data and the packet that carries it is the first to arrive. -/
def Msg.postsFor (M : Msg) (xs : Arrivals) : Bool :=
  !M.write || (M.pds != .rudi && M.imm.isSome && xs.head?.any (·.2.som))

/-- The message has arrived: its bytes are in place and nothing else has changed; the one
completion, if it posts any, comes with the last packet and has its length; its descriptor
is in progress up to the last packet and not after it. -/
structure Delivered (M : Msg) (as : List Nat) (base : Nat) (s : RxEp) (xs : Arrivals) : Prop where
  stored : M.Stored as base s.mem (s.deliver xs).mem
  notBefore : ∀ k, k < xs.length → (s.deliver (xs.take k)).cq = s.cq
  one : M.postsFor xs = true →
    ∃ e : RxCqEntry, e.err = none ∧ e.len = M.len ∧ (s.deliver xs).cq = s.cq ++ [e]
  quiet : M.postsFor xs = false → (s.deliver xs).cq = s.cq
  inProgress : M.pds ≠ .rudi → ∀ k, 0 < k → k < xs.length →
    (rxMsgHashLookup (s.deliver (xs.take k)) M.key).isSome = true
  gone : M.pds ≠ .rudi → rxMsgHashLookup (s.deliver xs) M.key = none

section

variable {M : Msg} {as : List Nat} {s : RxEp} {xs : Arrivals}

theorem Outgoing.arrival_offsets {o : Outgoing} {w : Wire} {calls : List TxCall}
    (h : (txCalls o.cfg o.mrs o.mem calls o.desc).1.allSent = true) (horder : (xs.map Prod.snd).Perm
      ((txCalls o.cfg o.mrs o.mem calls o.desc).2.map (w.arrive o.desc.pdsMode))) :
    ∃ offs, (o.msg w).Offsets offs ∧ (o.msg w).CarriedBy offs xs := by
  obtain ⟨tiles, ht, hs⟩ := o.sent_whole w calls h
  have hs' : Forall₂ (fun p off => (o.msg w).Carries off p)
      ((txCalls o.cfg o.mrs o.mem calls o.desc).2.map (w.arrive o.desc.pdsMode)) tiles :=
    forall₂_map_left_iff.2 hs.flip
  obtain ⟨offs, hc, hperm⟩ := perm_comp_forall₂ horder hs'
  refine ⟨offs, ⟨tiles, ?_, hperm⟩, (forall₂_map_left_iff.1 hc).flip⟩
  rw [o.msg_len]
  exact ht

theorem immAt_isSome_eq {off : Nat} {offs : List Nat} (hc : M.CarriedBy (off :: offs) xs) :
    (M.immAt off).isSome = (M.imm.isSome && xs.head?.any (·.2.som)) := by
  cases hc with
  | cons hp hc =>
    rw [head?_cons, Option.any_some, hp.som, Msg.immAt]
    by_cases h0 : off = 0 <;> simp [h0]

theorem delivered_of_takes {offs : List Nat} {base : Nat} (hn : as.Nodup) (ht : Takes M as s base)
    (ho : M.Offsets offs) (hc : M.CarriedBy offs xs) : Delivered M as base s xs := by
  obtain ⟨off, rest, rfl⟩ := exists_cons_of_ne_nil ho.ne_nil
  cases ht with
  | @desc id d hrud hr =>
    obtain ⟨hmem, hdone, hbefore⟩ := deliver_ready hr hrud hc ho
    have hlen := hr.fits.len
    have hfits := hr.fits.fits
    have hcompl : M.completes (M.immAt off) = M.postsFor xs := by
      rw [Msg.completes, Msg.postsFor, immAt_isSome_eq hc]
      cases hw : M.write with
      | false => rfl
      | true =>
        have hp : (M.pds != .rudi) = true := by simpa using hrud hw
        simp [hp]
    refine ⟨by rw [hmem]; exact ho.stored hn (by omega) s.mem, fun k hk => (hbefore k hk).1,
      fun h => ?_, fun h => hdone.quiet (hcompl.trans h), fun _ k h0 hk => ?_, fun _ => hdone.gone⟩
    · obtain ⟨e, he, hcq⟩ := hdone.entry (hcompl.trans h)
      exact ⟨e, he.ok, he.len, hcq⟩
    · rw [(hbefore k hk).2 h0]
      rfl
  | @rudi _ i hw hrudi hr =>
    have hrun := deliver_rudi hr hw hrudi hc
    have hfits := hr.fits
    have hlen := MrBuf.length_addrs hr.addrs
    have hposts : M.postsFor xs = false := by simp [Msg.postsFor, hw, hrudi]
    refine ⟨?_, fun k hk => ?_, fun h => ?_, fun _ => by rw [hrun], fun h => absurd hrudi h,
      fun h => absurd hrudi h⟩
    · rw [hrun]
      exact ho.stored hn (by omega) s.mem
    · rw [deliver_rudi hr hw hrudi (forall₂_take k hc)]
    · rw [hposts] at h
      cases h

end

def Outgoing.inOrder (o : Outgoing) (w : Wire) (calls : List TxCall) : Arrivals :=
  (txCalls o.cfg o.mrs o.mem calls o.desc).2.map fun k => (quietEnv, w.arrive o.desc.pdsMode k)

theorem Outgoing.inOrder_perm (o : Outgoing) (w : Wire) (calls : List TxCall) :
    ((o.inOrder w calls).map Prod.snd).Perm
      ((txCalls o.cfg o.mrs o.mem calls o.desc).2.map (w.arrive o.desc.pdsMode)) := by
  rw [Outgoing.inOrder, map_map]
  exact Perm.refl _

theorem Outgoing.inOrder_reverse_perm (o : Outgoing) (w : Wire) (calls : List TxCall) :
    ((o.inOrder w calls).reverse.map Prod.snd).Perm
      ((txCalls o.cfg o.mrs o.mem calls o.desc).2.map (w.arrive o.desc.pdsMode)) := by
  rw [map_reverse]
  exact (reverse_perm _).trans (o.inOrder_perm w calls)

def fourBytes : TxCfg :=
  { maxPayloadLen := 4, initiator := 0, untaggedGen := 0, taggedGen := 0, rud := true,
    msgRndzSize := 100, tagRndzSize := 100, syncCnt := 0 }

def tenBytes (op : MsgOp) (imm : Option (BitVec 64)) : Outgoing :=
  { cfg := fourBytes, mrs := fun _ => MrDesc.zero.region,
    mem := fun a => BitVec.ofNat 8 a,
    desc := { TxDesc.zero with
      op := op.txOp, buf := 500, len := 10, remaining := 10, remoteStartOff := 8, remoteKey := 5,
      immValid := imm.isSome, tagOrImm := imm.getD 0 },
    op, src := run 500 10, hasOp := rfl, start := rfl, whole := rfl, untouched := rfl,
    notCancelled := rfl, resolves := rfl,
    holds := show 10 ≤ (run 500 10).length by decide, mtu_pos := by decide, mtu_lt := by decide,
    len_lt := show 10 < 2 ^ 32 by decide }

def threeTaken : List TxCall := [⟨none, [⟨true, .ok⟩, ⟨true, .eagain⟩]⟩, ⟨none, [⟨true, .ok⟩, ⟨true, .ok⟩]⟩]

def aWire : Wire := ⟨1, 1, 4, fun _ => 0⟩

/-- An endpoint with a region of 64 bytes from address 1000 on and a receive of 16 bytes at
address 2000. -/
def twoBuffers : RxEp :=
  (RxEp.init 0 eightRegions (fun _ => 0) 4 .data 4 false 10 10).run
    (oneRegionOps ++ [.recv ⟨none, .inl [⟨2000, 16⟩], jobIdAny, 3⟩])

theorem twoBuffers_ready_send :
    Ready ((tenBytes .send none).msg aWire) (run 2000 16) 0 (twoBuffers.desc 0) twoBuffers :=
  { accepted := ⟨fun _ => rfl, rfl, fun _ => by decide⟩, idle := rfl
    gen := fun _ => ⟨rfl, by decide +kernel⟩, buffer := rfl
    fits := ⟨rfl, by decide +kernel, by decide +kernel, by decide +kernel⟩
    noErr := rfl, noSync := rfl, noImm := rfl, postCq := rfl, job := fun _ => Or.inl rfl
    region := fun h => by cases h }

/-- Immediate data reaches the completion queue when the packet that carries it is the first
of its message to arrive. -/
theorem immediate_delivered (o : Outgoing) (w : Wire) (calls : List TxCall)
    (hsent : (txCalls o.cfg o.mrs o.mem calls o.desc).1.allSent = true) (v : BitVec 64)
    (himm : o.desc.imm = some v) (hrud : o.desc.pdsMode = .rud) (s : RxEp) (as : List Nat)
    (id : DescId) (d : RxDesc) (hready : Ready (o.msg w) as id d s) (xs : Arrivals)
    (horder : (xs.map Prod.snd).Perm
      ((txCalls o.cfg o.mrs o.mem calls o.desc).2.map (w.arrive o.desc.pdsMode)))
    (hfirst : xs.head?.any (·.2.som) = true) :
    (∀ k, k < xs.length → (s.deliver (xs.take k)).cq = s.cq) ∧
      ∃ e : RxCqEntry, (s.deliver xs).cq = s.cq ++ [e] ∧ e.err = none ∧ e.len = o.desc.len ∧
        e.flags.remoteCqData = true ∧ e.data = v := by
  obtain ⟨offs, ho, hc⟩ := Outgoing.arrival_offsets hsent horder
  obtain ⟨off, rest, rfl⟩ := exists_cons_of_ne_nil ho.ne_nil
  have hpds : (o.msg w).write = true → (o.msg w).pds ≠ .rudi := by
    intro _ h
    rw [show (o.msg w).pds = o.desc.pdsMode from rfl, hrud] at h
    cases h
  obtain ⟨-, hdone, hbefore⟩ := deliver_ready hready hpds hc ho
  -- the descriptor has been set up by the packet with the immediate data
  have hgot : (o.msg w).immAt off = some v := by
    have hsome := immAt_isSome_eq hc
    rw [hfirst, Bool.and_true, show (o.msg w).imm = o.desc.imm from rfl, himm] at hsome
    unfold Msg.immAt at hsome ⊢
    split at hsome
    · rw [if_pos ‹_›]
      exact himm
    · cases hsome
  obtain ⟨e, he, hcq⟩ := hdone.entry (by rw [Msg.completes, hgot]; simp)
  obtain ⟨h1, h2⟩ := he.imm v hgot
  exact ⟨fun k hk => (hbefore k hk).1, e, hcq, he.ok, he.len.trans (o.msg_len w), h1, h2⟩

/-- With the packets in reverse order a write with immediate data posts nothing, and a send
completes without the data. -/
theorem immediate_lost :
    let lost (op : MsgOp) := ((tenBytes op (some 7)).inOrder aWire threeTaken).reverse
    (lost .write).length = 3 ∧ (twoBuffers.deliver (lost .write)).cq = [] ∧
      (run 1008 10).map (twoBuffers.deliver (lost .write)).mem = (tenBytes .write (some 7)).data ∧
      (twoBuffers.deliver (lost .send)).cq.map (fun e => (e.len, e.flags.remoteCqData, e.data)) =
        [(10, false, 0)] := by
  decide +kernel

theorem twoBuffers_ready_write :
    Ready ((tenBytes .write (some 7)).msg aWire) (run 1000 64) 1
      (({ RxDesc.zero with write := true } : RxDesc).target 0 (twoBuffers.dom.mr 0)) twoBuffers :=
  { accepted := ⟨fun _ => rfl, rfl, fun _ => by decide⟩, idle := rfl
    gen := fun _ => ⟨rfl, by decide +kernel⟩, buffer := rfl
    fits := ⟨rfl, by decide +kernel, by decide +kernel, by decide +kernel⟩
    noErr := rfl, noSync := rfl, noImm := rfl, postCq := rfl, job := fun h => by cases h
    region := fun _ i hi => by cases hi; exact ⟨rfl, by decide +kernel⟩ }

/-- In the order they were sent, the packets of the write post its immediate data. -/
theorem immediate_delivered_write :
    let xs := (tenBytes .write (some 7)).inOrder aWire threeTaken
    ∃ e : RxCqEntry, (twoBuffers.deliver xs).cq = [e] ∧ e.flags.remoteCqData = true ∧ e.data = 7 := by
  obtain ⟨-, e, hcq, -, -, h1, h2⟩ := immediate_delivered (tenBytes .write (some 7)) aWire threeTaken
    (by decide +kernel) 7 rfl rfl twoBuffers _ _ _ twoBuffers_ready_write _
    (Outgoing.inOrder_perm _ _ _) (by decide +kernel)
  exact ⟨e, hcq, h1, h2⟩

end Uet.Ses
