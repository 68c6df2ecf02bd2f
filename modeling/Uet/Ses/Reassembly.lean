import Uet.Ses.RxConfine

/-!
# Reassembly

The packets of one message at the receiver, in any order. Which packets a message has is
said by what the receiver reads of them (`Msg.Carries`). The first packet to arrive, wherever
it stands in the message, takes the buffer; from then on the descriptor is in progress
(`InProgress`) until the bytes that are left are those of the last packet.
-/

namespace Uet.Ses

open Flat List

inductive MsgOp where
  | send | taggedSend | write
  deriving DecidableEq, Repr

def MsgOp.HasOpcode : MsgOp → SesOpcode → Prop
  | .send, o => o = .send ∨ o = .deferSend
  | .taggedSend, o => o = .taggedSend ∨ o = .deferTsend
  | .write, o => o = .write

structure Msg where
  op : MsgOp
  pds : PdsReq
  key : RxMsgKey
  gen : BitVec 32
  jobId : JobId
  matchBits : BitVec 64
  initiator : BitVec 32
  start : BitVec 64
  imm : Option (BitVec 64)
  mtu : Nat
  data : List Byte
  mtu_pos : 0 < mtu
  mtu_lt : mtu < 2 ^ 14
  len_lt : data.length < 2 ^ 32

namespace Msg

variable (M : Msg)

def len : Nat := M.data.length

def write : Bool := M.op == .write

def tagged : Bool := M.op == .taggedSend

def base : Nat := if M.write then M.start.toNat else 0

/-- The number of bytes in the packet from `off` on. -/
def partLen (off : Nat) : Nat := tileLen M.mtu M.len off

theorem partLen_le (off : Nat) : M.partLen off ≤ M.len - off := Nat.min_le_right _ _

/-- The packet is the one from `off` on. -/
structure Carries (off : Nat) (p : SesReq) : Prop where
  le : off ≤ M.len
  op : M.op.HasOpcode p.opcode
  pds : p.pds = M.pds
  som : p.som = decide (off = 0)
  ie : p.ie = false
  hd : p.hd = (p.som && M.imm.isSome)
  imm : p.som = true → ∀ v, M.imm = some v → p.word = v
  key : p.msgKey = M.key
  gen : p.gen = M.gen
  jobId : p.jobId = M.jobId
  matchBits : p.matchBits = M.matchBits
  initiator : p.initiator = M.initiator
  reqLen : p.reqLen.toNat = M.len
  start : M.write = true → p.bufOff = M.start
  msgOff : p.som = false → p.msgOff.toNat = off
  wordLen : p.som = false → p.wordLen = M.partLen off
  pktPayloadLen : p.pktPayloadLen = M.partLen off
  bytes : p.read (M.partLen off) = part M.data off (M.partLen off)

end Msg

namespace Msg.Carries

variable {M : Msg} {off : Nat} {p : SesReq} (h : M.Carries off p)

include h

theorem sesPayloadLen : p.sesPayloadLen = M.partLen off := by
  have hread : p.opcode ≠ .read := by
    intro ho
    have hop := h.op
    rw [ho] at hop
    cases hm : M.op <;> rw [hm] at hop <;> simp [MsgOp.HasOpcode] at hop
  rw [SesReq.sesPayloadLen, SesReq.payloadLen]
  split
  · have := M.partLen_le off
    simp only [h.pktPayloadLen, h.reqLen]
    split <;> omega
  · rename_i hsom
    exact h.wordLen (by simpa using hsom)

theorem valid {s : RxEp} (hs : s.maxPayloadLen = M.mtu) : invalidPayloadLen s p = false := by
  rw [invalidPayloadLen, h.sesPayloadLen, h.pktPayloadLen, h.reqLen, hs, h.som]
  by_cases h0 : off = 0
  · have hmin : M.partLen 0 = M.len ∨ M.partLen 0 = M.mtu := by
      simp only [Msg.partLen, tileLen]
      omega
    subst h0
    rcases hmin with hmin | hmin <;> simp [hmin]
  · simp [h0]

theorem rxBufOff (hfit : M.base + M.len < 2 ^ 64) : (p.rxBufOff M.write).toNat = M.base + off := by
  have hle := h.le
  have hstart : (if M.write = true then p.bufOff else 0).toNat = M.base := by
    rw [Msg.base]
    split
    · rename_i hw
      rw [h.start hw]
    · rfl
  rw [SesReq.rxBufOff]
  split
  · rename_i hsom
    rw [h.som, decide_eq_true_eq] at hsom
    rw [hstart, hsom, Nat.add_zero]
  rename_i hsom
  rw [BitVec.toNat_add, hstart, h.msgOff (by simpa using hsom)]
  exact Nat.mod_eq_of_lt (by omega)

end Msg.Carries

/-! ## What setting up a descriptor leaves alone -/

section

variable (s : RxEp) (id : DescId) (now : Nat) (p : SesReq)

@[simp] theorem rxMsgStart_cqFormat : (rxMsgStart s now p id).cqFormat = s.cqFormat := rfl

theorem RxEp.setDesc_id : (s.setDesc id fun d => d) = s := by
  simp [RxEp.setDesc]

end

/-! ## A message in progress -/

/-- The endpoint takes the message: a queue for what completes, the same payload length,
room for immediate data in the format. -/
structure Msg.Accepted (M : Msg) (s : RxEp) : Prop where
  cq : M.write = false ∨ M.imm.isSome = true → s.cqDown = false
  mtu : s.maxPayloadLen = M.mtu
  format : M.imm.isSome = true → CqFormat.data.size ≤ s.cqFormat.size

structure Msg.Fits (M : Msg) (as : List Nat) (s : RxEp) (d : RxDesc) : Prop where
  addrs : d.addrs s = some as
  len : d.len ≤ as.length
  sized : d.len < 2 ^ 64
  fits : M.base + M.len ≤ d.len

/-- The descriptor of the message: `left` bytes to come, `got` the immediate data it has. -/
structure Msg.Holds (M : Msg) (got : Option (BitVec 64)) (left : Nat) (dom : Domain) (d : RxDesc) :
    Prop where
  noErr : d.sesRc = .ok
  noSync : d.sync = none
  remaining : d.remaining = left
  msgLen : d.msgLen = M.len
  inHash : d.inHash = true
  writeImm : d.writeImm = got.isSome
  immData : ∀ v, got = some v → d.immData = v
  postCq : d.postCq = (!M.write || got.isSome)
  region : M.write = true →
    d.write = true ∧ ∃ i, d.mr = some i ∧ (dom.mr i).fullKey = M.matchBits

structure InProgress (M : Msg) (as : List Nat) (got : Option (BitVec 64)) (left : Nat) (id : DescId)
    (s : RxEp) : Prop where
  accepted : M.Accepted s
  look : rxMsgHashLookup s M.key = some id
  only : ∀ j ∈ s.msgs, (s.desc j).msgKey = M.key → j = id
  fits : M.Fits as s (s.desc id)
  holds : M.Holds got left s.dom (s.desc id)

/-- The two endpoints differ in descriptor `id` and in what it is linked into. -/
structure Aside (id : DescId) (s s' : RxEp) : Prop where
  dom : s'.dom = s.dom
  mem : s'.mem = s.mem
  cq : s'.cq = s.cq
  msgs : s'.msgs = s.msgs
  cqDown : s'.cqDown = s.cqDown
  cqFormat : s'.cqFormat = s.cqFormat
  maxPayloadLen : s'.maxPayloadLen = s.maxPayloadLen
  others : ∀ j, j ≠ id → s'.desc j = s.desc j

theorem RxEp.setDesc_self (s : RxEp) (id : DescId) (f : RxDesc → RxDesc) :
    (s.setDesc id f).desc id = f (s.desc id) := by
  simp [RxEp.setDesc]

theorem RxEp.setDesc_of_ne (s : RxEp) {id j : DescId} (f : RxDesc → RxDesc) (h : j ≠ id) :
    (s.setDesc id f).desc j = s.desc j := by
  simp [RxEp.setDesc, h]

theorem key_setDesc (s : RxEp) (id : DescId) {f : RxDesc → RxDesc}
    (h : ∀ d, (f d).msgKey = d.msgKey) (j : DescId) :
    ((s.setDesc id f).desc j).msgKey = (s.desc j).msgKey := by
  by_cases hj : j = id
  · subst hj
    rw [RxEp.setDesc_self, h]
  · rw [RxEp.setDesc_of_ne _ _ hj]

theorem rxMsgHashLookup_congr {s s' : RxEp} (hk : ∀ j, (s'.desc j).msgKey = (s.desc j).msgKey)
    (hm : s'.msgs = s.msgs) (key : RxMsgKey) : rxMsgHashLookup s' key = rxMsgHashLookup s key := by
  unfold rxMsgHashLookup
  simp only [hk, hm]

theorem rxMsgHashLookup_eq_none {s : RxEp} {key : RxMsgKey}
    (h : ∀ j ∈ s.msgs, (s.desc j).msgKey ≠ key) : rxMsgHashLookup s key = none := by
  unfold rxMsgHashLookup
  simpa using h

section

variable {M : Msg} {as : List Nat} {got : Option (BitVec 64)} {left off : Nat} {id : DescId}
  {s s' : RxEp} {p : SesReq}

theorem Msg.Accepted.aside (h : M.Accepted s) (ha : Aside id s s') : M.Accepted s' :=
  ⟨fun hc => ha.cqDown.trans (h.cq hc), ha.maxPayloadLen.trans h.mtu,
    fun hi => by rw [ha.cqFormat]; exact h.format hi⟩

theorem addrs_congr {d d' : RxDesc} (hdom : s'.dom = s.dom) (hb : SameBuf d d') :
    d'.addrs s' = d.addrs s := by
  unfold RxDesc.addrs
  rw [hb.kind, hb.buf, hb.len, hb.mr, hdom]

theorem Msg.Fits.congr {d d' : RxDesc} (h : M.Fits as s d) (hdom : s'.dom = s.dom)
    (hb : SameBuf d d') : M.Fits as s' d' :=
  ⟨(addrs_congr hdom hb).trans h.addrs, by rw [hb.len]; exact h.len, by rw [hb.len]; exact h.sized,
    by rw [hb.len]; exact h.fits⟩

/-- The bytes of the packet from `off` on in the buffer. -/
def Msg.store (M : Msg) (as : List Nat) (m : Mem) (off : Nat) : Mem :=
  poke m (as.drop (M.base + off)) (part M.data off (M.partLen off))

theorem rxPlace_inProgress (hin : InProgress M as got left id s) (hp : M.Carries off p)
    (hleft : M.partLen off ≤ left) (now : Nat) :
    rxPlace s now p M.write id = (rxAccount { s with mem := M.store as s.mem off } p id, .ok) := by
  have hf := hin.fits
  have hfits := hf.fits
  have hsized := hf.sized
  have hle := hp.le
  have hpart := M.partLen_le off
  have hn := hp.sesPayloadLen
  have hoff := hp.rxBufOff (by omega)
  have hend : (p.rxBufOff M.write + BitVec.ofNat 64 (M.partLen off)).toNat
      = M.base + off + M.partLen off := by
    rw [BitVec.toNat_add, BitVec.toNat_ofNat, Nat.add_mod_mod, hoff]
    exact Nat.mod_eq_of_lt (by omega)
  have hcopy : rxScatter s p (s.desc id) (M.base + off)
      = (M.store as s.mem off, true) := by
    rw [rxScatter_eq hf.addrs hf.len (fun _ => hp.pktPayloadLen.trans hn.symm) (by omega), hn,
      hp.bytes, Msg.store]
  have hrem := hin.holds.remaining
  unfold rxPlace
  simp only [hn, hend, hoff, hrem, hp.ie, hcopy]
  rw [if_neg (by omega), if_neg (by omega)]
  rfl

theorem InProgress.withMem (h : InProgress M as got left id s) (m : Mem) :
    InProgress M as got left id { s with mem := m } :=
  ⟨⟨h.accepted.cq, h.accepted.mtu, h.accepted.format⟩, h.look, h.only, h.fits.congr rfl (.refl _), h.holds⟩

theorem inProgress_received (hin : InProgress M as got left id s) (hp : M.Carries off p)
    (hleft : M.partLen off < left) :
    InProgress M as got (left - M.partLen off) id (rxAccount s p id) ∧
      (rxAccount s p id).mem = s.mem ∧ (rxAccount s p id).cq = s.cq := by
  have hn := hp.sesPayloadLen
  have hh := hin.holds
  have hself := s.setDesc_self id (.received p)
  have hkey := key_setDesc s id (f := RxDesc.received p) fun _ => rfl
  have hstay : rxAccount s p id = s.setDesc id (.received p) := by
    unfold rxAccount
    simp only [hself]
    rw [if_neg (by simp only [RxDesc.received, hh.remaining, hn]; omega)]
  rw [hstay]
  refine ⟨⟨⟨hin.accepted.cq, hin.accepted.mtu, hin.accepted.format⟩, ?_, ?_, ?_, ?_⟩, rfl, rfl⟩
  · rw [rxMsgHashLookup_congr hkey rfl]
    exact hin.look
  · intro j hj hk
    exact hin.only j hj ((hkey j).symm.trans hk)
  · rw [hself]
    exact hin.fits.congr rfl ⟨rfl, rfl, rfl, rfl⟩
  · rw [hself]
    exact ⟨hh.noErr, hh.noSync, by simp only [RxDesc.received, hh.remaining, hn], hh.msgLen,
      hh.inHash, hh.writeImm, hh.immData, hh.postCq, hh.region⟩

/-- Whether a message that has the immediate data `got` posts a completion: a plain write
does not. -/
def Msg.completes (M : Msg) (got : Option (BitVec 64)) : Bool := !M.write || got.isSome

structure Msg.Entry (M : Msg) (got : Option (BitVec 64)) (e : RxCqEntry) : Prop where
  ok : e.err = none
  len : e.len = M.len
  imm : ∀ v, got = some v → e.flags.remoteCqData = true ∧ e.data = v

/-- The message is complete: its descriptor has left the table, with one completion if the
message posts any. -/
structure Completed (M : Msg) (got : Option (BitVec 64)) (s s' : RxEp) : Prop where
  gone : rxMsgHashLookup s' M.key = none
  entry : M.completes got = true → ∃ e, M.Entry got e ∧ s'.cq = s.cq ++ [e]
  quiet : M.completes got = false → s'.cq = s.cq

theorem msgs_rxDescRecycle (s : RxEp) {id : DescId} (avail : Bool) (h : (s.desc id).inHash = true) :
    (rxDescRecycle s id avail).msgs = s.msgs.filter (· ≠ id) ∧
      (rxDescRecycle s id avail).cq = s.cq ∧
      ∀ j, ((rxDescRecycle s id avail).desc j).msgKey = (s.desc j).msgKey := by
  have h1 : (rxDescActiveListRemove s id).msgs = s.msgs ∧ (rxDescActiveListRemove s id).cq = s.cq ∧
      ((rxDescActiveListRemove s id).desc id).inHash = true ∧
      ∀ j, ((rxDescActiveListRemove s id).desc j).msgKey = (s.desc j).msgKey := by
    unfold rxDescActiveListRemove
    split
    · refine ⟨rfl, rfl, by simpa [RxEp.setDesc] using h, fun j => ?_⟩
      by_cases hj : j = id <;> simp [RxEp.setDesc, hj]
    · exact ⟨rfl, rfl, h, fun _ => rfl⟩
  generalize hs1 : rxDescActiveListRemove s id = s1 at h1
  obtain ⟨hm, hcq, hh, hk⟩ := h1
  have h2 : (rxMsgHashRemove s1 id).msgs = s.msgs.filter (· ≠ id) ∧ (rxMsgHashRemove s1 id).cq = s.cq ∧
      ∀ j, ((rxMsgHashRemove s1 id).desc j).msgKey = (s.desc j).msgKey := by
    unfold rxMsgHashRemove
    rw [if_pos hh]
    refine ⟨by rw [hm], hcq, fun j => ?_⟩
    by_cases hj : j = id <;> simp [RxEp.setDesc, hj, hk]
  unfold rxDescRecycle
  rw [hs1]
  cases avail with
  | false => exact h2
  | true =>
    refine ⟨h2.1, h2.2.1, fun j => ?_⟩
    by_cases hj : j = id <;> simp [rxDescListInsert, RxEp.setDesc, hj, h2.2.2]

theorem look_rxDescRecycle (s : RxEp) {id : DescId} (avail : Bool) (h : (s.desc id).inHash = true)
    (hall : ∀ j ∈ s.msgs, (s.desc j).msgKey = M.key → j = id) :
    rxMsgHashLookup (rxDescRecycle s id avail) M.key = none := by
  obtain ⟨hm, -, hk⟩ := msgs_rxDescRecycle s avail h
  refine rxMsgHashLookup_eq_none fun j hj he => ?_
  rw [hm, mem_filter, decide_eq_true_eq] at hj
  exact hj.2 (hall j hj.1 ((hk j).symm.trans he))

theorem completed_received (hin : InProgress M as got left id s) (hp : M.Carries off p)
    (hleft : M.partLen off = left) (hgot : got.isSome = true → M.imm.isSome = true) :
    Completed M got s (rxAccount s p id) ∧ (rxAccount s p id).mem = s.mem := by
  have hn := hp.sesPayloadLen
  have hh := hin.holds
  have hself := s.setDesc_self id (.received p)
  have hkey := key_setDesc s id (f := RxDesc.received p) fun _ => rfl
  have hend : rxAccount s p id = rxCqFinish (s.setDesc id (.received p)) id none := by
    have hsync : ((s.desc id).received p).sync = none := hh.noSync
    unfold rxAccount
    simp only [hself]
    rw [if_pos (by simp only [RxDesc.received, hh.remaining, hn]; omega), rxCqPostEntry, hself, hsync]
  have hall : ∀ j ∈ (s.setDesc id (.received p)).msgs,
      ((s.setDesc id (.received p)).desc j).msgKey = M.key → j = id :=
    fun j hj hk => hin.only j hj ((hkey j).symm.trans hk)
  have hcq : (s.setDesc id (.received p)).cq = s.cq := rfl
  have hfmt : (s.setDesc id (.received p)).cqFormat = s.cqFormat := rfl
  have hmem : (s.setDesc id (.received p)).mem = s.mem := rfl
  rw [hend]
  generalize s.setDesc id (.received p) = s1 at hself hall hcq hfmt hmem
  have hhash : (s1.desc id).inHash = true := by rw [hself]; exact hh.inHash
  have hselft : (s1.desc id).postCq = M.completes got := by rw [hself]; exact hh.postCq
  refine ⟨?_, (settled_rxCqFinish s1 id none).tail.mem.trans hmem⟩
  unfold rxCqFinish
  by_cases hc : M.completes got = true
  · rw [if_pos (hselft.trans hc)]
    refine ⟨look_rxDescRecycle s1 false hhash hall,
      fun _ => ⟨rxCqEntry s1 id, ⟨rfl, ?_, fun v hv => ?_⟩, ?_⟩, fun hf => absurd hc (by rw [hf]; decide)⟩
    · simp only [rxCqEntry, hself]
      exact hh.msgLen
    · have hfmt' : CqFormat.msg.size ≤ s1.cqFormat.size := by
        have := hin.accepted.format (hgot (by rw [hv]; rfl))
        rw [hfmt]
        exact Nat.le_trans (by decide) this
      have himm : (s1.desc id).writeImm = true := by
        rw [hself]
        exact hh.writeImm.trans (by rw [hv]; rfl)
      have hdata : (s1.desc id).immData = v := by
        rw [hself]
        exact hh.immData v hv
      simp only [rxCqEntry, hfmt', himm, hdata]
      simp
    · rw [rxCqPost, ← hcq, ← (msgs_rxDescRecycle s1 false hhash).2.1]
  · rw [if_neg (by rw [hselft]; exact hc)]
    exact ⟨look_rxDescRecycle s1 true hhash hall, fun h => absurd h hc,
      fun _ => (msgs_rxDescRecycle s1 true hhash).2.1.trans hcq⟩

/-! ## The packets before the copy -/

theorem Msg.Accepted.cqTest (h : M.Accepted s) (hp : M.Carries off p) :
    (p.som && (!M.write || p.hd) && s.cqDown) = false := by
  by_cases hc : M.write = false ∨ M.imm.isSome = true
  · rw [h.cq hc, Bool.and_false]
  rw [not_or, Bool.not_eq_false, Bool.not_eq_true] at hc
  rw [hp.hd, hc.1, hc.2]
  simp

theorem rxReqPkt_later (hin : InProgress M as got left id s) (hp : M.Carries off p)
    (hrud : M.write = true → M.pds ≠ .rudi) (env : RxEnv) :
    ∃ s1, rxReqPkt s env p M.tagged M.write false = rxPlace s1 env.now p M.write id ∧
      InProgress M as got left id s1 ∧ s1.mem = s.mem ∧ s1.cq = s.cq := by
  have hh := hin.holds
  have hself := s.setDesc_self id fun d => { d with prevPktTime := env.now }
  have hkey := key_setDesc s id (f := fun d => { d with prevPktTime := env.now }) fun _ => rfl
  have hin1 : InProgress M as got left id (rxDescActiveListMoveToTail s env.now id) := by
    refine ⟨⟨hin.accepted.cq, hin.accepted.mtu, hin.accepted.format⟩, ?_, ?_, ?_, ?_⟩
    · exact (rxMsgHashLookup_congr hkey rfl M.key).trans hin.look
    · exact fun j hj hk => hin.only j hj ((hkey j).symm.trans hk)
    · exact hin.fits.congr rfl (by rw [rxDescActiveListMoveToTail, hself]; exact ⟨rfl, rfl, rfl, rfl⟩)
    · rw [rxDescActiveListMoveToTail, hself]
      exact ⟨hh.noErr, hh.noSync, hh.remaining, hh.msgLen, hh.inHash, hh.writeImm, hh.immData,
        hh.postCq, hh.region⟩
  refine ⟨_, ?_, hin1, rfl, rfl⟩
  generalize hs1 : rxDescActiveListMoveToTail s env.now id = s1 at hin1
  have hget : getRxDesc s env p M.write false .ok = (s1, .later id) := by
    rw [getRxDesc, hp.key, hin.look]
    simp only [getRxDescLater, syncGrpIf, Bool.false_eq_true, if_false, hs1, SesRc.orElse,
      hin1.holds.noErr, ne_eq, not_true, if_false]
  have hlater : laterPktErr s1 p M.write id = none := by
    unfold laterPktErr
    cases hw : M.write with
    | false => rfl
    | true =>
      obtain ⟨hd, i, hi, hk⟩ := hin1.holds.region hw
      simp [hi, hd, hk, hp.matchBits]
  have hrudi : (M.write && p.pds == .rudi) = false := by
    cases hw : M.write with
    | false => rfl
    | true => simpa [hp.pds] using hrud hw
  unfold rxReqPkt
  simp only [hrudi, Bool.false_eq_true, if_false, hget, rxReqBody, hin1.accepted.cqTest hp,
    hp.valid hin1.accepted.mtu, hlater]

end

/-! ## The first packet to arrive -/

def Msg.tagKey (M : Msg) : TagKey := ⟨M.matchBits, false, M.initiator⟩

def Msg.tagOnlyKey (M : Msg) : TagKey := ⟨M.matchBits, true, initiatorNone⟩

/-- The descriptor a message gets, as it is set up: the posted receive that matches, or a
new one for the region of a write. -/
def Msg.buffer (M : Msg) (s : RxEp) : Option (DescId × RxDesc) :=
  match M.op with
  | .send => s.ring.head?.map fun id => (id, s.desc id)
  | .taggedSend =>
    ((tagInitiatorHashLookup s M.tagKey).or (tagInitiatorHashLookup s M.tagOnlyKey)).map fun id =>
      (id, s.desc id)
  | .write => s.free.head?.bind fun id =>
    (getMrDesc s.dom s.ep M.matchBits M.jobId).map fun i =>
      (id, ({ RxDesc.zero with write := true } : RxDesc).target i (s.dom.mr i))

/-- The endpoint is ready for the message: no message with its key is in progress, the
generation is the current one, and there is a buffer it may use and fits into. -/
structure Ready (M : Msg) (as : List Nat) (id : DescId) (d : RxDesc) (s : RxEp) : Prop where
  accepted : M.Accepted s
  idle : rxMsgHashLookup s M.key = none
  gen : M.pds ≠ .uud →
    (if M.tagged then s.taggedGenDisabled else s.untaggedGenDisabled) = false ∧
      M.gen = if M.tagged then s.taggedGen else s.untaggedGen
  buffer : M.buffer s = some (id, d)
  fits : M.Fits as s d
  noErr : d.sesRc = .ok
  noSync : d.sync = none
  noImm : d.writeImm = false
  postCq : d.postCq = !M.write
  job : M.write = false → d.jobId = jobIdAny ∨ d.jobId = M.jobId
  region : M.write = true → ∀ i, d.mr = some i →
    (s.dom.mr i).access.remoteWrite = true ∧ (s.dom.mr i).fullKey = M.matchBits

section

variable {M : Msg} {as : List Nat} {off : Nat} {id : DescId} {d : RxDesc} {s : RxEp} {p : SesReq}

theorem Msg.Carries.genErr (h : M.Carries off p) (hr : Ready M as id d s) : genErr s p M.tagged = none := by
  unfold Uet.Ses.genErr
  rw [h.pds, h.gen]
  by_cases hu : M.pds = .uud
  · rw [if_pos hu]
  obtain ⟨h1, h2⟩ := hr.gen hu
  rw [if_neg hu, h1, ← h2]
  simp

theorem Msg.Carries.bufferTooSmall (h : M.Carries off p) {len : Nat} (hlt : len < 2 ^ 64)
    (hfit : M.base + M.len ≤ len) : bufferTooSmall p M.write len = false := by
  have hstart : (if M.write = true then p.bufOff else 0).toNat = M.base := by
    rw [Msg.base]
    split
    · rename_i hw
      rw [h.start hw]
    · rfl
  have hsum : ((if M.write = true then p.bufOff else 0) + p.reqLen.zeroExtend 64).toNat
      = M.base + M.len := by
    rw [BitVec.toNat_add, hstart, BitVec.toNat_setWidth, h.reqLen, Nat.add_mod_mod]
    exact Nat.mod_eq_of_lt (by omega)
  unfold Uet.Ses.bufferTooSmall
  rw [hsum]
  simpa using hfit

theorem getRxDescNew_region {s : RxEp} (env : RxEnv) {p : SesReq} (id : DescId) {i : MrIdx}
    (hi : getMrDesc s.dom s.ep p.matchBits p.jobId = some i) :
    getRxDescNew s env p true false .ok id =
      ((s.setDesc id fun _ => { RxDesc.zero with write := true }).setDesc id
        (.target i (s.dom.mr i)), .first (some id)) := by
  simp only [getRxDescNew, syncGrpIf, SesRc.orElse, Bool.false_eq_true, if_false, ne_eq, not_true]
  split
  · rename_i h
    cases hi.symm.trans h
  rename_i j h
  cases hi.symm.trans h
  rfl

theorem rxFindBuffer_ready (hr : Ready M as id d s) (hp : M.Carries off p) (env : RxEnv) :
    ∃ s1 o s2, getRxDesc s env p M.write false .ok = (s1, .first o) ∧
      genErr s1 p M.tagged = none ∧ Aside id s s1 ∧
      rxFindBuffer s1 env p M.tagged o = .ok (s2, id) ∧ Aside id s s2 ∧ s2.desc id = d := by
  have hidle := hr.idle
  have hgen := hp.genErr hr
  have hsmall := hp.bufferTooSmall hr.fits.sized hr.fits.fits
  have hbuf := hr.buffer
  have hasid : Aside id s s := ⟨rfl, rfl, rfl, rfl, rfl, rfl, rfl, fun _ _ => rfl⟩
  unfold Msg.buffer at hbuf
  cases hop : M.op with
  | send =>
    have hw : M.write = false := by simp [Msg.write, hop]
    have ht : M.tagged = false := by simp [Msg.tagged, hop]
    simp only [hop, Option.map_eq_some_iff, Prod.mk.injEq] at hbuf
    obtain ⟨_, hring, rfl, rfl⟩ := hbuf
    obtain ⟨rest, hring⟩ := head?_eq_some_iff.1 hring
    refine ⟨s, none, rxDescRingRemove s, ?_, hgen, hasid, ?_,
      ⟨rfl, rfl, rfl, rfl, rfl, rfl, rfl, fun _ _ => rfl⟩, rfl⟩
    · rw [getRxDesc, hp.key, hidle, hw]
      rfl
    · rw [hw] at hsmall
      simp only [rxFindBuffer, ht, Bool.false_eq_true, if_false, hring, hsmall]
  | taggedSend =>
    have hw : M.write = false := by simp [Msg.write, hop]
    have ht : M.tagged = true := by simp [Msg.tagged, hop]
    simp only [hop, Option.map_eq_some_iff, Prod.mk.injEq] at hbuf
    obtain ⟨t, hlook, rfl, rfl⟩ := hbuf
    have hk1 : p.tagKey = M.tagKey := by rw [SesReq.tagKey, Msg.tagKey, hp.matchBits, hp.initiator]
    have hk2 : p.tagOnlyKey = M.tagOnlyKey := by rw [SesReq.tagOnlyKey, Msg.tagOnlyKey, hp.matchBits]
    refine ⟨s, none, tagInitiatorHashRemove s t, ?_, hgen, hasid, ?_,
      ⟨rfl, rfl, rfl, rfl, rfl, rfl, rfl, fun _ _ => rfl⟩, rfl⟩
    · rw [getRxDesc, hp.key, hidle, hw]
      rfl
    · rw [hw] at hsmall
      simp only [rxFindBuffer, ht, if_true, hk1, hk2, hlook, hsmall, Bool.false_eq_true, if_false]
  | write =>
    have hw : M.write = true := by simp [Msg.write, hop]
    have ht : M.tagged = false := by simp [Msg.tagged, hop]
    simp only [hop, Option.bind_eq_some_iff, Option.map_eq_some_iff, Prod.mk.injEq] at hbuf
    obtain ⟨t, hfree, i, hi, rfl, rfl⟩ := hbuf
    obtain ⟨rest, hfree⟩ := head?_eq_some_iff.1 hfree
    have hget : getRxDesc s env p M.write false .ok =
        getRxDescNew { s with free := rest } env p true false .ok t := by
      simp only [getRxDesc, hp.key, hidle, hw, Bool.not_true, Bool.false_and, Bool.false_eq_true,
        if_false, rxDescListPop, hfree]
    rw [getRxDescNew_region env t (i := i) (by rw [hp.matchBits, hp.jobId]; exact hi)] at hget
    have hset : (({ s with free := rest } : RxEp).setDesc t
        fun _ => { RxDesc.zero with write := true }).setDesc t (.target i (s.dom.mr i))
        = ({ s with free := rest } : RxEp).setDesc t
          fun _ => ({ RxDesc.zero with write := true } : RxDesc).target i (s.dom.mr i) := by
      simp [RxEp.setDesc]
    have hself := RxEp.setDesc_self { s with free := rest } t
      fun _ => ({ RxDesc.zero with write := true } : RxDesc).target i (s.dom.mr i)
    have hothers : Aside t s (({ s with free := rest } : RxEp).setDesc t
        fun _ => ({ RxDesc.zero with write := true } : RxDesc).target i (s.dom.mr i)) :=
      ⟨rfl, rfl, rfl, rfl, rfl, rfl, rfl, fun j hj => RxEp.setDesc_of_ne _ _ hj⟩
    rw [hset] at hget
    refine ⟨_, _, _, hget, hgen, hothers, ?_, hothers, hself⟩
    have hacc := (hr.region hw i rfl).1
    rw [hw] at hsmall
    generalize hs1 : ({ s with free := rest } : RxEp).setDesc t
      (fun _ => ({ RxDesc.zero with write := true } : RxDesc).target i (s.dom.mr i)) = s1
      at hself hothers
    have hmr : (s1.desc t).mr = some i := by rw [hself]; rfl
    rw [← hothers.dom] at hacc
    have hsmall' : Uet.Ses.bufferTooSmall p true (s1.dom.mr i).region.buf.len = false := by
      rw [hothers.dom]
      exact hsmall
    simp only [rxFindBuffer, ht, Bool.false_eq_true, if_false, hmr, hacc, hsmall', Bool.not_true]

/-- The immediate data a descriptor has that the packet from `off` on has set up. -/
def Msg.immAt (M : Msg) (off : Nat) : Option (BitVec 64) := if off = 0 then M.imm else none

theorem Msg.immAt_isSome (h : (M.immAt off).isSome = true) : M.imm.isSome = true := by
  unfold Msg.immAt at h
  split at h
  · exact h
  · cases h

def RxDesc.begun (p : SesReq) (now : Nat) (d : RxDesc) : RxDesc :=
  { d.start p with active := true, prevPktTime := now, inHash := true }

theorem inProgress_rxMsgStart {s2 : RxEp} (hr : Ready M as id d s) (hp : M.Carries off p)
    (ha : Aside id s s2) (hd : s2.desc id = d) (now : Nat) {f : RxDesc → RxDesc}
    (hf : ∀ d', d'.postCq = !M.write → d'.writeImm = false → f d' = { d' with
      immData := (f d').immData, writeImm := (M.immAt off).isSome,
      postCq := !M.write || (M.immAt off).isSome })
    (himm : ∀ d' v, M.immAt off = some v → (f d').immData = v) :
    InProgress M as (M.immAt off) M.len id ((rxMsgStart s2 now p id).setDesc id f) := by
  have hself : ((rxMsgStart s2 now p id).setDesc id f).desc id
      = f (d.begun p now) := by
    simp [RxDesc.begun, rxMsgStart, rxMsgHashInsert, rxDescActiveListInsert, RxEp.setDesc, hd]
  have hothers : ∀ j, j ≠ id → ((rxMsgStart s2 now p id).setDesc id f).desc j = s.desc j := by
    intro j hj
    rw [← ha.others j hj]
    simp [rxMsgStart, rxMsgHashInsert, rxDescActiveListInsert, RxEp.setDesc, hj]
  have hmsgs : ((rxMsgStart s2 now p id).setDesc id f).msgs = id :: s.msgs := congrArg (id :: ·) ha.msgs
  have himm' := himm (d.begun p now)
  rw [hf (d.begun p now) hr.postCq hr.noImm] at hself
  have hdom : ((rxMsgStart s2 now p id).setDesc id f).dom = s.dom := ha.dom
  have hacc : M.Accepted ((rxMsgStart s2 now p id).setDesc id f) :=
    ⟨fun h => ha.cqDown.trans (hr.accepted.cq h), ha.maxPayloadLen.trans hr.accepted.mtu,
      fun h => le_of_le_of_eq (hr.accepted.format h) (congrArg _ ha.cqFormat.symm)⟩
  generalize (rxMsgStart s2 now p id).setDesc id f = s3 at hself hothers hmsgs hdom hacc ⊢
  generalize (f (d.begun p now)).immData = imm at hself himm'
  simp only [RxDesc.begun, RxDesc.start] at hself
  have hkey : (s3.desc id).msgKey = M.key := by
    rw [hself]
    exact hp.key
  refine ⟨hacc, ?_, ?_, ?_, ?_⟩
  · unfold rxMsgHashLookup
    rw [hmsgs, find?_cons_of_pos (by rw [hkey]; exact beq_self_eq_true _)]
  · intro j hj hk
    by_contra hne
    rw [hmsgs, mem_cons, or_iff_right hne] at hj
    rw [hothers j hne] at hk
    have hidle := hr.idle
    unfold rxMsgHashLookup at hidle
    exact absurd hk (by simpa using find?_eq_none.1 hidle j hj)
  · rw [hself]
    exact hr.fits.congr hdom ⟨rfl, rfl, rfl, rfl⟩
  · rw [hself]
    refine ⟨hr.noErr, hr.noSync, hp.reqLen, hp.reqLen, rfl, rfl, himm', rfl, fun hw => ?_⟩
    · have hbuf := hr.buffer
      have hop : M.op = .write := by simpa [Msg.write] using hw
      unfold Msg.buffer at hbuf
      simp only [hop, Option.bind_eq_some_iff, Option.map_eq_some_iff, Prod.mk.injEq] at hbuf
      obtain ⟨t, -, i, -, -, rfl⟩ := hbuf
      refine ⟨rfl, i, rfl, ?_⟩
      rw [hdom]
      exact (hr.region hw i rfl).2

theorem rxReqPkt_first (hr : Ready M as id d s) (hp : M.Carries off p)
    (hrud : M.write = true → M.pds ≠ .rudi) (env : RxEnv) :
    ∃ s1, rxReqPkt s env p M.tagged M.write false = rxPlace s1 env.now p M.write id ∧
      InProgress M as (M.immAt off) M.len id s1 ∧ s1.mem = s.mem ∧ s1.cq = s.cq := by
  obtain ⟨s1, o, s2, hget, hgen, ha1, hfind, ha2, hd⟩ := rxFindBuffer_ready hr hp env
  have hrudi : (M.write && p.pds == .rudi) = false := by
    cases hw : M.write with
    | false => rfl
    | true => simpa [hp.pds] using hrud hw
  have hacc := hr.accepted.aside ha1
  have hreq : rxReqPkt s env p M.tagged M.write false = rxReqBody s1 env p M.tagged M.write false o := by
    simp only [rxReqPkt, hrudi, Bool.false_eq_true, if_false, hget]
  have hjob : (!M.write && (s2.desc id).jobId != jobIdAny && (s2.desc id).jobId != p.jobId) = false := by
    cases hw : M.write with
    | true => rfl
    | false =>
      rw [hd, hp.jobId]
      rcases hr.job hw with h | h <;> simp [h]
  have hformat : p.hd = true → ¬ (rxMsgStart s2 env.now p id).cqFormat.size < CqFormat.data.size := by
    intro hhd
    rw [hp.hd, Bool.and_eq_true] at hhd
    rw [rxMsgStart_cqFormat, ha2.cqFormat]
    exact Nat.not_lt.2 (hr.accepted.format hhd.2)
  obtain ⟨s3, hs3⟩ : ∃ s3, s3 = (rxMsgStart s2 env.now p id).setDesc id
    (if p.hd then .setImm p M.write else fun d => d) := ⟨_, rfl⟩
  have hfirst : rxFirstPkt s1 env p M.tagged M.write o = .ok (s3, id) := by
    rw [hs3]
    simp only [rxFirstPkt, hgen, hfind, hjob, Bool.false_eq_true, if_false]
    by_cases hhd : p.hd = true
    · rw [if_pos hhd, if_neg (hformat hhd), if_pos hhd]
    · rw [if_neg hhd, if_neg hhd, RxEp.setDesc_id]
  have hbody : rxReqPkt s env p M.tagged M.write false = rxPlace s3 env.now p M.write id := by
    rw [hreq]
    refine (if_neg (by simp only [hacc.cqTest hp, Bool.false_eq_true, not_false_eq_true])).trans
      ((if_neg (by simp only [hp.valid hacc.mtu, Bool.false_eq_true, not_false_eq_true])).trans ?_)
    rw [hfirst]
  subst hs3
  refine ⟨_, hbody, inProgress_rxMsgStart hr hp ha2 hd env.now ?_ ?_, ha2.mem, ha2.cq⟩
  · intro d' hpost hno
    by_cases hhd : p.hd = true
    · have hsome : (M.immAt off).isSome = true := by
        rw [hp.hd, hp.som, Bool.and_eq_true, decide_eq_true_eq] at hhd
        rw [Msg.immAt, if_pos hhd.1]
        exact hhd.2
      rw [if_pos hhd, hsome, RxDesc.setImm, hpost]
      simp
    · have hnone : (M.immAt off).isSome = false := by
        rw [hp.hd, hp.som, Bool.and_eq_true, decide_eq_true_eq] at hhd
        unfold Msg.immAt
        split
        · rename_i h0
          simpa [h0] using hhd
        · rfl
      rw [if_neg hhd, hnone, Bool.or_false, ← hpost, ← hno]
  · intro d' v hv
    have hv' : off = 0 ∧ M.imm = some v := by
      unfold Msg.immAt at hv
      split at hv
      · exact ⟨‹_›, hv⟩
      · cases hv
    have hsom : p.som = true := by rw [hp.som, hv'.1]; rfl
    rw [if_pos (by rw [hp.hd, hsom, hv'.2]; rfl)]
    exact hp.imm hsom v hv'.2

end

/-! ## All packets, in any order -/

abbrev Arrivals := List (RxEnv × SesReq)

def RxEp.deliver (s : RxEp) (xs : Arrivals) : RxEp := s.run (xs.map fun x => .req x.1 x.2)

theorem RxEp.deliver_cons (s : RxEp) (x : RxEnv × SesReq) (xs : Arrivals) :
    s.deliver (x :: xs) = (rxReq s x.1 x.2).1.deliver xs := rfl

def Msg.CarriedBy (M : Msg) (offs : List Nat) (xs : Arrivals) : Prop :=
  List.Forall₂ (fun off x => M.Carries off x.2) offs xs

/-- What a packet does to a message with `left` bytes to come. -/
structure Advanced (M : Msg) (as : List Nat) (got : Option (BitVec 64)) (left off : Nat)
    (id : DescId) (s s' : RxEp) : Prop where
  mem : s'.mem = M.store as s.mem off
  more : M.partLen off < left → InProgress M as got (left - M.partLen off) id s' ∧ s'.cq = s.cq
  last : M.partLen off = left → Completed M got s s'

section

variable {M : Msg} {as : List Nat} {got : Option (BitVec 64)} {left off : Nat} {id : DescId}
  {d : RxDesc} {s : RxEp} {p : SesReq}

theorem Msg.Carries.rxReq (h : M.Carries off p) (s : RxEp) (env : RxEnv) :
    rxReq s env p = rxReqPkt s env p M.tagged M.write false := by
  have hop := h.op
  unfold Uet.Ses.rxReq Msg.tagged Msg.write
  cases hm : M.op with
  | send =>
    rw [hm] at hop
    rcases hop with hop | hop <;> rw [hop] <;> rfl
  | taggedSend =>
    rw [hm] at hop
    rcases hop with hop | hop <;> rw [hop] <;> rfl
  | write =>
    rw [hm] at hop
    have hop : p.opcode = .write := hop
    rw [hop]
    rfl

theorem advanced_of_rxPlace {s1 : RxEp} {env : RxEnv} (hp : M.Carries off p)
    (hplace : rxReqPkt s env p M.tagged M.write false = rxPlace s1 env.now p M.write id)
    (hin : InProgress M as got left id s1) (hmem : s1.mem = s.mem) (hcq : s1.cq = s.cq)
    (hle : M.partLen off ≤ left) (hgot : got.isSome = true → M.imm.isSome = true) :
    Advanced M as got left off id s (Uet.Ses.rxReq s env p).1 := by
  have hres : (Uet.Ses.rxReq s env p).1 = rxAccount { s1 with mem := M.store as s.mem off } p id := by
    rw [hp.rxReq, hplace, rxPlace_inProgress hin hp hle, hmem]
  have hin1 := hin.withMem (M.store as s.mem off)
  rw [hres]
  constructor
  · rcases Nat.lt_or_eq_of_le hle with hlt | heq
    · exact (inProgress_received hin1 hp hlt).2.1
    · exact (completed_received hin1 hp heq hgot).2
  · intro hlt
    obtain ⟨h1, -, h3⟩ := inProgress_received hin1 hp hlt
    exact ⟨h1, h3.trans hcq⟩
  · intro heq
    obtain ⟨⟨h1, h2, h3⟩, -⟩ := completed_received hin1 hp heq hgot
    exact ⟨h1, fun h => by rw [← hcq]; exact h2 h, fun h => by rw [← hcq]; exact h3 h⟩

theorem advanced_later (hin : InProgress M as got left id s) (hp : M.Carries off p)
    (hrud : M.write = true → M.pds ≠ .rudi) (env : RxEnv) (hle : M.partLen off ≤ left)
    (hgot : got.isSome = true → M.imm.isSome = true) :
    Advanced M as got left off id s (Uet.Ses.rxReq s env p).1 := by
  obtain ⟨s1, hplace, hin1, hmem, hcq⟩ := rxReqPkt_later hin hp hrud env
  exact advanced_of_rxPlace hp hplace hin1 hmem hcq hle hgot

theorem advanced_first (hr : Ready M as id d s) (hp : M.Carries off p)
    (hrud : M.write = true → M.pds ≠ .rudi) (env : RxEnv) :
    Advanced M as (M.immAt off) M.len off id s (Uet.Ses.rxReq s env p).1 := by
  obtain ⟨s1, hplace, hin1, hmem, hcq⟩ := rxReqPkt_first hr hp hrud env
  have hle := M.partLen_le off
  exact advanced_of_rxPlace hp hplace hin1 hmem hcq (by omega) Msg.immAt_isSome

def Msg.parts (M : Msg) (offs : List Nat) : List (Nat × Nat) := offs.map fun o => (o, M.partLen o)

theorem Msg.store_eq (m : Mem) : M.store as m off =
    poke m ((as.drop M.base).drop off) (part M.data off (M.partLen off)) := by
  rw [drop_drop]
  rfl

variable {offs : List Nat} {xs : Arrivals} {base : Nat}

/-- A message is delivered once its next packet has advanced it and the rest follows. -/
theorem Advanced.delivers {x : RxEnv × SesReq} (hadv : Advanced M as got left off id s (Uet.Ses.rxReq s x.1 x.2).1)
    (hrud : M.write = true → M.pds ≠ .rudi) (hgot : got.isSome = true → M.imm.isSome = true)
    (hc : M.CarriedBy offs xs) (hsum : M.partLen off + (offs.map M.partLen).sum = left)
    (hpos : ∀ o ∈ offs, 0 < M.partLen o) :
    (s.deliver (x :: xs)).mem = pokeParts (as.drop M.base) M.data s.mem (M.parts (off :: offs)) ∧
      Completed M got s (s.deliver (x :: xs)) ∧
      ∀ k, k < (x :: xs).length → (s.deliver ((x :: xs).take k)).cq = s.cq ∧
        (0 < k → rxMsgHashLookup (s.deliver ((x :: xs).take k)) M.key = some id) := by
  induction hc generalizing s left off x with
  | nil =>
    rw [RxEp.deliver_cons]
    refine ⟨?_, hadv.last (by simpa using hsum), fun k hk => ?_⟩
    · exact hadv.mem.trans (Msg.store_eq _)
    · obtain rfl : k = 0 := by simpa using hk
      exact ⟨rfl, fun h => absurd h (Nat.lt_irrefl 0)⟩
  | @cons off' x' offs xs hp hc ih =>
    rw [map_cons, sum_cons] at hsum
    have hnext := hpos off' mem_cons_self
    obtain ⟨hin1, hcq⟩ := hadv.more (by omega)
    obtain ⟨h1, h2, h3⟩ := ih (advanced_later hin1 hp hrud x'.1 (by omega) hgot) (by omega)
      fun o ho => hpos o (mem_cons_of_mem _ ho)
    rw [RxEp.deliver_cons]
    refine ⟨h1.trans ?_, ⟨h2.gone, fun h => by rw [← hcq]; exact h2.entry h,
      fun h => by rw [← hcq]; exact h2.quiet h⟩, fun k hk => ?_⟩
    · rw [hadv.mem, Msg.store_eq]
      rfl
    cases k with
    | zero => exact ⟨rfl, fun h => absurd h (Nat.lt_irrefl 0)⟩
    | succ k =>
      obtain ⟨h4, h5⟩ := h3 k (by simpa using hk)
      rw [take_succ_cons, RxEp.deliver_cons]
      refine ⟨h4.trans hcq, fun _ => ?_⟩
      cases k with
      | zero => exact hin1.look
      | succ => exact h5 (Nat.succ_pos ..)

def Msg.Offsets (M : Msg) (offs : List Nat) : Prop :=
  ∃ tiles, Tiles M.mtu M.len 0 tiles ∧ offs.Perm tiles

section

variable (h : M.Offsets offs)
include h

theorem Msg.Offsets.ne_nil : offs ≠ [] := by
  obtain ⟨tiles, ht, hperm⟩ := h
  exact ne_nil_of_mem (hperm.mem_iff.2 ht.head_mem)

theorem Msg.Offsets.sum : (offs.map M.partLen).sum = M.len := by
  obtain ⟨tiles, ht, hperm⟩ := h
  exact ((hperm.map M.partLen).sum_nat).trans ht.sum

theorem Msg.Offsets.pos (hlen : 0 < M.len) : ∀ o ∈ offs, 0 < M.partLen o := by
  obtain ⟨tiles, ht, hperm⟩ := h
  exact fun o ho => ht.pos M.mtu_pos hlen o (hperm.mem_iff.1 ho)

theorem Msg.Offsets.eq_zero (hlen : M.len = 0) : offs = [0] := by
  obtain ⟨tiles, ht, hperm⟩ := h
  rw [hlen] at ht
  cases ht with
  | last _ => exact perm_singleton.1 hperm
  | more hlt _ => omega

/-- The bytes of the message stand at the addresses from `base` on, and nothing else of
memory has changed. -/
structure Msg.Stored (M : Msg) (as : List Nat) (base : Nat) (m m' : Mem) : Prop where
  bytes : ∀ k (hk : k < M.data.length) (ha : base + k < as.length), m' as[base + k] = M.data[k]
  rest : ∀ a, a ∉ (as.drop base).take M.len → m' a = m a

theorem Msg.Offsets.stored (hn : as.Nodup) (hfit : base + M.len ≤ as.length) (m : Mem) :
    M.Stored as base m (pokeParts (as.drop base) M.data m (M.parts offs)) := by
  obtain ⟨tiles, ht, hperm⟩ := h
  have hparts : ∀ w ∈ M.parts offs, w.1 + w.2 ≤ M.data.length := by
    intro w hw
    obtain ⟨o, ho, rfl⟩ := mem_map.1 hw
    have h1 := ht.le_len (Nat.zero_le _) o (hperm.mem_iff.1 ho)
    have h2 := M.partLen_le o
    simp only [Msg.len] at h1 h2 ⊢
    omega
  have hlen : M.data.length ≤ (as.drop base).length := by
    simp only [Msg.len] at hfit
    rw [length_drop]
    omega
  refine ⟨fun k hk ha => ?_, fun a ha => pokeParts_of_not_mem hparts ha⟩
  obtain ⟨o, ho, hcov⟩ := ht.cover (Nat.zero_le k) hk
  have hget := pokeParts_getElem (hn.sublist (drop_sublist base as)) hlen hparts (m := m) hk
    (Or.inr ⟨(o, M.partLen o), mem_map.2 ⟨o, hperm.mem_iff.2 ho, rfl⟩, hcov⟩)
  rwa [getElem_drop] at hget

end

theorem deliver_ready {off : Nat} (hr : Ready M as id d s) (hrud : M.write = true → M.pds ≠ .rudi)
    (hc : M.CarriedBy (off :: offs) xs) (ho : M.Offsets (off :: offs)) :
    (s.deliver xs).mem = pokeParts (as.drop M.base) M.data s.mem (M.parts (off :: offs)) ∧
      Completed M (M.immAt off) s (s.deliver xs) ∧
      ∀ k, k < xs.length → (s.deliver (xs.take k)).cq = s.cq ∧
        (0 < k → rxMsgHashLookup (s.deliver (xs.take k)) M.key = some id) := by
  cases hc with
  | @cons _ x _ xs hp hc =>
    have hsum := ho.sum
    rw [map_cons, sum_cons] at hsum
    refine (advanced_first hr hp hrud x.1).delivers hrud Msg.immAt_isSome hc hsum fun o hmem => ?_
    refine ho.pos (Nat.pos_of_ne_zero fun h0 => ?_) o (mem_cons_of_mem _ hmem)
    rw [(cons.inj (ho.eq_zero h0)).2] at hmem
    cases hmem

/-! ## RUDI writes -/

/-- The endpoint is ready for a RUDI write: the region is an idempotent one, and the start
is an address of the region. -/
structure RudiReady (M : Msg) (as : List Nat) (base : Nat) (i : MrIdx) (s : RxEp) : Prop where
  region : getMrDesc s.dom s.ep M.matchBits M.jobId = some i
  access : (s.dom.mr i).access.remoteWrite = true
  idempotent : (s.dom.mr i).fullKey &&& keyIdempotentSafe ≠ 0
  addrs : (s.dom.mr i).region.buf.addrs = some as
  start : M.start.toNat = (s.dom.mr i).region.baseVa + base
  noWrap : M.start.toNat + M.len < 2 ^ 64
  fits : base + M.len ≤ (s.dom.mr i).region.buf.len

theorem rxReq_rudi {i : MrIdx} (hr : RudiReady M as base i s) (hw : M.write = true) (hrudi : M.pds = .rudi)
    (hp : M.Carries off p) (env : RxEnv) : (Uet.Ses.rxReq s env p).1 = { s with
      mem := poke s.mem ((as.drop base).drop off) (part M.data off (M.partLen off)) } := by
  have hle := hp.le
  have hpart := M.partLen_le off
  have hfits := hr.fits
  have hn := hp.sesPayloadLen
  have hbase : M.base = M.start.toNat := by rw [Msg.base, if_pos hw]
  have hoff := hp.rxBufOff (by rw [hbase]; exact hr.noWrap)
  rw [hw, hbase, hr.start] at hoff
  have hto : (s.dom.mr i).region.toOffset (p.rxBufOff true).toNat p.sesPayloadLen
      = some (base + off) := by
    rw [Region.toOffset_eq_some, hoff, hn]
    omega
  rw [hp.rxReq, rxReqPkt, if_pos (by rw [hw, hp.pds, hrudi]; rfl), rudiWrite, hp.matchBits, hp.jobId,
    hr.region]
  simp only [hr.access, Bool.not_true, Bool.false_eq_true, if_false, hr.idempotent, hto,
    mrScatter_eq s.mem hr.addrs, SesReq.length_read]
  rw [if_pos (by rw [hn]; omega), hn, hp.bytes, drop_drop]

theorem deliver_rudi {i : MrIdx} (hr : RudiReady M as base i s) (hw : M.write = true) (hrudi : M.pds = .rudi)
    (hc : M.CarriedBy offs xs) :
    s.deliver xs = { s with mem := pokeParts (as.drop base) M.data s.mem (M.parts offs) } := by
  induction hc generalizing s with
  | nil => rfl
  | @cons off x offs xs hp hc ih =>
    have hr1 : RudiReady M as base i { s with
        mem := poke s.mem ((as.drop base).drop off) (part M.data off (M.partLen off)) } :=
      ⟨hr.region, hr.access, hr.idempotent, hr.addrs, hr.start, hr.noWrap, hr.fits⟩
    rw [RxEp.deliver_cons, rxReq_rudi hr hw hrudi hp x.1]
    exact ih hr1

end

end Uet.Ses
