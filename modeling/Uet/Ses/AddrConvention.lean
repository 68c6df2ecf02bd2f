import Uet.Ses.Reassembly

/-!
# Remote addresses

A remote address is to name the byte of a region at the distance of the address from the
base of the region (`Region.Within`), whichever request it comes in. A RUDI write, a read
and an atomic resolve it so. A write with a message in progress takes the address for the
offset, so it agrees with the others in a region whose base is zero, and its check of the
range is a sum in 64 bits.
-/

namespace Uet.Ses

open Flat List

def Region.Within (r : Region) (a n : Nat) : Prop := r.baseVa ≤ a ∧ a - r.baseVa + n ≤ r.buf.len

instance (r : Region) (a n : Nat) : Decidable (r.Within a n) :=
  inferInstanceAs (Decidable (_ ∧ _))

theorem Region.toOffset_isSome {r : Region} {a n : Nat} :
    (∃ off, r.toOffset a n = some off) ↔ r.Within a n := by
  constructor
  · rintro ⟨off, h⟩
    rw [Region.toOffset_eq_some] at h
    constructor <;> omega
  · rintro ⟨h1, h2⟩
    exact ⟨a - r.baseVa, Region.toOffset_eq_some.2 ⟨by omega, h2⟩⟩

theorem Region.toOffset_of_not_within {r : Region} {a n : Nat} (h : ¬ r.Within a n) :
    r.toOffset a n = none := by
  cases hto : r.toOffset a n with
  | none => rfl
  | some off => exact absurd (Region.toOffset_isSome.1 ⟨off, hto⟩) h

/-! ## The packets of a range -/

section

variable {M : Msg} {offs : List Nat} {r : Region}

theorem Region.Within.part (h : r.Within M.start.toNat M.len) {off : Nat} (hle : off ≤ M.len) :
    r.toOffset (M.start.toNat + off) (M.partLen off) = some (M.start.toNat - r.baseVa + off) := by
  obtain ⟨h1, h2⟩ := h
  have hpart := M.partLen_le off
  rw [Region.toOffset_eq_some]
  omega

theorem Msg.Offsets.zero_mem (h : M.Offsets offs) : 0 ∈ offs := by
  obtain ⟨tiles, ht, hperm⟩ := h
  exact hperm.mem_iff.2 ht.head_mem

theorem Msg.Offsets.last_mem (h : M.Offsets offs) : ∃ off ∈ offs, off + M.partLen off = M.len := by
  by_cases h0 : M.len = 0
  · have hpart := M.partLen_le 0
    exact ⟨0, h.zero_mem, by omega⟩
  obtain ⟨tiles, ht, hperm⟩ := h
  obtain ⟨o, ho, h1, h2⟩ := ht.cover (Nat.zero_le (M.len - 1)) (by omega)
  have hpart := M.partLen_le o
  refine ⟨o, hperm.mem_iff.2 ho, ?_⟩
  unfold Msg.partLen at hpart ⊢
  omega

theorem Msg.Offsets.within_iff (h : M.Offsets offs) (hle : ∀ off ∈ offs, off ≤ M.len) :
    (∀ off ∈ offs, r.Within (M.start.toNat + off) (M.partLen off)) ↔ r.Within M.start.toNat M.len := by
  constructor
  · intro hall
    obtain ⟨off, hoff, hend⟩ := h.last_mem
    have hfirst := (hall 0 h.zero_mem).1
    have hlast := (hall off hoff).2
    exact ⟨by omega, by omega⟩
  · intro hw off hoff
    exact Region.toOffset_isSome.1 ⟨_, hw.part (hle off hoff)⟩

end

/-! ## Writes -/

def RxEp.answers : RxEp → Arrivals → List SesRc
  | _, [] => []
  | s, x :: xs => (rxReq s x.1 x.2).2 :: (rxReq s x.1 x.2).1.answers xs

/-- The endpoint takes writes under the key of region `i`: whether it takes this one is a
matter of the range. -/
structure Writable (M : Msg) (i : MrIdx) (s : RxEp) : Prop where
  op : M.op = .write
  region : getMrDesc s.dom s.ep M.matchBits M.jobId = some i
  key : (s.dom.mr i).fullKey = M.matchBits
  access : (s.dom.mr i).access.remoteWrite = true
  sized : (s.dom.mr i).region.buf.len < 2 ^ 64
  idempotent : M.pds = .rudi → (s.dom.mr i).fullKey &&& keyIdempotentSafe ≠ 0
  accepted : M.Accepted s
  idle : rxMsgHashLookup s M.key = none
  gen : M.pds ≠ .uud → s.untaggedGenDisabled = false ∧ M.gen = s.untaggedGen
  free : s.free ≠ []

section

variable {M : Msg} {as : List Nat} {off : Nat} {id : DescId} {i : MrIdx} {s : RxEp} {p : SesReq}

section

variable (h : Writable M i s)
include h

theorem Writable.write : M.write = true := by simp [Msg.write, h.op]

theorem Writable.tagged : M.tagged = false := by simp [Msg.tagged, h.op]

theorem Writable.base : M.base = M.start.toNat := by
  rw [Msg.base, if_pos h.write]

theorem Writable.ready (haddrs : (s.dom.mr i).region.buf.addrs = some as)
    (hfit : M.start.toNat + M.len ≤ (s.dom.mr i).region.buf.len) :
    ∃ id, Ready M as id (({ RxDesc.zero with write := true } : RxDesc).target i (s.dom.mr i)) s := by
  obtain ⟨id, rest, hfree⟩ := exists_cons_of_ne_nil h.free
  have hlen := MrBuf.length_addrs haddrs
  refine ⟨id, { accepted := h.accepted, idle := h.idle, gen := fun hu => ?_, buffer := ?_, fits := ?_
                noErr := rfl, noSync := rfl, noImm := rfl, postCq := ?_, job := fun hw => ?_
                region := fun _ j hj => ?_ }⟩
  · rw [h.tagged]
    exact h.gen hu
  · simp [Msg.buffer, h.op, hfree, h.region]
  · exact ⟨(addrs_of_cachedFrom rfl (cachedFrom_target i _ _)).trans haddrs, Nat.le_of_eq hlen.symm,
      h.sized, by rw [h.base]; exact hfit⟩
  · rw [h.write]
    rfl
  · rw [h.write] at hw
    cases hw
  · cases hj
    exact ⟨h.access, h.key⟩

theorem Writable.refused (hrud : M.pds ≠ .rudi) (hp : M.Carries off p)
    (hwrap : M.start.toNat + M.len < 2 ^ 64)
    (hbig : (s.dom.mr i).region.buf.len < M.start.toNat + M.len) (env : RxEnv) :
    (rxReq s env p).2 = .unsupportedSize := by
  obtain ⟨id, rest, hfree⟩ := exists_cons_of_ne_nil h.free
  have hrudi : (true && p.pds == .rudi) = false := by simpa [hp.pds] using hrud
  have hget : getRxDesc s env p true false .ok =
      getRxDescNew { s with free := rest } env p true false .ok id := by
    simp only [getRxDesc, hp.key, h.idle, Bool.not_true, Bool.false_and, Bool.false_eq_true,
      if_false, rxDescListPop, hfree]
  rw [getRxDescNew_region env id (i := i) (by rw [hp.matchBits, hp.jobId]; exact h.region)] at hget
  have hsmall : bufferTooSmall p true (s.dom.mr i).region.buf.len = true := by
    have hsum : (p.bufOff + p.reqLen.zeroExtend 64).toNat = M.start.toNat + M.len := by
      rw [BitVec.toNat_add, hp.start h.write, BitVec.toNat_setWidth, hp.reqLen, Nat.add_mod_mod]
      exact Nat.mod_eq_of_lt hwrap
    simp only [bufferTooSmall, if_true, hsum, decide_eq_true_eq]
    exact hbig
  have hcq := h.accepted.cqTest hp
  have hvalid := hp.valid h.accepted.mtu
  have hgen : genErr s p false = none := by
    unfold Uet.Ses.genErr
    rw [hp.pds, hp.gen]
    by_cases hu : M.pds = .uud
    · rw [if_pos hu]
    obtain ⟨h1, h2⟩ := h.gen hu
    rw [if_neg hu, h2]
    simp [h1]
  rw [h.write] at hcq
  rw [hp.rxReq, h.tagged, h.write, rxReqPkt, if_neg (by rw [hrudi]; exact Bool.false_ne_true), hget]
  generalize hs1 : (({ s with free := rest } : RxEp).setDesc id
    fun _ => { RxDesc.zero with write := true }).setDesc id (.target i (s.dom.mr i)) = s1
  have hdom : s1.dom = s.dom := by rw [← hs1]; rfl
  have hmr : (s1.desc id).mr = some i := by rw [← hs1, RxEp.setDesc_self]; rfl
  have hcq1 : (p.som && (!true || p.hd) && s1.cqDown) = false := by rw [← hcq, ← hs1]; rfl
  have hvalid1 : invalidPayloadLen s1 p = false := by rw [← hvalid, ← hs1]; rfl
  have hgen1 : genErr s1 p false = none := by rw [← hgen, ← hs1]; rfl
  have hfind : rxFindBuffer s1 env p false (some id) = .error (s1, some id, .unsupportedSize) := by
    simp only [rxFindBuffer, Bool.false_eq_true, if_false, hmr, hdom, h.access, Bool.not_true, hsmall,
      if_true]
  simp only [rxReqBody, hcq1, hvalid1, Bool.false_eq_true, if_false, rxFirstPkt, hgen1, hfind, rxMsgErr]

end

theorem answer_later {got : Option (BitVec 64)} {left : Nat} (hin : InProgress M as got left id s)
    (hp : M.Carries off p) (hrud : M.write = true → M.pds ≠ .rudi) (env : RxEnv)
    (hle : M.partLen off ≤ left) : (rxReq s env p).2 = .ok := by
  obtain ⟨s1, hplace, hin1, -, -⟩ := rxReqPkt_later hin hp hrud env
  rw [hp.rxReq, hplace, rxPlace_inProgress hin1 hp hle]

theorem answer_first {d : RxDesc} (hr : Ready M as id d s) (hp : M.Carries off p)
    (hrud : M.write = true → M.pds ≠ .rudi) (env : RxEnv) : (rxReq s env p).2 = .ok := by
  obtain ⟨s1, hplace, hin1, -, -⟩ := rxReqPkt_first hr hp hrud env
  have hle := M.partLen_le off
  rw [hp.rxReq, hplace, rxPlace_inProgress hin1 hp (by omega)]

variable {xs : Arrivals}

theorem answers_inProgress {got : Option (BitVec 64)} {left : Nat} {offs : List Nat}
    (hin : InProgress M as got left id s) (hrud : M.write = true → M.pds ≠ .rudi)
    (hgot : got.isSome = true → M.imm.isSome = true) (hc : M.CarriedBy offs xs)
    (hsum : (offs.map M.partLen).sum = left) (hpos : ∀ o ∈ offs, 0 < M.partLen o) : ∀ rc ∈ s.answers xs, rc = .ok := by
  induction hc generalizing s left with
  | nil => exact fun rc h => by cases h
  | @cons off x offs xs hp hc ih =>
    rw [map_cons, sum_cons] at hsum
    have hadv := advanced_later hin hp hrud x.1 (by omega) hgot
    intro rc hrc
    rcases mem_cons.1 hrc with rfl | hrc
    · exact answer_later hin hp hrud x.1 (by omega)
    cases hc with
    | nil => cases hrc
    | @cons off2 x2 offs xs hp2 hc =>
      have hpos2 := hpos off2 (by simp)
      rw [map_cons, sum_cons] at hsum
      exact ih (hadv.more (by omega)).1 (by rw [map_cons, sum_cons]; omega)
        (fun o ho => hpos o (mem_cons_of_mem _ ho)) rc hrc

theorem answers_ready {d : RxDesc} {offs : List Nat} (hr : Ready M as id d s) (hrud : M.write = true → M.pds ≠ .rudi)
    (hc : M.CarriedBy offs xs) (ho : M.Offsets offs) : ∀ rc ∈ s.answers xs, rc = .ok := by
  have hsum := ho.sum
  have hzero := ho.eq_zero
  have hpos := ho.pos
  cases hc with
  | nil => exact fun rc h => by cases h
  | @cons off x offs xs hp hc =>
    intro rc hrc
    rcases mem_cons.1 hrc with rfl | hrc
    · exact answer_first hr hp hrud x.1
    cases hc with
    | nil => cases hrc
    | @cons off2 x2 offs xs hp2 hc =>
      have hlen : 0 < M.len := by
        refine Nat.pos_of_ne_zero fun h0 => ?_
        have := hzero h0
        simp at this
      have hpos2 := hpos hlen off2 (by simp)
      have hadv := advanced_first hr hp hrud x.1
      simp only [map_cons, sum_cons] at hsum
      refine answers_inProgress (hadv.more (by omega)).1 hrud Msg.immAt_isSome (.cons hp2 hc) ?_
        (fun o ho => hpos hlen o (mem_cons_of_mem _ ho)) rc hrc
      simp only [map_cons, sum_cons]
      omega

section

variable (h : Writable M i s)
include h

theorem Writable.accepted_iff (hrud : M.pds ≠ .rudi)
    (haddrs : (s.dom.mr i).region.buf.addrs = some as) (hwrap : M.start.toNat + M.len < 2 ^ 64) {offs : List Nat}
    (hc : M.CarriedBy offs xs) (ho : M.Offsets offs) :
    (∀ rc ∈ s.answers xs, rc = .ok) ↔ M.start.toNat + M.len ≤ (s.dom.mr i).region.buf.len := by
  constructor
  · intro hall
    by_contra hbig
    cases hc with
    | nil => exact ho.ne_nil rfl
    | @cons off x offs xs hp hc =>
      have hok := hall _ (mem_cons_self ..)
      rw [h.refused hrud hp hwrap (by omega) x.1] at hok
      cases hok
  · intro hfit
    obtain ⟨id, hr⟩ := h.ready haddrs hfit
    exact answers_ready hr (fun _ => hrud) hc ho

theorem Writable.answer_rudi (hrudi : M.pds = .rudi) (hp : M.Carries off p)
    (haddrs : (s.dom.mr i).region.buf.addrs = some as) (hwrap : M.start.toNat + M.len < 2 ^ 64)
    (env : RxEnv) :
    (∃ m, (rxReq s env p).1 = { s with mem := m }) ∧
      ((rxReq s env p).2 = .ok ↔ (s.dom.mr i).region.Within (M.start.toNat + off) (M.partLen off)) := by
  have hoff := hp.rxBufOff (by rw [h.base]; exact hwrap)
  rw [h.write, h.base] at hoff
  rw [hp.rxReq, h.write, rxReqPkt, if_pos (by rw [hp.pds, hrudi]; rfl), rudiWrite, hp.matchBits,
    hp.jobId, h.region]
  simp only [h.access, Bool.not_true, Bool.false_eq_true, if_false, h.idempotent hrudi, hoff,
    hp.sesPayloadLen]
  by_cases hwith : (s.dom.mr i).region.Within (M.start.toNat + off) (M.partLen off)
  · obtain ⟨o, hto⟩ := Region.toOffset_isSome.2 hwith
    have hfit := (Region.toOffset_eq_some.1 hto).2
    simp only [hto, mrScatter_eq s.mem haddrs, SesReq.length_read]
    rw [if_pos hfit]
    exact ⟨⟨_, rfl⟩, by simp [hwith]⟩
  · simp only [Region.toOffset_of_not_within hwith]
    exact ⟨⟨s.mem, rfl⟩, by simp [hwith]⟩

theorem Writable.withMem (m : Mem) : Writable M i { s with mem := m } :=
  { op := h.op, region := h.region, key := h.key, access := h.access, sized := h.sized
    idempotent := h.idempotent, accepted := ⟨h.accepted.cq, h.accepted.mtu, h.accepted.format⟩
    idle := h.idle, gen := h.gen, free := h.free }

theorem Writable.answers_rudi (hrudi : M.pds = .rudi)
    (haddrs : (s.dom.mr i).region.buf.addrs = some as) (hwrap : M.start.toNat + M.len < 2 ^ 64) {offs : List Nat}
    (hc : M.CarriedBy offs xs) : (∀ rc ∈ s.answers xs, rc = .ok) ↔
      ∀ off ∈ offs, (s.dom.mr i).region.Within (M.start.toNat + off) (M.partLen off) := by
  induction hc generalizing s with
  | nil => simp [RxEp.answers]
  | @cons off x offs xs hp hc ih =>
    obtain ⟨⟨m, hs1⟩, hans⟩ := h.answer_rudi hrudi hp haddrs hwrap x.1
    have hrest := ih (h.withMem m) haddrs
    rw [RxEp.answers, hs1]
    simp only [forall_mem_cons]
    exact and_congr hans hrest

theorem Writable.stored (hbase : (s.dom.mr i).region.baseVa = 0)
    (haddrs : (s.dom.mr i).region.buf.addrs = some as) (hn : as.Nodup) (hwrap : M.start.toNat + M.len < 2 ^ 64)
    (hin : (s.dom.mr i).region.Within M.start.toNat M.len) {offs : List Nat} (hc : M.CarriedBy offs xs)
    (ho : M.Offsets offs) : M.Stored as M.start.toNat s.mem (s.deliver xs).mem := by
  have hlen := MrBuf.length_addrs haddrs
  have hfit := hin.2
  rw [hbase, Nat.sub_zero] at hfit
  have hroom : M.start.toNat + M.len ≤ as.length := by omega
  have hstored := ho.stored hn hroom s.mem
  by_cases hrudi : M.pds = .rudi
  · have hr : RudiReady M as M.start.toNat i s :=
      ⟨h.region, h.access, h.idempotent hrudi, haddrs, by omega, hwrap, hfit⟩
    rw [deliver_rudi hr h.write hrudi hc]
    exact hstored
  · obtain ⟨id, hr⟩ := h.ready haddrs hfit
    obtain ⟨off, rest, rfl⟩ := exists_cons_of_ne_nil ho.ne_nil
    rw [(deliver_ready hr (fun _ => hrudi) hc ho).1, h.base]
    exact hstored

end

end

/-! ## Reads -/

def rxRdData (s : RxEp) (p : SesReq) : Except SesRc (List Byte) :=
  match rxRdReqPkt s p with
  | .error rc => .error rc
  | .ok (i, off, len) =>
    let got := mrGather s.mem (s.dom.mr i).region.buf off len
    if got.length = len then .ok got else .error .badAddr

/-- A packet of a read of the range from `off` on, which the endpoint answers from region
`i` if the range allows it. -/
structure Msg.Asks (M : Msg) (s : RxEp) (i : MrIdx) (off : Nat) (q : SesReq) : Prop where
  le : off ≤ M.len
  mtu : s.maxPayloadLen = M.mtu
  opcode : q.opcode = .read
  som : q.som = decide (off = 0)
  ie : q.ie = false
  gen : rmaGenErr s q = none
  matchBits : q.matchBits = M.matchBits
  region : getMrDesc s.dom s.ep q.matchBits q.jobId = some i
  access : (s.dom.mr i).access.remoteRead = true
  idempotent : q.pds = .rudi → (s.dom.mr i).fullKey &&& keyIdempotentSafe ≠ 0
  start : q.bufOff = M.start
  reqLen : q.reqLen.toNat = M.len
  msgOff : q.som = false → q.msgOff.toNat = off
  wordLen : q.som = false → q.wordLen = M.partLen off

section

variable {M : Msg} {as : List Nat} {off : Nat} {i : MrIdx} {s : RxEp} {q : SesReq}

theorem Msg.Asks.payloadLen (h : M.Asks s i off q) : q.payloadLen s.maxPayloadLen = M.partLen off := by
  rw [SesReq.payloadLen, h.opcode, h.reqLen, h.mtu]
  by_cases h0 : off = 0
  · have hsom : q.som = true := by rw [h.som, h0]; rfl
    rw [if_pos hsom, h0]
    simp only [Msg.partLen, tileLen, if_true]
    split <;> omega
  · have hsom : q.som = false := by rw [h.som]; simpa using h0
    rw [if_neg (by rw [hsom]; exact Bool.false_ne_true)]
    exact h.wordLen hsom

section

variable (h : M.Asks s i off q) (hwrap : M.start.toNat + M.len < 2 ^ 64)
include h hwrap

theorem Msg.Asks.address : (q.bufOff + if q.som then 0 else q.msgOff).toNat = M.start.toNat + off := by
  have hle := h.le
  rw [h.start]
  by_cases h0 : off = 0
  · have hsom : q.som = true := by rw [h.som, h0]; rfl
    rw [if_pos hsom, h0, Nat.add_zero]
    exact congrArg BitVec.toNat (BitVec.add_zero M.start)
  have hsom : q.som = false := by rw [h.som]; simpa using h0
  rw [if_neg (by rw [hsom]; exact Bool.false_ne_true), BitVec.toNat_add, h.msgOff hsom]
  exact Nat.mod_eq_of_lt (by omega)

theorem Msg.Asks.rxRdReqPkt :
    rxRdReqPkt s q =
      match (s.dom.mr i).region.toOffset (M.start.toNat + off) (M.partLen off) with
      | none => .error .badAddr
      | some o => .ok (i, o, M.partLen off) := by
  have hlen := h.payloadLen
  have haddr := h.address hwrap
  have hpart := M.partLen_le off
  have hidem : ¬ (q.pds = .rudi ∧ (s.dom.mr i).fullKey &&& keyIdempotentSafe = 0) :=
    fun hc => h.idempotent hc.1 hc.2
  unfold Uet.Ses.rxRdReqPkt
  simp only [hlen, h.reqLen, h.ie, h.gen, h.region, h.access, haddr, Bool.false_eq_true, if_false,
    Bool.not_true, if_neg hidem]
  refine (if_neg (by omega)).trans ?_
  cases (s.dom.mr i).region.toOffset (M.start.toNat + off) (M.partLen off) <;> rfl

theorem Msg.Asks.answered_iff :
    (∃ x, Uet.Ses.rxRdReqPkt s q = .ok x) ↔
      (s.dom.mr i).region.Within (M.start.toNat + off) (M.partLen off) := by
  rw [h.rxRdReqPkt hwrap, ← Region.toOffset_isSome]
  cases (s.dom.mr i).region.toOffset (M.start.toNat + off) (M.partLen off) <;> simp

theorem Msg.Asks.rxRdData (haddrs : (s.dom.mr i).region.buf.addrs = some as)
    (hin : (s.dom.mr i).region.Within M.start.toNat M.len) {m : Mem}
    (hstored : M.Stored as (M.start.toNat - (s.dom.mr i).region.baseVa) m s.mem) :
    rxRdData s q = .ok (part M.data off (M.partLen off)) := by
  have hle := h.le
  have hpart := M.partLen_le off
  have hlen := MrBuf.length_addrs haddrs
  obtain ⟨hlow, hhigh⟩ := hin
  have hto := Region.Within.part (M := M) ⟨hlow, hhigh⟩ h.le
  generalize hb : M.start.toNat - (s.dom.mr i).region.baseVa = base at hstored hto hhigh
  have hbytes : mrGather s.mem (s.dom.mr i).region.buf (base + off) (M.partLen off)
      = part M.data off (M.partLen off) := by
    rw [mrGather_eq s.mem haddrs, if_pos (by omega)]
    refine ext_getElem ?_ fun k h1 h2 => ?_
    · rw [length_map, length_take, length_drop, length_part (by unfold Msg.len at *; omega)]
      omega
    · rw [length_part (by unfold Msg.len at *; omega)] at h2
      have hget := hstored.bytes (off + k) (by unfold Msg.len at *; omega) (by omega)
      simp only [part, getElem_map, getElem_take, getElem_drop, Nat.add_assoc]
      exact hget
  rw [Uet.Ses.rxRdData, h.rxRdReqPkt hwrap, hto]
  simp only [hbytes]
  rw [if_pos (length_part (by unfold Msg.len at *; omega))]

end

end

/-! ## Atomics -/

def MrBuf.Aligned (b : MrBuf) (off : Nat) : Prop :=
  ∃ x n, b.piece off = some (x, n) ∧ 8 ≤ n ∧ x % 8 = 0

/-- An atomic on the range, which the endpoint does in region `i` if the range allows it. -/
structure Msg.AsksAtomic (M : Msg) (s : RxEp) (i : MrIdx) (p : SesReq) : Prop where
  len : M.len = 8
  matchBits : p.matchBits = M.matchBits
  region : getMrDesc s.dom s.ep p.matchBits p.jobId = some i
  access : (s.dom.mr i).access = ⟨true, true, true⟩
  start : p.bufOff = M.start
  aligned : (s.dom.mr i).region.Within M.start.toNat 8 →
    (s.dom.mr i).region.buf.Aligned (M.start.toNat - (s.dom.mr i).region.baseVa)

section

theorem MrBuf.piece_addr {b : MrBuf} {as : List Nat} (h : b.addrs = some as) {off x n : Nat}
    (hp : b.piece off = some (x, n)) (hn : 0 < n) (hlt : off < b.len) : as[off]? = some x := by
  unfold MrBuf.piece at hp
  unfold MrBuf.addrs at h
  cases hk : b.kind with
  | contig buf =>
    simp only [hk, Option.some.injEq, Prod.mk.injEq] at hp h
    obtain ⟨rfl, -⟩ := hp
    rw [← h]
    simp [run, hlt]
  | iov v =>
    simp only [hk, Option.some.injEq] at hp h
    rw [← h, getElem?_take_of_lt hlt]
    exact iovLocate_run hp hn
  | pbl q =>
    simp only [hk] at hp h
    obtain ⟨hlen, hall⟩ := Pbl.addrs_iff.1 h
    have hrun := q.resolve_run hp hn
    have hat := hall off (by omega)
    rw [Nat.zero_add] at hat
    rw [Nat.add_zero, Nat.add_zero, hat] at hrun
    rw [getElem?_eq_getElem (by omega), Option.some.injEq]
    exact Option.some.inj hrun

variable {M : Msg} {as : List Nat} {i : MrIdx} {s : RxEp} {p : SesReq}

theorem Msg.AsksAtomic.amoTarget_within (h : M.AsksAtomic s i p)
    (haddrs : (s.dom.mr i).region.buf.addrs = some as)
    (hin : (s.dom.mr i).region.Within M.start.toNat M.len) :
    ∃ x, as[M.start.toNat - (s.dom.mr i).region.baseVa]? = some x ∧ amoTarget s p = .ok (i, x) := by
  rw [h.len] at hin
  obtain ⟨x, n, hpiece, hn, hx⟩ := h.aligned hin
  obtain ⟨off, hto⟩ := Region.toOffset_isSome.2 hin
  obtain ⟨hoff, hfit⟩ := Region.toOffset_eq_some.1 hto
  obtain rfl : off = M.start.toNat - (s.dom.mr i).region.baseVa := by omega
  have hat : mrAtomicAddr (s.dom.mr i).region.buf (M.start.toNat - (s.dom.mr i).region.baseVa) 8
      = some x := mrAtomicAddr_eq_some.2 ⟨hfit, n, hpiece, hn, hx⟩
  refine ⟨x, MrBuf.piece_addr haddrs hpiece (by omega) (by omega), ?_⟩
  unfold amoTarget
  simp only [h.region, h.access, h.start, hto, hat, Bool.and_self, Bool.not_true, Bool.false_eq_true,
    if_false]

theorem Msg.AsksAtomic.amoTarget_outside (h : M.AsksAtomic s i p)
    (hout : ¬ (s.dom.mr i).region.Within M.start.toNat M.len) : amoTarget s p = .error .badAddr := by
  rw [h.len] at hout
  unfold amoTarget
  simp only [h.region, h.access, h.start, Region.toOffset_of_not_within hout, Bool.and_self,
    Bool.not_true, Bool.false_eq_true, if_false]

end

/-! ## The convention -/

/-- Writes, reads and atomics agree about the range of `M`: each is accepted where the range
lies in region `i`, at the distance of its address from the base, and a read after the write
returns the bytes written. -/
structure OneConvention (M : Msg) (i : MrIdx) (as : List Nat) (s : RxEp) : Prop where
  write : ∀ offs xs, M.CarriedBy offs xs → M.Offsets offs →
    ((∀ rc ∈ s.answers xs, rc = .ok) ↔ (s.dom.mr i).region.Within M.start.toNat M.len) ∧
      ((s.dom.mr i).region.Within M.start.toNat M.len →
        M.Stored as (M.start.toNat - (s.dom.mr i).region.baseVa) s.mem (s.deliver xs).mem)
  read : ∀ offs qs, List.Forall₂ (M.Asks s i) offs qs → M.Offsets offs →
    ((∀ q ∈ qs, ∃ x, rxRdReqPkt s q = .ok x) ↔
        (s.dom.mr i).region.Within M.start.toNat M.len) ∧
      ((s.dom.mr i).region.Within M.start.toNat M.len → List.Forall₂ (fun off q => rxRdReqPkt s q =
        .ok (i, M.start.toNat - (s.dom.mr i).region.baseVa + off, M.partLen off)) offs qs)
  atomic : ∀ p, M.AsksAtomic s i p →
    ((∃ x, amoTarget s p = .ok x) ↔ (s.dom.mr i).region.Within M.start.toNat M.len) ∧
      ∀ j x, amoTarget s p = .ok (j, x) →
        j = i ∧ as[M.start.toNat - (s.dom.mr i).region.baseVa]? = some x
  readBack : ∀ offs xs, M.CarriedBy offs xs → M.Offsets offs → (∀ rc ∈ s.answers xs, rc = .ok) →
    ∀ s' : RxEp, s'.mem = (s.deliver xs).mem → s'.dom = s.dom →
      ∀ off q, M.Asks s' i off q → rxRdData s' q = .ok (part M.data off (M.partLen off))

section

variable {M : Msg} {as : List Nat} {i : MrIdx} {s : RxEp}

theorem Msg.CarriedBy.le {offs : List Nat} {xs : Arrivals} (hc : M.CarriedBy offs xs) :
    ∀ off ∈ offs, off ≤ M.len := by
  induction hc with
  | nil => exact fun _ h => by cases h
  | cons hp _ ih => exact forall_mem_cons.2 ⟨hp.le, ih⟩

theorem Writable.answers_iff (h : Writable M i s) (hbase : (s.dom.mr i).region.baseVa = 0)
    (haddrs : (s.dom.mr i).region.buf.addrs = some as) (hwrap : M.start.toNat + M.len < 2 ^ 64)
    {offs : List Nat} {xs : Arrivals} (hc : M.CarriedBy offs xs) (ho : M.Offsets offs) :
    (∀ rc ∈ s.answers xs, rc = .ok) ↔ (s.dom.mr i).region.Within M.start.toNat M.len := by
  by_cases hrudi : M.pds = .rudi
  · rw [h.answers_rudi hrudi haddrs hwrap hc]
    exact ho.within_iff hc.le
  · rw [h.accepted_iff hrudi haddrs hwrap hc ho, Region.Within, hbase, Nat.sub_zero]
    exact ⟨fun hfit => ⟨Nat.zero_le _, hfit⟩, fun hfit => hfit.2⟩

theorem read_answers {offs : List Nat} {qs : List SesReq} (hwrap : M.start.toNat + M.len < 2 ^ 64)
    (hq : List.Forall₂ (M.Asks s i) offs qs) :
    ((∀ q ∈ qs, ∃ x, rxRdReqPkt s q = .ok x) ↔
        ∀ off ∈ offs, (s.dom.mr i).region.Within (M.start.toNat + off) (M.partLen off)) ∧
      ((s.dom.mr i).region.Within M.start.toNat M.len → List.Forall₂ (fun off q => rxRdReqPkt s q =
        .ok (i, M.start.toNat - (s.dom.mr i).region.baseVa + off, M.partLen off)) offs qs) := by
  induction hq with
  | nil => exact ⟨by simp, fun _ => .nil⟩
  | @cons off q offs qs hask _ ih =>
    refine ⟨?_, fun hin => .cons ?_ (ih.2 hin)⟩
    · rw [forall_mem_cons, forall_mem_cons]
      exact and_congr (hask.answered_iff hwrap) ih.1
    · rw [hask.rxRdReqPkt hwrap, hin.part hask.le]

end

def virtualReg : RegReq :=
  { userReg 0x8000000000000005 with region := ⟨⟨.pbl ⟨12, 0, .zero 4096⟩, 64, trivial⟩, 65536⟩ }

def virtualWrite (pds : PdsReq) (a : BitVec 64) : SesReq :=
  { writeAt a with pds, matchBits := 0x8000000000000005 }

def readOf (p : SesReq) : SesReq := { p with opcode := .read }

def sixteenBytes : Msg :=
  { op := .write, pds := .rud, key := ⟨1, 1, 1⟩, gen := 0, jobId := 0, matchBits := 5, initiator := 0
    start := 8, imm := none, mtu := 64, data := List.replicate 16 7, mtu_pos := by decide
    mtu_lt := by decide, len_lt := by decide }

end Uet.Ses
