import Uet.Dev.Datapath
import Uet.FreeIndex

/-!
# The completion queue between device and provider

The device writes an entry at its producer index as long as the consumer index it was last told leaves room,
with a phase that changes each time the index comes to the start of the ring. The provider reads the entry at its
consumer index if its phase is the one of the provider's lap. It reads a number of entries with `ibv_poll_cq`, or one at a time
with `ibv_start_poll`, `ibv_next_poll` and `ibv_end_poll`, and tells the device its index at the end.

An entry that has become current with `start_poll` or `next_poll` is passed over by the next `next_poll` or `end_poll`. A
call of `poll_cq` or `start_poll` in between reads the same entry again, and `poll_cq` passes over it a second time
(`NoCurrent` leaves these out).
-/

namespace Uet.Ref

open Guarded FreeIndex List Function
open Dev (Cq Cqe PostReq Opcode WcStatus cqPost)

/-! ## What a poll returns -/

/-- `enum ibv_wc_status`, as far as `uet_ref_wc_status` gives it. -/
inductive IbvStatus where
  | success | locProtErr | locQpOpErr | locAccessErr | locLenErr | wrFlushErr | generalErr
  deriving DecidableEq

/-- `uet_ref_wc_status`. -/
def wcStatus : WcStatus → IbvStatus
  | .success => .success
  | .badKey => .locProtErr
  | .badAddr => .locQpOpErr
  | .badJob => .locAccessErr
  | .badLocalAddr => .locProtErr
  | .tooLong => .locLenErr
  | .flushed => .wrFlushErr
  | .generalErr => .generalErr

/-- `enum ibv_wc_opcode`. -/
inductive WcOpcode where
  | send | rdmaWrite | rdmaRead | recv | recvRdmaWithImm
  deriving DecidableEq

def wcOpcode : Opcode → WcOpcode
  | .recv => .recv
  | .recvRdmaImm => .recvRdmaWithImm
  | .rdmaWrite | .rdmaWriteImm => .rdmaWrite
  | .rdmaRead => .rdmaRead
  | .send | .sendImm | .other _ => .send

/-- Whether `IBV_WC_WITH_IMM` is set. -/
def wcWithImm (c : Cqe) : Bool :=
  c.opcode == .sendImm || c.opcode == .rdmaWriteImm || c.opcode == .recvRdmaImm || c.immFlag

/-- `struct ibv_wc`. -/
structure Wc where
  wrId : BitVec 64
  status : IbvStatus
  opcode : WcOpcode
  byteLen : Nat
  qpNum : BitVec 32
  srcQp : Nat
  immData : BitVec 32
  withImm : Bool
  deriving DecidableEq

/-- What `uet_ref_poll_cq` makes of an entry. -/
def wcOf (c : Cqe) : Wc :=
  ⟨c.wrId, wcStatus c.status, wcOpcode c.opcode, c.byteLen, c.qpn, c.srcId, c.imm.setWidth 32, wcWithImm c⟩

/-! ## The queue -/

/-- `struct uet_ref_cq`; `cur` is the slot of the entry the cursor was last put on. -/
structure RefCq where
  entries : Nat
  cons : BitVec 32
  phase : Bool
  cur : Option Nat
  curValid : Bool

namespace RefCq

def next (q : RefCq) : Nat := q.cons.toNat % q.entries

/-- `uet_ref_cq_peek`. -/
def peek (q : RefCq) (mem : Nat → Cqe) : Option Cqe := if (mem q.next).valid = q.phase then some (mem q.next) else none

def move (q : RefCq) : RefCq :=
  { q with cons := q.cons + 1
           phase := if (q.cons + 1).toNat % q.entries = 0 then !q.phase else q.phase }

/-- `uet_ref_cq_advance`. -/
def advance (q : RefCq) : RefCq := { q.move with curValid := false }

/-- `uet_ref_cq_set_current`. -/
def setCurrent (q : RefCq) : RefCq := { q with cur := some q.next, curValid := true }

/-- The loop of `uet_ref_poll_cq`, with the entries it has read. -/
def pollLoop (mem : Nat → Cqe) : Nat → RefCq → RefCq × List Cqe
  | 0, q => (q, [])
  | num + 1, q =>
    match q.peek mem with
    | none => (q, [])
    | some c => ((pollLoop mem num q.move).1, c :: (pollLoop mem num q.move).2)

end RefCq

/-- Both sides of a completion queue, its memory, the entries that the device has written and those that the
provider has returned. -/
structure CqLink where
  dev : Cq
  ref : RefCq
  mem : Nat → Cqe
  written : List Cqe
  returned : List Cqe

/-- `uet_dev_cq_post`, the calls of the provider, and `ibv_req_notify_cq`. -/
inductive CqEv where
  | post (p : PostReq) (writes : Bool)
  | poll (num : Nat)
  | startPoll
  | nextPoll
  | endPoll
  | notify

namespace CqLink

def doorbell (s : CqLink) (arm : Bool) : CqLink :=
  { s with dev := { s.dev with ring := { s.dev.ring with cons := s.ref.cons }, armed := s.dev.armed || arm } }

def post (s : CqLink) (p : PostReq) (writes : Bool) : CqLink :=
  match cqPost s.dev p writes with
  | (dev, .written cqe) =>
    { s with dev
             mem := update s.mem (s.dev.ring.prod.toNat % s.dev.ring.desc.entries) cqe
             written := s.written ++ [cqe] }
  | (dev, _) => { s with dev }

/-- What a call of `uet_ref_poll_cq` reads. -/
def polled (s : CqLink) (num : Nat) : RefCq × List Cqe := s.ref.pollLoop s.mem num

/-- `uet_ref_poll_cq`: what it returns. -/
def pollCq (s : CqLink) (num : Nat) : List Wc := (s.polled num).2.map wcOf

/-- `uet_ref_poll_cq`: the queue after it. The device is told where anything was read. -/
def poll (s : CqLink) (num : Nat) : CqLink :=
  let s' : CqLink := { s with ref := (s.polled num).1, returned := s.returned ++ (s.polled num).2 }
  if (s.polled num).2.isEmpty then s' else s'.doorbell false

def setNext (s : CqLink) : CqLink :=
  match s.ref.peek s.mem with
  | none => s
  | some c => { s with ref := s.ref.setCurrent, returned := s.returned ++ [c] }

def passCurrent (s : CqLink) : CqLink := if s.ref.curValid then { s with ref := s.ref.advance } else s

def step (s : CqLink) : CqEv → CqLink
  | .post p writes => s.post p writes
  | .poll num => s.poll num
  | .startPoll => s.setNext
  | .nextPoll => s.passCurrent.setNext
  | .endPoll => s.passCurrent.doorbell false
  | .notify => s.doorbell true

/-- An entry after `memset`. -/
def zeroCqe : Cqe := ⟨0, 0, .success, .send, 0, false, 0, 0, 0, 0, false⟩

/-- A queue of `2 ^ k` entries as both sides create it; the other fields of the device's queue may be any. -/
def init (cq : Cq) (k : Nat) : CqLink :=
  { dev := { cq with ring := ⟨{ cq.ring.desc with entries := 2 ^ k }, 0, 0, true⟩, phase := true }
    ref := ⟨2 ^ k, 0, true, none, false⟩
    mem := fun _ => zeroCqe, written := [], returned := [] }

def NoCurrent (s : CqLink) : CqEv → Prop
  | .poll _ | .startPoll => s.ref.curValid = false
  | _ => True

instance (s : CqLink) (ev : CqEv) : Decidable (NoCurrent s ev) := by
  unfold NoCurrent
  split <;> infer_instance

end CqLink

/-! ## Laps -/

def lap (n i : Nat) : Bool := decide ((i / n) % 2 = 0)

theorem lap_succ {n : Nat} (i : Nat) : lap n (i + 1) = if (i + 1) % n = 0 then !lap n i else lap n i := by
  unfold lap
  rw [Nat.succ_div]
  by_cases h : (i + 1) % n = 0
  · rw [if_pos (Nat.dvd_of_mod_eq_zero h), if_pos h, ← decide_not]
    congr 1
    exact propext (by omega)
  · rw [if_neg (fun hd => h (Nat.mod_eq_zero_of_dvd hd)), if_neg h]
    rfl

theorem lap_add {n : Nat} (hn : 0 < n) (i : Nat) : lap n (i + n) = !lap n i := by
  unfold lap
  rw [Nat.add_div_right i hn, ← decide_not]
  congr 1
  exact propext (by omega)

theorem lap_first {n i : Nat} (h : i < n) : lap n i = true := by
  unfold lap
  rw [Nat.div_eq_of_lt h]
  rfl

/-- The memory of a ring: entries carry the phase of their lap, the last round of them is in its slots, and
slots that have not been written are blank. -/
structure Memory (n : Nat) (mem : Nat → Cqe) (written : List Cqe) : Prop where
  valid : ∀ i e, written[i]? = some e → e.valid = lap n i
  holds : Holds mem n written (written.length - n)
  blank : ∀ j, written.length ≤ j → j < n → (mem j).valid = false

theorem Memory.read {n : Nat} {mem : Nat → Cqe} {written : List Cqe} (h : Memory n mem written) (hn : 0 < n) {c : Nat}
    (hle : c ≤ written.length) (hround : written.length ≤ c + n) :
    (if (mem (c % n)).valid = lap n c then some (mem (c % n)) else none) = written[c]? := by
  rcases lt_or_eq_of_le hle with hlt | rfl
  · have hget := getElem?_eq_getElem hlt
    have hslot := h.holds c _ (by omega) hget
    rw [hget, hslot, if_pos (h.valid c _ hget)]
  rw [getElem?_eq_none le_rfl]
  apply if_neg
  rcases lt_or_ge written.length n with hfirst | hlater
  · -- the first lap has not come to this slot
    rw [Nat.mod_eq_of_lt hfirst, h.blank _ le_rfl hfirst, lap_first hfirst]
    exact Bool.false_ne_true
  -- the slot has the entry of the lap before
  have hold : written.length - n < written.length := by omega
  have hslot := h.holds _ _ le_rfl (getElem?_eq_getElem hold)
  have hmod : written.length % n = (written.length - n) % n := by rw [Nat.mod_eq_sub_mod hlater]
  have hlap : lap n written.length = !lap n (written.length - n) := by
    rw [← lap_add hn, Nat.sub_add_cancel hlater]
  rw [hmod, hslot, h.valid _ _ (getElem?_eq_getElem hold), hlap]
  exact (Bool.not_ne_self _).symm

theorem Memory.push {n : Nat} {mem : Nat → Cqe} {written : List Cqe} (h : Memory n mem written) {e : Cqe}
    (he : e.valid = lap n written.length) :
    Memory n (update mem (written.length % n) e) (written ++ [e]) := by
  have hlen : (written ++ [e]).length = written.length + 1 := length_append
  constructor
  · intro i x hx
    rcases lt_or_ge i written.length with hlt | hge
    · rw [getElem?_append_left hlt] at hx
      exact h.valid i x hx
    obtain ⟨hi, -⟩ := List.getElem?_eq_some_iff.mp hx
    obtain rfl : i = written.length := by omega
    rw [getElem?_concat_length] at hx
    cases hx
    exact he
  · rw [hlen]
    exact (h.holds.mono (by omega)).push (by omega) e
  · intro j hj hlt
    rw [hlen] at hj
    have hne : j ≠ written.length % n := by
      rw [Nat.mod_eq_of_lt (by omega)]
      omega
    rw [update_of_ne hne]
    exact h.blank j (by omega) hlt

/-! ## The provider's side -/

/-- The provider is at count `c`. -/
structure RefAt (n : Nat) (q : RefCq) (c : Nat) : Prop where
  entries : q.entries = n
  cons : q.cons = BitVec.ofNat 32 c
  phase : q.phase = lap n c

section

variable {n : Nat} {q : RefCq} {mem : Nat → Cqe} {written : List Cqe} {c : Nat}

theorem RefAt.next (h : RefAt n q c) (hdvd : n ∣ 2 ^ 32) : q.next = c % n := by
  rw [RefCq.next, h.entries, h.cons]
  exact toNat_ofNat_mod hdvd c

theorem RefAt.peek (h : RefAt n q c) (hdvd : n ∣ 2 ^ 32) (hn : 0 < n) (hm : Memory n mem written)
    (hle : c ≤ written.length) (hround : written.length ≤ c + n) : q.peek mem = written[c]? := by
  rw [← hm.read hn hle hround, RefCq.peek, h.next hdvd, h.phase]

theorem RefAt.move (h : RefAt n q c) (hdvd : n ∣ 2 ^ 32) : RefAt n q.move (c + 1) := by
  have hcons : q.cons + 1 = BitVec.ofNat 32 (c + 1) := by
    rw [h.cons]
    exact ofNat_succ c
  refine ⟨h.entries, hcons, ?_⟩
  show (if (q.cons + 1).toNat % q.entries = 0 then !q.phase else q.phase) = _
  rw [hcons, h.entries, toNat_ofNat_mod hdvd, h.phase, lap_succ]

theorem RefAt.pollLoop (hdvd : n ∣ 2 ^ 32) (hn : 0 < n) (hm : Memory n mem written) (num : Nat) {q : RefCq} {c : Nat}
    (h : RefAt n q c) (hle : c ≤ written.length) (hround : written.length ≤ c + n) :
    (q.pollLoop mem num).2 = (written.drop c).take num ∧
      RefAt n (q.pollLoop mem num).1 (c + ((written.drop c).take num).length) ∧
      (q.pollLoop mem num).1.curValid = q.curValid := by
  induction num generalizing q c with
  | zero => exact ⟨rfl, h, rfl⟩
  | succ num ih =>
    have hpeek := h.peek hdvd hn hm hle hround
    rcases lt_or_eq_of_le hle with hlt | rfl
    · rw [getElem?_eq_getElem hlt] at hpeek
      obtain ⟨hread, hat, hcur⟩ := ih (h.move hdvd) hlt (by omega)
      have hdrop := drop_eq_getElem_cons hlt
      simp only [RefCq.pollLoop, hpeek]
      rw [hdrop, take_succ_cons]
      refine ⟨by rw [hread], ?_, hcur⟩
      rw [length_cons, add_comm _ 1, ← add_assoc]
      exact hat
    · rw [getElem?_eq_none le_rfl] at hpeek
      have hloop : q.pollLoop mem (num + 1) = (q, []) := by simp only [RefCq.pollLoop, hpeek]
      rw [hloop, drop_length, take_nil]
      exact ⟨rfl, h, rfl⟩

end

/-! ## Both sides -/

/-- The device has written all of `written`, was last told count `d`, and the provider is at count `c`. What the
provider has returned are the entries before that, and the current one. -/
structure CqOk (n : Nat) (s : CqLink) (c d : Nat) : Prop where
  size : ∃ k ≤ 31, n = 2 ^ k
  live : s.dev.ring.live = true
  entries : s.dev.ring.desc.entries = n
  prod : s.dev.ring.prod = BitVec.ofNat 32 s.written.length
  phase : s.dev.phase = lap n s.written.length
  told : s.dev.ring.cons = BitVec.ofNat 32 d
  told_le : d ≤ c
  room : s.written.length ≤ d + n
  ref : RefAt n s.ref c
  memory : Memory n s.mem s.written
  cons_le : c ≤ s.written.length
  returned : s.returned = s.written.take (c + s.ref.curValid.toNat)
  current : s.ref.curValid = true → c < s.written.length ∧ s.ref.cur = some (c % n)

namespace CqOk

variable {n : Nat} {s : CqLink} {c d : Nat}

section

variable (h : CqOk n s c d)
include h

theorem pos : 0 < n := by
  obtain ⟨k, -, he⟩ := h.size
  rw [he]
  exact Nat.two_pow_pos k

theorem dvd : n ∣ 2 ^ 32 := by
  obtain ⟨k, hk, he⟩ := h.size
  rw [he]
  exact Nat.pow_dvd_pow 2 (by omega)

theorem lt : n < 2 ^ 32 := by
  obtain ⟨k, hk, he⟩ := h.size
  rw [he]
  exact Nat.pow_lt_pow_right (by decide) (by omega)

theorem peek : s.ref.peek s.mem = s.written[c]? := by
  have hroom := h.room
  have htold := h.told_le
  exact h.ref.peek h.dvd h.pos h.memory h.cons_le (by omega)

theorem doorbell (arm : Bool) : CqOk n (s.doorbell arm) c c := by
  have hroom := h.room
  have htold := h.told_le
  refine { h with told := h.ref.cons, told_le := le_rfl, room := ?_ }
  show s.written.length ≤ c + n
  omega

theorem post (p : PostReq) (writes : Bool) : CqOk n (s.post p writes) c d := by
  have hroom := h.room
  have htold := h.told_le
  have hle := h.cons_le
  have hlt := h.lt
  have hused : (s.dev.ring.prod - s.dev.ring.cons).toNat = s.written.length - d := by
    rw [h.prod, h.told]
    exact Spsc.toNat_sub_ofNat (by omega) (by omega)
  unfold CqLink.post cqPost
  rw [h.live, if_neg (by decide), h.entries, hused]
  by_cases hfull : n ≤ s.written.length - d
  · rw [if_pos hfull]
    exact h
  rw [if_neg hfull]
  dsimp only
  cases writes with
  | false => exact h
  | true =>
    rw [if_neg (by decide), h.prod, toNat_ofNat_mod h.dvd]
    have hlen : ∀ e : Cqe, (s.written ++ [e]).length = s.written.length + 1 := fun e => length_append
    refine { h with
      prod := ?_, phase := ?_, room := ?_, memory := h.memory.push h.phase, cons_le := ?_, returned := ?_
      current := ?_ }
    · rw [hlen]
      exact ofNat_succ _
    · have hsucc : BitVec.ofNat 32 s.written.length + 1 = BitVec.ofNat 32 (s.written.length + 1) := ofNat_succ _
      rw [hlen, hsucc, toNat_ofNat_mod h.dvd, h.phase, lap_succ]
    · rw [hlen]
      omega
    · rw [hlen]
      omega
    · rw [h.returned]
      symm
      apply take_append_of_le_length
      cases hcur : s.ref.curValid with
      | false => exact hle
      | true => exact (h.current hcur).1
    · intro hcur
      obtain ⟨hc, hslot⟩ := h.current hcur
      refine ⟨?_, hslot⟩
      rw [hlen]
      omega

theorem poll (hno : s.ref.curValid = false) (num : Nat) :
    (s.polled num).2 = (s.written.drop s.returned.length).take num ∧ ∃ c' d', CqOk n (s.poll num) c' d' := by
  have hroom := h.room
  have htold := h.told_le
  have hle := h.cons_le
  have hret : s.returned = s.written.take c := by
    rw [h.returned, hno]
    rfl
  have hlen : s.returned.length = c := by
    rw [hret, length_take]
    omega
  obtain ⟨hread, hat, hcur⟩ := RefAt.pollLoop h.dvd h.pos h.memory num h.ref hle (by omega)
  have hcount : c + ((s.written.drop c).take num).length ≤ s.written.length := by
    rw [length_take, length_drop]
    omega
  have hok : CqOk n { s with ref := (s.polled num).1, returned := s.returned ++ (s.polled num).2 }
      (c + ((s.written.drop c).take num).length) d := by
    refine { h with ref := hat, told_le := ?_, cons_le := hcount, returned := ?_, current := ?_ }
    · omega
    · have hfalse : (s.polled num).1.curValid = false := hcur.trans hno
      have hread' : (s.polled num).2 = (s.written.drop c).take num := hread
      rw [hfalse, hread', hret]
      show _ = s.written.take (c + ((s.written.drop c).take num).length)
      rw [take_add]
      exact congrArg _ (prefix_iff_eq_take.mp (List.take_prefix num (s.written.drop c)))
    · intro hv
      exact absurd ((hcur.trans hno).symm.trans hv) Bool.false_ne_true
  refine ⟨by rw [hlen]; exact hread, ?_⟩
  unfold CqLink.poll
  split
  · exact ⟨_, _, hok⟩
  · exact ⟨_, _, hok.doorbell false⟩

theorem setNext (hno : s.ref.curValid = false) : CqOk n s.setNext c d := by
  unfold CqLink.setNext
  rw [h.peek]
  rcases lt_or_ge c s.written.length with hlt | hge
  · rw [getElem?_eq_getElem hlt]
    refine { h with ref := ⟨h.ref.entries, h.ref.cons, h.ref.phase⟩, returned := ?_, current := ?_ }
    · rw [h.returned, hno]
      exact take_append_getElem hlt
    · intro _
      exact ⟨hlt, congrArg some (h.ref.next h.dvd)⟩
  · rw [getElem?_eq_none hge]
    exact h

theorem passCurrent : ∃ c', CqOk n s.passCurrent c' d ∧ s.passCurrent.ref.curValid = false := by
  have htold := h.told_le
  unfold CqLink.passCurrent
  cases hcur : s.ref.curValid with
  | false =>
    rw [if_neg Bool.false_ne_true]
    exact ⟨c, h, hcur⟩
  | true =>
    rw [if_pos rfl]
    obtain ⟨hlt, -⟩ := h.current hcur
    have hmove := h.ref.move h.dvd
    refine ⟨c + 1, { h with
      told_le := by omega, ref := ⟨hmove.entries, hmove.cons, hmove.phase⟩, cons_le := hlt, returned := ?_
      current := fun hv => nomatch hv }, rfl⟩
    rw [h.returned, hcur]
    rfl

theorem step {ev : CqEv} (hev : s.NoCurrent ev) : ∃ c' d', CqOk n (s.step ev) c' d' := by
  cases ev with
  | post => exact ⟨c, d, h.post ..⟩
  | poll => exact (h.poll hev ..).2
  | startPoll => exact ⟨c, d, h.setNext hev⟩
  | nextPoll =>
    obtain ⟨c', h', hno⟩ := h.passCurrent
    exact ⟨c', d, h'.setNext hno⟩
  | endPoll =>
    obtain ⟨c', h', -⟩ := h.passCurrent
    exact ⟨c', c', h'.doorbell false⟩
  | notify => exact ⟨c, c, h.doorbell true⟩

end

end CqOk

open CqLink

theorem cqOk_init (cq : Cq) {k : Nat} (hk : k ≤ 31) : CqOk (2 ^ k) (init cq k) 0 0 := by
  have hlap : lap (2 ^ k) 0 = true := lap_first (Nat.two_pow_pos k)
  constructor
  case size => exact ⟨k, hk, rfl⟩
  case live => rfl
  case entries => rfl
  case prod => rfl
  case phase => exact hlap.symm
  case told => rfl
  case told_le => exact le_rfl
  case room => exact Nat.zero_le _
  case ref => exact ⟨rfl, rfl, hlap.symm⟩
  case memory => exact ⟨fun i e h => (by rw [show (init cq k).written = [] from rfl, getElem?_nil] at h; cases h),
    holds_nil, fun _ _ _ => rfl⟩
  case cons_le => exact le_rfl
  case returned => rfl
  case current => exact fun h => nomatch h

/-- A queue between device and provider: what has been returned is the first part of what was written and not
dropped, in order and each entry once; a poll that begins without a current entry returns the next entries, as many as
there are; and where there is an entry after the current one, or after what has been returned, the cursor goes to it. -/
structure CqFifo (s : CqLink) : Prop where
  order : s.returned = s.written.take s.returned.length
  poll : s.ref.curValid = false → ∀ num, s.pollCq num = ((s.written.drop s.returned.length).take num).map wcOf
  start : s.ref.curValid = false → (s.step .startPoll).returned = s.written.take (s.returned.length + 1)
  next : (s.step .nextPoll).returned = s.written.take (s.returned.length + 1)
  current : s.ref.curValid = true → ∃ i, s.ref.cur = some i ∧ s.returned.getLast? = some (s.mem i)

theorem CqOk.returned_take {n : Nat} {s : CqLink} {c d : Nat} (h : CqOk n s c d) :
    s.returned = s.written.take s.returned.length ∧ s.returned.length = c + s.ref.curValid.toNat := by
  have hle : c + s.ref.curValid.toNat ≤ s.written.length := by
    cases hcur : s.ref.curValid with
    | false => exact h.cons_le
    | true => exact (h.current hcur).1
  have hlen : s.returned.length = c + s.ref.curValid.toNat := by
    rw [h.returned, length_take]
    omega
  refine ⟨?_, hlen⟩
  rw [hlen]
  exact h.returned

theorem CqOk.setNext_returned {n : Nat} {s : CqLink} {c d : Nat} (h : CqOk n s c d) (hno : s.ref.curValid = false) :
    s.setNext.returned = s.written.take (s.returned.length + 1) := by
  obtain ⟨htake, hlen⟩ := h.returned_take
  rw [hno, Bool.toNat_false, add_zero] at hlen
  unfold CqLink.setNext
  rw [h.peek, hlen]
  rcases lt_or_ge c s.written.length with hlt | hge
  · rw [getElem?_eq_getElem hlt]
    rw [htake, hlen]
    exact take_append_getElem hlt
  · rw [getElem?_eq_none hge]
    rw [htake, hlen, take_of_length_le hge, take_of_length_le (by omega)]

theorem CqOk.fifo {n : Nat} {s : CqLink} {c d : Nat} (h : CqOk n s c d) : CqFifo s := by
  obtain ⟨htake, hlen⟩ := h.returned_take
  refine ⟨htake, ?_, ?_, ?_, ?_⟩
  · intro hno num
    unfold CqLink.pollCq
    rw [(h.poll hno num).1]
  · exact h.setNext_returned
  · obtain ⟨c', h', hno⟩ := h.passCurrent
    have hsame : s.passCurrent.returned = s.returned ∧ s.passCurrent.written = s.written := by
      unfold CqLink.passCurrent
      split <;> exact ⟨rfl, rfl⟩
    rw [← hsame.1, ← hsame.2]
    exact h'.setNext_returned hno
  · intro hcur
    obtain ⟨hlt, hslot⟩ := h.current hcur
    have hroom := h.room
    have htold := h.told_le
    refine ⟨_, hslot, ?_⟩
    have hget := getElem?_eq_getElem hlt
    rw [h.memory.holds c _ (by omega) hget]
    rw [hcur, Bool.toNat_true] at hlen
    rw [htake, hlen, ← take_append_getElem hlt, getLast?_concat]

/-- Queues of every size are queues, in every run of posts and polls in which no poll begins while an entry is
current, for as many laps as it takes. -/
theorem cq_fifo (cq : Cq) (k : Nat) (hk : k ≤ 31) (evs : List CqEv) (hrun : Meets step NoCurrent (init cq k) evs) :
    CqFifo (evs.foldl step (init cq k)) := by
  have hok : ∃ c d, CqOk (2 ^ k) (evs.foldl step (init cq k)) c d :=
    hrun.keep (P := fun s => ∃ c d, CqOk (2 ^ k) s c d) (fun _ _ ⟨_, _, h⟩ hev => h.step hev) ⟨0, 0, cqOk_init cq hk⟩
  obtain ⟨c, d, h⟩ := hok
  exact h.fifo

def someCq : Cq := ⟨0, 2, 1, 0, 0, ⟨⟨1, 4096, 2⟩, 0, 0, true⟩, true, false⟩

def completion (wrId : BitVec 64) : CqEv := .post ⟨1, { Dev.Work.zero with wrId }, .success, 0, 0, 0, 0⟩ true

/-- Six completions for a queue of two entries: the third one finds it full; two are read with `poll_cq` and three with
the cursor. -/
def fiveOfSix : List CqEv :=
  [completion 1, completion 2, completion 3, .poll 8, completion 4, completion 5, .startPoll, .nextPoll, .endPoll,
    completion 6, .startPoll, .endPoll]

theorem cq_fifo_laps :
    CqFifo (fiveOfSix.foldl step (init someCq 1)) ∧
      (fiveOfSix.foldl step (init someCq 1)).returned.map Cqe.wrId = [1, 2, 4, 5, 6] :=
  ⟨cq_fifo someCq 1 (by decide) fiveOfSix (by decide), by decide⟩

/-- With an entry current, `poll_cq` returns it again, and `end_poll` then passes over the entry after it, which is
never returned. -/
theorem poll_inside_cursor :
    ¬ CqFifo ([completion 1, completion 2, .startPoll, .poll 1, .endPoll].foldl step (init someCq 1)) ∧
      ([completion 1, completion 2, .startPoll, .poll 1, .endPoll, .poll 8].foldl step (init someCq 1)).returned.map
        Cqe.wrId = [1, 1] := by
  refine ⟨fun h => ?_, by decide⟩
  have horder := congrArg (List.map Cqe.wrId) h.order
  exact absurd horder (by decide)

end Uet.Ref
