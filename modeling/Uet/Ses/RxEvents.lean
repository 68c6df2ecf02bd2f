import Uet.Ses.RxMsg

/-!
# The endpoint over time

The other functions that move receive descriptors (posting a receive, the cancel packet,
reading the completion queue, the two timeouts), the read and atomic requests on the regions
of the domain, and the runs an endpoint goes through: any sequence of these with the
operations on the regions in between.
-/

namespace Uet.Ses

open Flat

/-! ## Posting a receive -/

/-- `uet_recv_api_common`: a tagged receive has its key; the buffer is a vector of the
process or a segment list. -/
structure RecvReq where
  tagKey : Option TagKey
  buf : List Iovec ⊕ List MrSeg
  jobId : JobId
  context : Nat

/-- `uet_seg_validate`. -/
def segValidate (d : Domain) (segs : List MrSeg) : Bool :=
  !segs.isEmpty && segs.all fun g =>
    match g.mr with
    | none => false
    | some i => (d.mr i).state == .enabled && ((d.mr i).region.toOffset g.addr g.len).isSome

/-- The length of the buffer, `uet_seg_total_len` for a segment list. -/
def RecvReq.len (q : RecvReq) : Nat :=
  match q.buf with
  | .inl iov => (iov.map Iovec.len).sum
  | .inr segs => (segs.map MrSeg.len).sum

def RecvReq.desc (q : RecvReq) : RxDesc :=
  { RxDesc.zero with
    postCq := true
    kind := match q.buf with
      | .inl [_] => .contig
      | .inl iov => .iov iov
      | .inr segs => .seg segs
    buf := match q.buf with
      | .inl [v] => v.base
      | _ => 0
    len := q.len, context := q.context, jobId := q.jobId
    cqFlags := ⟨true, q.tagKey.isNone, q.tagKey.isSome, false⟩
    tagKey := q.tagKey.getD RxDesc.zero.tagKey }

def RecvReq.valid (q : RecvReq) (d : Domain) : Bool :=
  match q.buf with
  | .inl _ => true
  | .inr segs => segValidate d segs

/-- `uet_recv_api_common`; a refused receive leaves the endpoint as it is. -/
def recvApiCommon (s : RxEp) (q : RecvReq) : RxEp :=
  if s.cqDown || !q.valid s.dom then s
  else
    match rxDescListPop s with
    | none => s
    | some (id, s) =>
      let s := s.setDesc id fun _ => q.desc
      match q.tagKey with
      | none =>
        let s := { s with ring := s.ring ++ [id] }
        if s.untaggedGenDisabled then
          { s with untaggedGen := s.untaggedGen + 1, untaggedGenDisabled := false }
        else s
      | some _ =>
        let s := { s with tags := id :: s.tags }
        if s.taggedGenDisabled then
          { s with taggedGen := s.taggedGen + 1, taggedGenDisabled := false }
        else s

/-! ## Cancel, timeouts, the completion queue -/

/-- `uet_rx_cancel_pkt`. -/
def rxCancelPkt (s : RxEp) (now : Nat) (p : SesReq) : RxEp × SesRc :=
  match rxMsgHashLookup s p.msgKey with
  | none => (s, .opViolation)
  | some id =>
    let s := rxDescActiveListMoveToTail s now id
    let d := s.desc id
    if d.sesRc ≠ .ok ∧ d.cancelled then (rxCqPostErr s id fiEio, .opViolation)
    else
      let s := if d.sesRc = .ok then (rxMsgErr s now p 0 (some id) .initiatorErr).1 else s
      let s := s.setDesc id fun d => { d with cancelled := true }
      if p.som || !p.eom then (rxCqPostErr s id fiEio, .opViolation)
      else
        match rxMsgTruncate p (s.desc id) with
        | none => (rxCqPostErr s id fiEio, .opViolation)
        | some 0 =>
          (rxCqPostErr (s.setRemaining id 0) id fiEio, .opViolation)
        | some left =>
          (s.setRemaining id left,
            if d.sesRc = .ok then .initiatorErr else d.sesRc)

/-- The loop of `uet_rx_msg_age`; every turn takes the oldest message off the list. -/
def rxMsgAgeLoop (now : Nat) : Nat → RxEp → RxEp
  | 0, s => s
  | fuel + 1, s =>
    match s.active with
    | [] => s
    | id :: _ =>
      if now - (s.desc id).prevPktTime < s.idleTimeout then s
      else rxMsgAgeLoop now fuel (rxCqPostErr s id fiEio)

/-- `uet_rx_msg_age`. -/
def rxMsgAge (s : RxEp) (now : Nat) : RxEp := rxMsgAgeLoop now s.active.length s

/-- One entry in the loop of `uet_rx_sync_grp_age`. -/
def rxSyncGrpAgeOne (now : Nat) (s : RxEp) (e : SyncId) : RxEp :=
  let g := s.sync e
  if g.timeout < now ∧ g.curCnt = g.cmplCnt then
    let s := match g.terminatingRxDesc with
      | some t => rxCqPostErr s t fiEio
      | none => s
    syncGrpSrcFepHashRemove s e
  else s

/-- `uet_rx_sync_grp_age`. -/
def rxSyncGrpAge (s : RxEp) (now : Nat) : RxEp := s.syncs.foldl (rxSyncGrpAgeOne now) s

/-- One entry of `uet_cq_read` or `uet_cq_readerr`: the descriptor becomes available. -/
def rxCqRead (s : RxEp) (err : Bool) : RxEp :=
  match s.cq with
  | [] => s
  | entry :: rest =>
    if entry.err.isSome = err then rxDescListInsert { s with cq := rest } entry.desc else s

/-! ## Read and atomic requests -/

def rmaGenErr (s : RxEp) (p : SesReq) : Option SesRc :=
  if s.untaggedGenDisabled then some .disabledGen
  else if p.gen ≠ s.untaggedGen then some .badGeneration
  else none

/-- `uet_rx_rd_req_pkt` up to the response: the region, offset and length read. Whether the
data travels in the ACK or in a response message, and whether the descriptor or buffer of
the response can be had, is decided outside. -/
def rxRdReqPkt (s : RxEp) (p : SesReq) : Except SesRc (MrIdx × Nat × Nat) :=
  let len := p.payloadLen s.maxPayloadLen
  let bufOff := p.bufOff + if p.som then 0 else p.msgOff
  if p.reqLen.toNat < len then .error .opViolation
  else if p.ie then .error .initiatorErr
  else
    match rmaGenErr s p with
    | some rc => .error rc
    | none =>
      match getMrDesc s.dom s.ep p.matchBits p.jobId with
      | none => .error .badMkey
      | some i =>
        let r := s.dom.mr i
        if !r.access.remoteRead then .error .permViolation
        else if p.pds = .rudi ∧ r.fullKey &&& keyIdempotentSafe = 0 then .error .opViolation
        else
          match r.region.toOffset bufOff.toNat len with
          | none => .error .badAddr
          | some off => .ok (i, off, len)

inductive Amo where
  | sum | cswap | other
  deriving DecidableEq, Repr

structure AtomicExt where
  uint64 : Bool
  opcode : Amo
  data : BitVec 64
  cmpVal : BitVec 64
  swpVal : BitVec 64

def iovLocate : List Iovec → Nat → Option (Nat × Nat)
  | [], _ => none
  | v :: vs, rem => if rem < v.len then some (v.base + rem, v.len - rem) else iovLocate vs (rem - v.len)

theorem iovLocate_run {iov : List Iovec} {off x n : Nat} (h : iovLocate iov off = some (x, n)) {k : Nat}
    (hk : k < n) : (iovAddrs iov)[off + k]? = some (x + k) := by
  induction iov generalizing off with
  | nil => cases h
  | cons v vs ih =>
    rw [iovLocate] at h
    split at h
    · cases h
      rw [iovAddrs_cons, List.getElem?_append_left (by rw [length_run]; omega),
        List.getElem?_eq_getElem (by rw [length_run]; omega), getElem_run, Nat.add_assoc]
    have hnext := ih h
    rw [iovAddrs_cons, List.getElem?_append_right (by rw [length_run]; omega), length_run]
    rwa [show off + k - v.len = off - v.len + k by omega]

/-- `uet_mr_atomic_addr`. -/
def mrAtomicAddr (b : MrBuf) (off len : Nat) : Option Nat :=
  if b.len < off ∨ b.len - off < len then none
  else
    let located := match b.kind with
      | .contig buf => some (buf + off, b.len - off)
      | .iov iov => iovLocate iov off
      | .pbl p => p.resolve b.len off
    match located with
    | none => none
    | some (a, runLen) => if runLen < len ∨ a % len ≠ 0 then none else some a

/-- The piece of memory that holds a byte of the region: its address, and how many bytes
follow it in the piece. -/
def MrBuf.piece (b : MrBuf) (off : Nat) : Option (Nat × Nat) :=
  match b.kind with
  | .contig buf => some (buf + off, b.len - off)
  | .iov iov => iovLocate iov off
  | .pbl p => p.resolve b.len off

theorem mrAtomicAddr_eq_some {b : MrBuf} {off len a : Nat} : mrAtomicAddr b off len = some a ↔
    off + len ≤ b.len ∧ ∃ n, b.piece off = some (a, n) ∧ len ≤ n ∧ a % len = 0 := by
  by_cases hfit : off + len ≤ b.len
  · rw [mrAtomicAddr, if_neg (by omega)]
    change (match b.piece off with | none => none | some (x, n) => _) = _ ↔ _
    cases b.piece off with
    | none => simp
    | some x => grind
  · rw [mrAtomicAddr, if_pos (by omega)]
    exact ⟨nofun, fun h => absurd h.1 hfit⟩

/-- The lookup and the checks both atomic requests make on the region: its descriptor and
the address of the operand. -/
def amoTarget (s : RxEp) (p : SesReq) : Except SesRc (MrIdx × Nat) :=
  match getMrDesc s.dom s.ep p.matchBits p.jobId with
  | none => .error .badMkey
  | some i =>
    let r := s.dom.mr i
    if !(r.access.atomic && r.access.remoteRead && r.access.remoteWrite) then .error .permViolation
    else
      match r.region.toOffset p.bufOff.toNat 8 with
      | none => .error .badAddr
      | some off =>
        match mrAtomicAddr r.region.buf off 8 with
        | none => .error .badAddr
        | some a => .ok (i, a)

/-- The checks of the request itself, in order; `lens` is the length an operation asks for. -/
def amoReqErr (s : RxEp) (p : SesReq) (ext : AtomicExt) (lens : Amo → Option Nat) : Option SesRc :=
  if p.ie then some .initiatorErr
  else
    match rmaGenErr s p with
    | some rc => some rc
    | none =>
      if !(p.som && p.eom) then some .opViolation
      else if !ext.uint64 then some .unsupportedOp
      else
        match lens ext.opcode with
        | none => some .unsupportedOp
        | some n =>
          if p.reqLen.toNat ≠ n ∨ p.sesPayloadLen ≠ n then some .opViolation else none

def SyncEntry.addAtomic (p : SesReq) (g : SyncEntry) : SyncEntry :=
  { g with
    terminatingAtomic := true, cmplCnt := g.cmplCnt + 1, curCnt := g.curCnt + 1
    totCnt := if p.syncCnt < g.curCnt + 1 then g.curCnt + 1 else p.syncCnt }

def amoSyncGrp (s : RxEp) (env : RxEnv) (p : SesReq) : RxEp × Option SyncId × SesRc :=
  let key : SyncKey := ⟨p.src, p.syncGrp⟩
  match s.syncs.find? fun e => (s.sync e).key == key with
  | some e =>
    if (s.sync e).totCnt ≠ 0 then (s, some e, .opViolation)
    else
      let g := (s.sync e).addAtomic p
      let rc : SesRc := bif p.syncCnt < (s.sync e).curCnt + 1 then .opViolation else .ok
      let s := s.setSync e fun _ => g
      if g.cmplCnt = g.totCnt then (syncGrpSrcFepHashRemove s e, none, rc)
      else (s, some e, rc)
  | none =>
    if p.syncCnt = 0 then (s, none, .opViolation)
    else if p.syncCnt ≠ 1 then
      if env.calloc then
        let e := s.nextSync
        ({ s.setSync e fun _ => { SyncEntry.new key (env.now + s.syncLifetime) with
            terminatingAtomic := true, curCnt := 1, cmplCnt := 1, totCnt := p.syncCnt } with
          syncs := e :: s.syncs, nextSync := e + 1 }, some e, .ok)
      else (s, none, .uncorTrnsnt)
    else (s, none, .ok)

def amoErrExit (s : RxEp) (entry : Option SyncId) : RxEp :=
  match entry with
  | some e => s.setSync e fun g => { g with terminatingErr := true }
  | none => s

def amoSum (s : RxEp) (entry : Option SyncId) (a : Nat) (data : BitVec 64) : RxEp :=
  match entry with
  | some e => s.setSync e fun g => { g with atomicAddr := a, atomicData := data }
  | none => { s with mem := fetchAdd64 s.mem a data }

/-- `uet_rx_atomic_req_pkt`. -/
def rxAtomicReqPkt (s : RxEp) (env : RxEnv) (p : SesReq) (ext : AtomicExt) (sync : Bool) :
    RxEp × SesRc :=
  let (s, entry, rc) := if sync then amoSyncGrp s env p else (s, none, .ok)
  if rc ≠ .ok then (amoErrExit s entry, rc)
  else
    match amoReqErr s p ext fun o => if o = .sum then some 8 else none with
    | some rc => (amoErrExit s entry, rc)
    | none =>
      match amoTarget s p with
      | .error rc => (amoErrExit s entry, rc)
      | .ok (_, a) => (amoSum s entry a ext.data, .ok)

/-- `uet_rx_fetch_atomic_req_pkt`: the value before the operation goes back. -/
def rxFetchAtomicReqPkt (s : RxEp) (p : SesReq) (ext : AtomicExt) :
    RxEp × Except SesRc (BitVec 64) :=
  let lens : Amo → Option Nat
    | .sum => some 8
    | .cswap => some 32
    | .other => none
  match amoReqErr s p ext lens with
  | some rc => (s, .error rc)
  | none =>
    match amoTarget s p with
    | .error rc => (s, .error rc)
    | .ok (_, a) =>
      let old := peek64 s.mem a
      let m := if ext.opcode = .sum then memcpy s.mem a (bytes64 (old + ext.data))
        else if old = ext.cmpVal then memcpy s.mem a (bytes64 ext.swpVal) else s.mem
      ({ s with mem := m }, .ok old)

inductive RxEv where
  | req (env : RxEnv) (p : SesReq)
  | atomic (env : RxEnv) (p : SesReq) (ext : AtomicExt)
  | recv (q : RecvReq)
  | msgAge (now : Nat)
  | syncGrpAge (now : Nat)
  | cqRead (err : Bool)
  | mrOp (o : MrOp)

/-- The dispatch of `uet_pds_to_ses_rx_req` on the opcode, for the requests without an
atomic extension. -/
def rxReq (s : RxEp) (env : RxEnv) (p : SesReq) : RxEp × SesRc :=
  match p.opcode with
  | .send | .deferSend => rxReqPkt s env p false false false
  | .taggedSend | .deferTsend => rxReqPkt s env p true false false
  | .write => rxReqPkt s env p false true false
  | .syncWrite => rxReqPkt s env p false true true
  | .read =>
    match rxRdReqPkt s p with
    | .error rc => (s, rc)
    | .ok _ => (s, .ok)
  | .msgErr => rxCancelPkt s env.now p
  | _ =>
    match getRxDesc s env p false false .unsupportedOp with
    | (s, .done rc) => (s, rc)
    | (s, _) => (s, .unsupportedOp)

def RxEp.step (s : RxEp) : RxEv → RxEp
  | .req env p => (rxReq s env p).1
  | .atomic env p ext =>
    match p.opcode with
    | .atomic => (rxAtomicReqPkt s env p ext false).1
    | .syncAtomic => (rxAtomicReqPkt s env p ext true).1
    | .fetchAtomic => (rxFetchAtomicReqPkt s p ext).1
    | _ => s
  | .recv q => recvApiCommon s q
  | .msgAge now => rxMsgAge s now
  | .syncGrpAge now => rxSyncGrpAge s now
  | .cqRead err => rxCqRead s err
  | .mrOp o => { s with dom := o.apply s.dom }

def RxEp.run (s : RxEp) (evs : List RxEv) : RxEp := evs.foldl RxEp.step s

/-- An endpoint with `n` descriptors, as `uet_endpoint` makes it. -/
def RxEp.init (ep : EpId) (dom : Domain) (mem : Mem) (n : Nat) (cqFormat : CqFormat)
    (maxPayloadLen : Nat) (rod : Bool) (syncLifetime idleTimeout : Nat) : RxEp :=
  { ep, dom, mem, desc := fun _ => .zero, free := List.range n, ring := [], tags := [],
    msgs := [], active := [], cq := [], sync := fun _ => .new ⟨0, 0⟩ 0, syncs := [],
    nextSync := 0, cqDown := false, cqFormat, maxPayloadLen, untaggedGen := 0,
    untaggedGenDisabled := false, taggedGen := 0, taggedGenDisabled := false, rod,
    syncLifetime, idleTimeout }

end Uet.Ses
