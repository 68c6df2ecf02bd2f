import Uet.Pkt.Parse

/-!
# What the parser can be trusted with

The headers of a frame say how long they are. `Layout` adds up these lengths as numbers that
do not wrap, from the end of the IP header on; a frame fits if the headers, the payload that is
announced and the trailer follow one another within the bytes received. On a frame that fits,
the 16-bit lengths of the parser follow those of the layout, and what it accepts is confined
to the frame.

The parser does not establish that a frame fits. It never asks whether the trailer is there,
it asks for no PDS header, and it does not count the header of a response with data.
-/

namespace Uet.Pkt

variable {cfg : ParseCfg} {m : Frame} {pktLen : Nat}

/-! ## The frame as its headers describe it -/

inductive Body where
  | none
  | req (announced : Nat)
  | rspData
  deriving DecidableEq, Repr

structure Layout where
  hdrEnd : Nat
  trailer : Nat
  body : Body
  deriving DecidableEq, Repr

/-- The extension headers from `i` on lead to a header of the protocol at the last position. -/
inductive ExtChain (cfg : ParseCfg) (m : Frame) : Nat → Nat → Nat → Nat → Prop where
  | done {i proto : Nat} (h : endsIp cfg proto = true) : ExtChain cfg m i proto i proto
  | ext {i proto j proto' : Nat} (h : endsIp cfg proto = false)
      (next : ExtChain cfg m (i + extLen m i) (u8At m i) j proto') : ExtChain cfg m i proto j proto'

inductive IpEnds (cfg : ParseCfg) (m : Frame) (eth : EthHdr) : Nat → Nat → Prop where
  | v4 (h : ipVersion cfg m eth = 4) :
      IpEnds cfg m eth (eth.len + (ipv4Hdr m eth.len).len) (ipv4Hdr m eth.len).protocol
  | v6 {i proto : Nat} (h : ipVersion cfg m eth = 6)
      (chain : ExtChain cfg m (eth.len + 40) (u8At m (eth.len + 6)) i proto) : IpEnds cfg m eth i proto

/-- The payload that a standard request announces beyond what there is room for: the first packet
of a message takes what the frame has, but that of a read names what is to be read. -/
def announced (cfg : ParseCfg) (m : Frame) (i : Nat) : Nat :=
  if sesSom m i then
    if sesOpcode m i = opcodeRead then min cfg.maxPayloadLen (be32 m (i + 40)) else 0
  else payloadLenField m i

/-- The SES header at `i`. -/
def sesLayout (cfg : ParseCfg) (m : Frame) (i trailer : Nat) : NextHdr → Layout
  | .none => ⟨i, trailer, .none⟩
  | .reqStd => ⟨i + (44 + sesExtLen (sesOpcode m i)), trailer, .req (announced cfg m i)⟩
  | .rsp => ⟨i + 12, trailer, .none⟩
  | .rspData => ⟨i + 20, trailer, .rspData⟩

/-- The PDS header at `i`, and what follows it. -/
def pdsLayout (cfg : ParseCfg) (m : Frame) (i trailer : Nat) : Option Layout :=
  match pdsHdr m i (be16 m i) with
  | none => none
  | some pds =>
    if pds.type.last then some ⟨i + pds.len, trailer, .none⟩
    else (NextHdr.ofCode pds.nextHdr).map (sesLayout cfg m (i + pds.len) trailer)

def secLayout (cfg : ParseCfg) (m : Frame) (i : Nat) : Option Layout :=
  if prlgType (be16 m i) = pdsTypeSecurity then
    pdsLayout cfg m (i + (secHdr m i).len) (trailerLen true)
  else pdsLayout cfg m i (trailerLen false)

def layoutFrom (cfg : ParseCfg) (m : Frame) (i proto : Nat) : Option Layout :=
  match l4Hdr cfg m proto i with
  | none => none
  | some l4 => secLayout cfg m (i + l4.len)

/-- The frame has room for its headers, what they announce and the trailer; nothing stands between
them where there is no payload. The parser has no right result for a response with data. -/
def Layout.FitsIn (pktLen : Nat) (L : Layout) : Prop :=
  match L.body with
  | .none => L.hdrEnd + L.trailer = pktLen
  | .req announced => L.hdrEnd + announced + L.trailer ≤ pktLen
  | .rspData => False

/-- A frame of so many bytes fits its headers; the part of an IP header that is always read is
among them. -/
structure Fits (cfg : ParseCfg) (m : Frame) (pktLen : Nat) (eth : EthHdr) (ipEnd proto : Nat)
    (L : Layout) : Prop where
  ethHdr_eq : ethHdr cfg m = some eth
  ip : IpEnds cfg m eth ipEnd proto
  layout : layoutFrom cfg m ipEnd proto = some L
  ipRead : eth.len + 10 ≤ L.hdrEnd
  room : L.FitsIn pktLen

/-! ## What is asked of a result -/

def ParsedPkt.hdrEnd (pp : ParsedPkt) : Nat :=
  match pp.sesAt with
  | some i => i + pp.ses.len
  | none => pp.pdsAt + pp.pds.len

/-- The bytes read are among the headers; the headers, the payload and the trailer follow one another
inside the frame; and the length of the packet payload is the number of bytes between the headers
and the trailer. -/
structure Confined (pktLen : Nat) (pp : ParsedPkt) : Prop where
  reads : ∀ r ∈ pp.reads, r.1 + r.2 ≤ pp.hdrEnd
  payload : ∀ i ∈ pp.ses.payload, i = pp.hdrEnd
  ends : pp.hdrEnd + pp.ses.payloadLen + pp.trailerLen ≤ pktLen
  room : pp.hdrEnd + pp.ses.pktPayloadLen + pp.trailerLen = pktLen
  le_room : pp.ses.payloadLen ≤ pp.ses.pktPayloadLen

instance (pktLen : Nat) (pp : ParsedPkt) : Decidable (Confined pktLen pp) :=
  decidable_of_iff ((∀ r ∈ pp.reads, r.1 + r.2 ≤ pp.hdrEnd) ∧ (∀ i ∈ pp.ses.payload, i = pp.hdrEnd) ∧
      pp.hdrEnd + pp.ses.payloadLen + pp.trailerLen ≤ pktLen ∧
      pp.hdrEnd + pp.ses.pktPayloadLen + pp.trailerLen = pktLen ∧
      pp.ses.payloadLen ≤ pp.ses.pktPayloadLen)
    ⟨fun ⟨h, h₁, h₂, h₃, h₄⟩ => ⟨h, h₁, h₂, h₃, h₄⟩, fun ⟨h, h₁, h₂, h₃, h₄⟩ => ⟨h, h₁, h₂, h₃, h₄⟩⟩

/-! ## One header at a time -/

theorem u16_of_lt {x : Nat} (h : x < 2 ^ 16) : u16 x = x := Nat.mod_eq_of_lt h

/-- The bytes read end at `n` at the latest. -/
def Within (l : List Span) (n : Nat) : Prop := ∀ r ∈ l, r.1 + r.2 ≤ n

variable {n : Nat} {l : List Span} {eth : EthHdr} {proto : Nat}

theorem Within.nil : Within [] n := by
  intro r hr
  cases hr

theorem Within.cons {r : Span} (hr : r.1 + r.2 ≤ n) (h : Within l n) : Within (r :: l) n := by
  intro r' hr'
  rcases List.mem_cons.1 hr' with rfl | hr'
  · exact hr
  · exact h r' hr'

theorem Within.mono {k : Nat} (h : Within l n) (hk : n ≤ k) : Within l k :=
  fun r hr => Nat.le_trans (h r hr) hk

theorem Within.append {l' : List Span} (h : Within l n) (h' : Within l' n) :
    Within (l ++ l') n := fun r hr => (List.mem_append.1 hr).elim (h r) (h' r)

theorem Within.ite {c : Prop} [Decidable c] {l' : List Span} (h : c → Within l n) (h' : ¬c → Within l' n) :
    Within (if c then l else l') n := by
  by_cases hc : c
  · rw [if_pos hc]
    exact h hc
  · rw [if_neg hc]
    exact h' hc

theorem ethLoop_within {left i : Nat} {reads : List Span} (hr : Within reads i)
    (h : ethLoop cfg m left i reads = some eth) : Within eth.reads eth.len := by
  induction left generalizing i reads with
  | zero =>
    have hi : Within ((i, 2) :: reads) (i + 2) := .cons (Nat.le_refl _) (hr.mono (by omega))
    unfold ethLoop at h
    split at h
    · cases h
      exact hi
    split at h
    · cases h
    split at h
    · cases h
      exact hi
    · cases h
  | succ left ih =>
    have hi : Within ((i, 2) :: reads) (i + 2) := .cons (Nat.le_refl _) (hr.mono (by omega))
    unfold ethLoop at h
    split at h
    · cases h
      exact hi
    split at h
    · exact ih (hi.mono (by omega)) h
    split at h
    · cases h
      exact hi
    · cases h

theorem ethHdr_within (h : ethHdr cfg m = some eth) : Within eth.reads eth.len :=
  ethLoop_within .nil h

theorem extLen_ge (i : Nat) : 8 ≤ extLen m i := by
  unfold extLen
  rw [Nat.shiftLeft_eq]
  omega

theorem ExtChain.le {i j proto' : Nat} (h : ExtChain cfg m i proto j proto') : i ≤ j := by
  induction h with
  | done => exact Nat.le_refl ..
  | ext _ _ ih => exact Nat.le_trans (Nat.le_add_right ..) ih

theorem ipv6Loop_of_chain {ethLen i j proto' : Nat} (h : ExtChain cfg m i proto j proto') (hj : j < 2 ^ 16)
    {fuel ipLen : Nat} {reads : List Span} {r : Nat × Nat × List Span} (hi : i = ethLen + ipLen) (hr : Within reads i)
    (ho : ipv6Loop cfg m pktLen ethLen fuel ipLen proto reads = .ok r) :
    ethLen + r.1 = j ∧ r.2.1 = proto' ∧ Within r.2.2 j := by
  induction h generalizing fuel ipLen reads with
  | done h =>
    cases fuel with
    | zero => cases ho
    | succ fuel =>
      unfold ipv6Loop at ho
      rw [if_pos h] at ho
      cases ho
      exact ⟨hi.symm, rfl, hr⟩
  | @ext i proto j proto' h next ih =>
    cases fuel with
    | zero => cases ho
    | succ fuel =>
      unfold ipv6Loop at ho
      rw [if_neg (by rw [h]; exact Bool.false_ne_true)] at ho
      split at ho
      · cases ho
      split at ho
      · cases ho
      subst hi
      have hlen := extLen_ge (m := m) (ethLen + ipLen)
      have hle := next.le
      rw [u16_of_lt (by omega)] at ho
      refine ih hj (by omega) (.cons (by omega) (hr.mono (by omega))) ho

theorem ipVersionReads_within (eth : EthHdr) : Within (ipVersionReads cfg eth) (eth.len + 10) :=
  .ite (fun _ => .cons (by omega) .nil) (fun _ => .nil)

theorem ipv4Hdr_within (i : Nat) : Within (ipv4Hdr m i).reads (i + 10) :=
  .cons (by omega) (.cons (by omega) (.cons (by omega) .nil))

theorem parseIp_of_ends {ipEnd fuel : Nat} {ip : IpHdr} (h : IpEnds cfg m eth ipEnd proto) (hend : ipEnd < 2 ^ 16)
    (ho : parseIp cfg m pktLen fuel eth = .ok ip) :
    eth.len + ip.len = ipEnd ∧ ip.protocol = proto ∧ Within ip.reads (max ipEnd (eth.len + 10)) := by
  cases h with
  | v4 h =>
    unfold parseIp at ho
    rw [if_pos h] at ho
    cases ho
    exact ⟨rfl, rfl, (ipv4Hdr_within _).mono (Nat.le_max_right _ _)⟩
  | v6 h chain =>
    unfold parseIp getIpv6Nexthdr at ho
    rw [if_neg (by omega), if_pos h] at ho
    cases hl : ipv6Loop cfg m pktLen eth.len fuel 40 (u8At m (eth.len + 6))
        [(eth.len + 4, 2), (eth.len + 6, 1)] with
    | error e =>
      rw [hl] at ho
      cases ho
    | ok r =>
      rw [hl] at ho
      cases ho
      have hfixed : Within [(eth.len + 4, 2), (eth.len + 6, 1)] (eth.len + 40) :=
        .cons (by omega) (.cons (by omega) .nil)
      obtain ⟨hlen, hproto, hreads⟩ := ipv6Loop_of_chain chain hend rfl hfixed hl
      exact ⟨hlen, hproto, hreads.mono (Nat.le_max_left _ _)⟩

theorem l4Hdr_within {i : Nat} {l4 : L4Hdr} (h : l4Hdr cfg m proto i = some l4) : Within l4.reads (i + l4.len) := by
  unfold l4Hdr at h
  split at h
  · cases h
    exact Within.cons (n := i + 4) (by omega) .nil
  split at h
  · split at h
    · cases h
      exact Within.cons (n := i + 8) (by omega) (.cons (by omega) .nil)
    · cases h
  · cases h

theorem parseL4_ok {cur : Nat} {l4 : L4Hdr} (h : parseL4 cfg m pktLen proto cur = .ok l4) :
    l4Hdr cfg m proto cur = some l4 := by
  unfold parseL4 at h
  split at h
  · cases h
  cases hl : l4Hdr cfg m proto cur with
  | none =>
    rw [hl] at h
    cases h
  | some l4' =>
    rw [hl] at h
    cases h
    rfl

theorem secHdr_within (i : Nat) : Within (secHdr m i).reads (i + (secHdr m i).len) := by
  unfold secHdr
  dsimp only
  split
  · exact .cons (by omega) (.cons (by omega) (.cons (by omega) .nil))
  · exact .cons (by omega) (.cons (by omega) .nil)

section

variable {i w nextHdr flags : Nat}

theorem pdsReqHdr_within {type : PdsType} : Within (pdsReqHdr m i nextHdr flags type).reads (i + 12) :=
  .cons (by omega) (.cons (by omega) (.cons (by omega) (.cons (by omega) .nil)))

theorem pdsAckHdr_within :
    Within (pdsAckHdr m i nextHdr flags).reads (i + (pdsAckHdr m i nextHdr flags).len) := by
  unfold pdsAckHdr
  dsimp only
  refine .append (Within.mono (n := i + 12) ?_ ?_) ?_
  · exact .cons (by omega) (.cons (by omega) (.cons (by omega) (.cons (by omega) .nil)))
  · split <;> omega
  · split
    · exact .cons (by omega) .nil
    · exact .nil

theorem pdsAckCcHdr_within {ccx : Bool} :
    Within (pdsAckCcHdr m i nextHdr flags ccx).reads (i + (pdsAckCcHdr m i nextHdr flags ccx).len) := by
  have hfixed : Within [(i + 4, 4), (i + 2, 2), (i + 8, 2), (i + 10, 2), (i + 12, 1), (i + 13, 1),
      (i + 14, 2), (i + 16, 8), (i + 24, 8)] (i + 32) := by
    intro r hr
    simp only [List.mem_cons, List.not_mem_nil, or_false] at hr
    rcases hr with rfl | rfl | rfl | rfl | rfl | rfl | rfl | rfl | rfl <;> dsimp only <;> omega
  cases ccx with
  | false => exact .append hfixed .nil
  | true => exact Within.append (n := i + 40) (hfixed.mono (by omega)) (.cons (by omega) .nil)

theorem pdsNackHdr_within : Within (pdsNackHdr m i nextHdr flags).reads (i + 16) :=
  .cons (by omega) (.cons (by omega) (.cons (by omega) (.cons (by omega) (.cons (by omega) .nil))))

theorem pdsCtrlHdr_within : Within (pdsCtrlHdr m i nextHdr flags).reads (i + 16) := by
  refine .append (.append ?_ (.ite (fun _ => ?_) fun _ => .nil)) ?_
  · exact .cons (by omega) (.cons (by omega) .nil)
  · exact .cons (by omega) .nil
  · exact .cons (by omega) (.cons (by omega) .nil)

theorem pdsRudiHdr_within {type : PdsType} :
    Within (pdsRudiHdr m i nextHdr flags type).reads (i + 8) := .cons (by omega) .nil

theorem pdsHdr_within {pds : PdsHdr} (h : pdsHdr m i w = some pds) : Within pds.reads (i + pds.len) := by
  unfold pdsHdr at h
  split at h <;> cases h
  · exact pdsReqHdr_within
  · exact pdsReqHdr_within
  · exact .nil
  · exact pdsAckHdr_within
  · exact pdsAckCcHdr_within
  · exact pdsAckCcHdr_within
  · exact pdsNackHdr_within
  · exact pdsCtrlHdr_within
  · exact pdsRudiHdr_within
  · exact pdsRudiHdr_within

theorem pdsHdr_len_ge {pds : PdsHdr} (h : pdsHdr m i w = some pds) : 4 ≤ pds.len := by
  unfold pdsHdr at h
  split at h <;> cases h
  case h_5 =>
    unfold pdsAckHdr
    dsimp only
    split <;> decide
  all_goals exact Nat.le_of_ble_eq_true rfl

end

/-! ## The last header and the payload -/

/-- What is asked of the last stage when the headers end at `hdrEnd`. -/
structure SesPart.Confined (pktLen hdrEnd trailer : Nat) (ses : SesPart) : Prop where
  reads : Within ses.reads hdrEnd
  payload : ∀ i ∈ ses.payload, i = hdrEnd
  ends : hdrEnd + ses.payloadLen + trailer ≤ pktLen
  room : hdrEnd + ses.pktPayloadLen + trailer = pktLen
  le_room : ses.payloadLen ≤ ses.pktPayloadLen

variable {trailer cur : Nat} {ses : SesPart} {L : Layout} {s : SecPart}

theorem SesPart.confined_empty {hdrEnd len : Nat} (h : hdrEnd + trailer = pktLen) :
    SesPart.Confined pktLen hdrEnd trailer { len } where
  reads := .nil
  payload := by
    intro i hi
    cases hi
  ends := Nat.le_of_eq h
  room := h
  le_room := Nat.le_refl _

theorem pktPayloadLen_of_le {hdrLen : Nat} (hp : pktLen < 2 ^ 16) (h : hdrLen + trailer ≤ pktLen) :
    pktPayloadLen pktLen hdrLen trailer = pktLen - (hdrLen + trailer) := by
  unfold pktPayloadLen u16
  omega

theorem getSesReqPayloadLen_le {i room : Nat} (h : announced cfg m i ≤ room) :
    getSesReqPayloadLen m i room cfg.maxPayloadLen ≤ room := by
  unfold getSesReqPayloadLen
  unfold announced at h
  by_cases hsom : sesSom m i = true
  · rw [if_pos hsom] at h ⊢
    by_cases hread : sesOpcode m i = opcodeRead
    · rw [if_pos hread] at h ⊢
      exact h
    · rw [if_neg hread]
      exact Nat.min_le_left _ _
  · rw [if_neg hsom] at h ⊢
    exact h

theorem parseSesReqStd_confined (hp : pktLen < 2 ^ 16) (hfit : (sesLayout cfg m cur trailer .reqStd).FitsIn pktLen)
    (h : parseSesReqStd cfg m pktLen trailer cur = .ok ses) : cur + ses.len = cur + (44 + sesExtLen (sesOpcode m cur)) ∧
      ses.Confined pktLen (cur + (44 + sesExtLen (sesOpcode m cur))) trailer := by
  replace hfit : cur + (44 + sesExtLen (sesOpcode m cur)) + announced cfg m cur + trailer ≤ pktLen := hfit
  unfold parseSesReqStd at h
  dsimp only at h
  rw [u16_of_lt (by omega), pktPayloadLen_of_le hp (by omega)] at h
  have hle : getSesReqPayloadLen m cur
      (pktLen - (cur + (44 + sesExtLen (sesOpcode m cur)) + trailer)) cfg.maxPayloadLen ≤
      pktLen - (cur + (44 + sesExtLen (sesOpcode m cur)) + trailer) := getSesReqPayloadLen_le (by omega)
  split at h
  · cases h
  split at h
  · cases h
  cases h
  refine ⟨rfl, ⟨?_, ?_, ?_, ?_, hle⟩⟩
  · refine .append ?_ (.ite (fun _ => .nil) fun _ => .cons (by omega) .nil)
    exact .cons (by omega) (.cons (by omega) (.cons (by omega) (.cons (by omega) .nil)))
  · intro i hi
    exact (Option.some.inj hi).symm
  · dsimp only
    omega
  · dsimp only
    omega

theorem parseSesRsp_confined (hfit : cur + 12 + trailer = pktLen) (h : parseSesRsp m pktLen cur = .ok ses) :
    cur + ses.len = cur + 12 ∧ ses.Confined pktLen (cur + 12) trailer := by
  unfold parseSesRsp at h
  split at h
  · cases h
  cases h
  refine ⟨rfl, ⟨.cons (by omega) (.cons (by omega) .nil), ?_, Nat.le_of_eq hfit, hfit, Nat.le_refl _⟩⟩
  intro i hi
  cases hi

theorem sesLayout_hdrEnd_ge {i : Nat} (nh : NextHdr) : i ≤ (sesLayout cfg m i trailer nh).hdrEnd := by
  cases nh with
  | none => exact Nat.le_refl _
  | reqStd => exact Nat.le_add_right _ _
  | rsp => exact Nat.le_add_right _ _
  | rspData => exact Nat.le_add_right _ _

theorem Layout.FitsIn.hdrEnd_le (h : L.FitsIn pktLen) : L.hdrEnd ≤ pktLen := by
  unfold Layout.FitsIn at h
  split at h
  · omega
  · omega
  · exact h.elim

theorem parseSes_confined {code : Nat} {nh : NextHdr} (hp : pktLen < 2 ^ 16) (hcode : NextHdr.ofCode code = some nh)
    (hfit : (sesLayout cfg m cur trailer nh).FitsIn pktLen) (h : parseSes cfg m pktLen trailer cur code = .ok ses) :
    cur + ses.len = (sesLayout cfg m cur trailer nh).hdrEnd ∧
      ses.Confined pktLen (sesLayout cfg m cur trailer nh).hdrEnd trailer := by
  unfold parseSes at h
  rw [hcode] at h
  cases nh with
  | none =>
    cases h
    exact ⟨rfl, SesPart.confined_empty hfit⟩
  | reqStd => exact parseSesReqStd_confined hp hfit h
  | rsp => exact parseSesRsp_confined hfit h
  | rspData => exact hfit.elim

/-! ## The whole packet -/

theorem parsePds_ok {r : PdsHdr × Option Nat × SesPart} (h : parsePds cfg m pktLen s = .ok r) :
    pdsHdr m s.pdsAt s.prlg = some r.1 ∧
    ((r.1.type.last = true ∧ r.2.1 = none ∧ r.2.2 = { len := 0 }) ∨
     (r.1.type.last = false ∧ r.2.1 = some (u16 (s.pdsAt + r.1.len)) ∧
      parseSes cfg m pktLen (trailerLen s.sec.isSome) (u16 (s.pdsAt + r.1.len)) r.1.nextHdr = .ok r.2.2)) := by
  unfold parsePds at h
  split at h
  · cases h
  rename_i pds hpds
  split at h
  · rename_i hlast
    cases h
    exact ⟨hpds, .inl ⟨hlast, rfl, rfl⟩⟩
  rename_i hlast
  dsimp only at h
  split at h
  · cases h
  rename_i ses hses
  cases h
  exact ⟨hpds, .inr ⟨Bool.eq_false_iff.2 hlast, rfl, hses⟩⟩

def endsAt (pdsAt : Nat) (r : PdsHdr × Option Nat × SesPart) : Nat :=
  match r.2.1 with
  | some i => i + r.2.2.len
  | none => pdsAt + r.1.len

theorem parsePds_confined {r : PdsHdr × Option Nat × SesPart} (hp : pktLen < 2 ^ 16) (hprlg : s.prlg = be16 m s.pdsAt)
    (hl : pdsLayout cfg m s.pdsAt (trailerLen s.sec.isSome) = some L) (hfit : L.FitsIn pktLen)
    (h : parsePds cfg m pktLen s = .ok r) :
    endsAt s.pdsAt r = L.hdrEnd ∧ s.pdsAt + 4 ≤ L.hdrEnd ∧ Within r.1.reads L.hdrEnd ∧
    r.2.2.Confined pktLen L.hdrEnd (trailerLen s.sec.isSome) := by
  obtain ⟨pds, sesAt, ses⟩ := r
  obtain ⟨hpds, hrest⟩ := parsePds_ok h
  dsimp only at hpds hrest ⊢
  rw [hprlg] at hpds
  have hlen := pdsHdr_len_ge hpds
  have hreads := pdsHdr_within hpds
  unfold pdsLayout at hl
  rw [hpds] at hl
  dsimp only at hl
  rcases hrest with ⟨hlast, hat, hses⟩ | ⟨hlast, hat, hses⟩
  · rw [if_pos hlast] at hl
    cases hl
    subst hat hses
    exact ⟨rfl, Nat.add_le_add_left hlen _, hreads, SesPart.confined_empty hfit⟩
  · rw [if_neg (Bool.eq_false_iff.1 hlast)] at hl
    obtain ⟨nh, hnh, rfl⟩ := Option.map_eq_some_iff.1 hl
    have hend : s.pdsAt + pds.len ≤
        (sesLayout cfg m (s.pdsAt + pds.len) (trailerLen s.sec.isSome) nh).hdrEnd := sesLayout_hdrEnd_ge nh
    have hlt := hfit.hdrEnd_le
    rw [u16_of_lt (by omega)] at hat hses
    subst hat
    obtain ⟨heq, hok⟩ := parseSes_confined hp hnh hfit hses
    exact ⟨heq, by omega, hreads.mono hend, hok⟩

theorem pdsLayout_hdrEnd_ge {i : Nat} (h : pdsLayout cfg m i trailer = some L) : i + 4 ≤ L.hdrEnd := by
  unfold pdsLayout at h
  split at h
  · cases h
  rename_i pds hpds
  have hlen := pdsHdr_len_ge hpds
  split at h
  · cases h
    exact Nat.add_le_add_left hlen i
  · obtain ⟨nh, -, rfl⟩ := Option.map_eq_some_iff.1 h
    exact Nat.le_trans (Nat.add_le_add_left hlen i) (sesLayout_hdrEnd_ge nh)

theorem secLayout_hdrEnd_ge {i : Nat} (h : secLayout cfg m i = some L) : i + 4 ≤ L.hdrEnd := by
  unfold secLayout at h
  split at h
  · have := pdsLayout_hdrEnd_ge h
    omega
  · exact pdsLayout_hdrEnd_ge h

theorem parseSec_follows (hl : secLayout cfg m cur = some L) (hlt : L.hdrEnd < 2 ^ 16)
    (h : parseSec m pktLen cur = .ok s) :
    s.prlg = be16 m s.pdsAt ∧ pdsLayout cfg m s.pdsAt (trailerLen s.sec.isSome) = some L ∧
    Within s.reads (s.pdsAt + 2) := by
  unfold parseSec at h
  unfold secLayout at hl
  split at h
  · cases h
  by_cases hsec : prlgType (be16 m cur) = pdsTypeSecurity
  · rw [if_pos hsec] at h hl
    have hge := pdsLayout_hdrEnd_ge hl
    dsimp only at h
    rw [u16_of_lt (by omega)] at h
    split at h
    · cases h
    cases h
    refine ⟨rfl, hl, .cons (Nat.le_refl _) (.append ?_ (.cons ?_ .nil))⟩
    · exact (secHdr_within cur).mono (Nat.le_add_right _ _)
    · exact Nat.add_le_add_right (Nat.le_add_right _ _) 2
  · rw [if_neg hsec] at h hl
    cases h
    exact ⟨rfl, hl, .cons (Nat.le_refl _) .nil⟩

theorem parsePkt_ok {fuel : Nat} {pp : ParsedPkt} {eth : EthHdr} (he : ethHdr cfg m = some eth)
    (h : parsePkt cfg m pktLen fuel = .ok pp) :
    ∃ ip l4 s r, parseIp cfg m pktLen fuel eth = .ok ip ∧
      parseL4 cfg m pktLen ip.protocol (u16 (eth.len + ip.len)) = .ok l4 ∧
      parseSec m pktLen (u16 (u16 (eth.len + ip.len) + l4.len)) = .ok s ∧
      parsePds cfg m pktLen s = .ok r ∧
      pp = { eth, ip, l4, sec := s.sec, pdsAt := s.pdsAt, pds := r.1
             trailerLen := trailerLen s.sec.isSome, sesAt := r.2.1, ses := r.2.2
             reads := eth.reads ++ ipVersionReads cfg eth ++ ip.reads ++ l4.reads ++ s.reads ++
               r.1.reads ++ r.2.2.reads } := by
  unfold parsePkt at h
  rw [he] at h
  dsimp only at h
  split at h
  · cases h
  rename_i ip hip
  split at h
  · cases h
  rename_i l4 hl4
  split at h
  · cases h
  rename_i s hs
  split at h
  · cases h
  rename_i pds sesAt ses hpds
  cases h
  exact ⟨ip, l4, s, (pds, sesAt, ses), hip, hl4, hs, hpds, rfl⟩

section

def ipCfg : ParseCfg := ⟨253, 49150, 4096⟩

/-- A frame with the PDS header right behind Ethernet, IPv4 and the entropy header; zeros follow the
bytes given. -/
def ipv4Frame (l : List Nat) : Frame := fun i =>
  .ofNat 8 ((List.replicate 12 0 ++ [0x08, 0x00] ++ [0x45, 0, 0, 0, 0, 0, 0, 0, 0, 253] ++
    List.replicate 14 0 ++ l).getD i 0)

def writeFrame : Frame := ipv4Frame ([0x11, 0x80] ++ List.replicate 10 0 ++ [0x01, 0x01] ++
  List.replicate 41 0 ++ [0x06])

def laterFrame : Frame := ipv4Frame ([0x11, 0x80] ++ List.replicate 10 0 ++ [0x01, 0x00])

def readRspFrame : Frame := ipv4Frame [0x3a, 0x80]

def nackFrame : Frame := ipv4Frame [0x50, 0x00]

def writeFrameLayout : Layout := ⟨94, 4, .req 0⟩

end

end Uet.Pkt
