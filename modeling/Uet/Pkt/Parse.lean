import Mathlib

/-!
# The packet parser

`uet_parse_pkt` walks over a received frame from the Ethernet header to the SES header. A frame
is the memory from its first byte on: nothing stops the parser from reading behind the `pktLen`
bytes that were received, so that every stage also says which bytes it read. Lengths and
offsets are numbers, cut to 16 bits where the source keeps them in a `uint16_t`; positions of
headers stand for pointers into the frame.

The readers of a single header take the position of the header and say how long it is. They
check nothing; the checks of the source are in the stages that call them.
-/

namespace Uet.Pkt

abbrev Frame := Nat → BitVec 8

abbrev Span := Nat × Nat

/-- The value kept in a `uint16_t`. -/
def u16 (x : Nat) : Nat := x % 2 ^ 16

section

variable (m : Frame) (i : Nat)

def u8At : Nat := (m i).toNat

/-- `ntohs`, `ntohl` and `ntohll` of the bytes at a position. -/
def be16 : Nat := u8At m i * 2 ^ 8 + u8At m (i + 1)

def be32 : Nat := be16 m i * 2 ^ 16 + be16 m (i + 2)

def be64 : Nat := be32 m i * 2 ^ 32 + be32 m (i + 4)

def psnPlus (psn off : Nat) : Nat := (psn + if off < 2 ^ 15 then off else off + (2 ^ 32 - 2 ^ 16)) % 2 ^ 32

end

/-- The part of `struct uet_instance` that the parser reads. -/
structure ParseCfg where
  uetIpproto : Nat
  uetUdpPort : Nat
  maxPayloadLen : Nat

/-- `-EINVAL`, `-EFAULT`, and a walk over IPv6 extension headers that takes more steps than the
model allows. -/
inductive ParseErr where
  | einval | efault | loops
  deriving DecidableEq, Repr

/-- `uet_parse_chk_next_field`. -/
def parseChkNextField (pktLen off len : Nat) : Bool := u16 off + u16 len ≤ pktLen

/-! ## Ethernet -/

structure EthHdr where
  len : Nat
  ethertype : Nat
  reads : List Span
  deriving DecidableEq, Repr

def ethPIp : Nat := 0x0800
def ethPIpv6 : Nat := 0x86dd
def ethP8021q : Nat := 0x8100

def ethLoop (cfg : ParseCfg) (m : Frame) : Nat → Nat → List Span → Option EthHdr
  | left, i, reads =>
    let reads := (i, 2) :: reads
    if be16 m i = ethPIp ∨ be16 m i = ethPIpv6 then some ⟨i + 2, be16 m i, reads⟩
    else if be16 m i = ethP8021q then
      match left with
      | 0 => none
      | left + 1 => ethLoop cfg m left (i + 4) reads
    else if be16 m i = cfg.uetIpproto then some ⟨i + 2, be16 m i, reads⟩
    else none

/-- `UET_MAX_VLAN_TAGS` tags at most. -/
def ethHdr (cfg : ParseCfg) (m : Frame) : Option EthHdr := ethLoop cfg m 2 12 []

/-! ## IP -/

structure IpHdr where
  len : Nat
  protocol : Nat
  isIpv6 : Bool
  payloadLen : Nat
  reads : List Span
  deriving DecidableEq, Repr

def ipprotoUdp : Nat := 17

/-- `struct iphdr` at `i`. -/
def ipv4Hdr (m : Frame) (i : Nat) : IpHdr :=
  { len := (u8At m i &&& 0xf) <<< 2
    protocol := u8At m (i + 9)
    isIpv6 := false
    payloadLen := u16 (be16 m (i + 2) + 2 ^ 16 - 20)
    reads := [(i, 1), (i + 2, 2), (i + 9, 1)] }

/-- `uet_is_valid_ipv6_ext_hdr`. -/
def isValidIpv6ExtHdr (ipproto : Nat) : Bool :=
  ipproto = 0 || ipproto = 43 || ipproto = 60 || ipproto = 135

def endsIp (cfg : ParseCfg) (ipproto : Nat) : Bool :=
  ipproto = cfg.uetIpproto || ipproto = ipprotoUdp

/-- The length of the extension header at `i`. -/
def extLen (m : Frame) (i : Nat) : Nat := (u8At m (i + 1) + 1) <<< 3

/-- The loop of `uet_get_ipv6_nexthdr`. -/
def ipv6Loop (cfg : ParseCfg) (m : Frame) (pktLen ethLen : Nat) :
    Nat → Nat → Nat → List Span → Except ParseErr (Nat × Nat × List Span)
  | 0, _, _, _ => .error .loops
  | k + 1, ipLen, proto, reads =>
    if endsIp cfg proto then .ok (ipLen, proto, reads)
    else if !isValidIpv6ExtHdr proto then .error .einval
    else if !parseChkNextField pktLen (ethLen + ipLen) 2 then .error .efault
    else
      ipv6Loop cfg m pktLen ethLen k (u16 (ipLen + extLen m (ethLen + ipLen)))
        (u8At m (ethLen + ipLen)) ((ethLen + ipLen, 2) :: reads)

/-- `uet_get_ipv6_nexthdr`. -/
def getIpv6Nexthdr (cfg : ParseCfg) (m : Frame) (pktLen ethLen fuel : Nat) : Except ParseErr IpHdr :=
  match ipv6Loop cfg m pktLen ethLen fuel 40 (u8At m (ethLen + 6))
      [(ethLen + 4, 2), (ethLen + 6, 1)] with
  | .error e => .error e
  | .ok (len, protocol, reads) => .ok ⟨len, protocol, true, be16 m (ethLen + 4), reads⟩

def ipVersion (cfg : ParseCfg) (m : Frame) (eth : EthHdr) : Nat :=
  if eth.ethertype = cfg.uetIpproto then (u8At m eth.len &&& 0xf0) >>> 4
  else if eth.ethertype = ethPIp then 4 else 6

def ipVersionReads (cfg : ParseCfg) (eth : EthHdr) : List Span :=
  if eth.ethertype = cfg.uetIpproto then [(eth.len, 1)] else []

def parseIp (cfg : ParseCfg) (m : Frame) (pktLen fuel : Nat) (eth : EthHdr) : Except ParseErr IpHdr :=
  if ipVersion cfg m eth = 4 then .ok (ipv4Hdr m eth.len)
  else if ipVersion cfg m eth = 6 then getIpv6Nexthdr cfg m pktLen eth.len fuel
  else .error .einval

/-! ## Entropy or UDP -/

structure L4Hdr where
  isUdp : Bool
  len : Nat
  entropyVal : Nat
  reads : List Span
  deriving DecidableEq, Repr

/-- `struct uet_entropy` or `struct udphdr` at `i`. -/
def l4Hdr (cfg : ParseCfg) (m : Frame) (proto i : Nat) : Option L4Hdr :=
  if proto = cfg.uetIpproto then some ⟨false, 4, be16 m i, [(i, 2)]⟩
  else if proto = ipprotoUdp then
    if be16 m (i + 2) = cfg.uetUdpPort then some ⟨true, 8, be16 m i, [(i + 2, 2), (i, 2)]⟩ else none
  else none

def parseL4 (cfg : ParseCfg) (m : Frame) (pktLen proto cur : Nat) : Except ParseErr L4Hdr :=
  if proto ≠ cfg.uetIpproto ∧ proto = ipprotoUdp ∧ !parseChkNextField pktLen cur 8 then .error .efault
  else
    match l4Hdr cfg m proto cur with
    | none => .error .einval
    | some h => .ok h

/-! ## Security -/

structure SecHdr where
  len : Nat
  an : Bool
  sdi : Nat
  ssi : Option Nat
  epoch : Nat
  tsc : Nat
  reads : List Span
  deriving DecidableEq, Repr

/-- `struct uet_sec` or `struct uet_sec_ssi` at `i`. -/
def secHdr (m : Frame) (i : Nat) : SecHdr :=
  let ssi := be32 m i &&& 0x04000000 ≠ 0
  let epochTsc := be64 m (if ssi then i + 8 else i + 4)
  { len := if ssi then 16 else 12
    an := be32 m i &&& 0x01000000 ≠ 0
    sdi := be32 m i &&& 0x00ffffff
    ssi := if ssi then some (be32 m (i + 4)) else none
    epoch := epochTsc >>> 48
    tsc := epochTsc &&& 0x0000ffffffffffff
    reads := if ssi then [(i, 4), (i + 4, 4), (i + 8, 8)] else [(i, 4), (i + 4, 8)] }

def prlgType (w : Nat) : Nat := (w &&& 0xf800) >>> 11

def pdsTypeSecurity : Nat := 0x01

/-- `UET_SEC_TAG_LEN` and `CRC_LEN`. -/
def trailerLen (secured : Bool) : Nat := if secured then 16 else 4

/-! ## PDS -/

inductive PdsType where
  | rudReq | rodReq | uudReq | ack | ackCc | ackCcx | nack | ctrl | rudiReq | rudiResp
  deriving DecidableEq, Repr

def PdsType.ofCode : Nat → Option PdsType
  | 0x02 => some .rudReq
  | 0x03 => some .rodReq
  | 0x04 => some .rudiReq
  | 0x05 => some .rudiResp
  | 0x06 => some .uudReq
  | 0x07 => some .ack
  | 0x08 => some .ackCc
  | 0x09 => some .ackCcx
  | 0x0a => some .nack
  | 0x0b => some .ctrl
  | _ => none

/-- The `pds_*` fields; those that a type does not set stay zero. -/
structure PdsHdr where
  type : PdsType
  nextHdr : Nat
  flags : Nat
  len : Nat
  reads : List Span
  psn : Nat := 0
  cackPsn : Nat := 0
  clearPsn : Nat := 0
  spdcid : Nat := 0
  dpdcid : Nat := 0
  synOff : Nat := 0
  ccType : Nat := 0
  ccFlags : Nat := 0
  mpr : Nat := 0
  sackBasePsn : Nat := 0
  sackBitmap : Nat := 0
  ccState : Nat := 0
  ccxState : Nat := 0
  payload : Nat := 0
  nackCode : Nat := 0
  ctrlType : Nat := 0
  probeOpaque : Nat := 0
  pdcInfo : Nat := 0
  ctrlPayload : Nat := 0
  rudiPktId : Nat := 0
  deriving DecidableEq, Repr

def reqFlagsSyn : Nat := 0x04
def ackFlagsEpsn : Nat := 0x40
def ctrlTypeProbe : Nat := 0x6

section

variable (m : Frame) (i nextHdr flags : Nat)

/-- `struct uet_pds_req`. -/
def pdsReqHdr (type : PdsType) : PdsHdr :=
  { type, nextHdr, flags, len := 12
    reads := [(i + 4, 4), (i + 8, 2), (i + 2, 2), (i + 10, 2)]
    psn := be32 m (i + 4)
    spdcid := be16 m (i + 8)
    clearPsn := psnPlus (be32 m (i + 4)) (be16 m (i + 2))
    synOff := if flags &&& reqFlagsSyn ≠ 0 then be16 m (i + 10) &&& 0x0fff else 0
    dpdcid := if flags &&& reqFlagsSyn ≠ 0 then 0 else be16 m (i + 10) }

/-- `struct uet_pds_ack`, with the expected PSN of a closing ACK where the flag is set. -/
def pdsAckHdr : PdsHdr :=
  let epsn := flags &&& ackFlagsEpsn ≠ 0
  { type := .ack, nextHdr, flags, len := if epsn then 16 else 12
    reads := [(i + 4, 4), (i + 2, 2), (i + 8, 2), (i + 10, 2)] ++ if epsn then [(i + 12, 4)] else []
    cackPsn := be32 m (i + 4)
    psn := psnPlus (be32 m (i + 4)) (be16 m (i + 2))
    spdcid := be16 m (i + 8)
    dpdcid := be16 m (i + 10)
    payload := if epsn then be32 m (i + 12) else 0 }

/-- `struct uet_pds_ack_cc`, and `struct uet_pds_ack_ccx`, which has one more word. -/
def pdsAckCcHdr (ccx : Bool) : PdsHdr :=
  { type := if ccx then .ackCcx else .ackCc, nextHdr, flags, len := if ccx then 40 else 32
    reads := [(i + 4, 4), (i + 2, 2), (i + 8, 2), (i + 10, 2), (i + 12, 1), (i + 13, 1), (i + 14, 2),
      (i + 16, 8), (i + 24, 8)] ++ if ccx then [(i + 32, 8)] else []
    cackPsn := be32 m (i + 4)
    psn := psnPlus (be32 m (i + 4)) (be16 m (i + 2))
    spdcid := be16 m (i + 8)
    dpdcid := be16 m (i + 10)
    ccType := (u8At m (i + 12) &&& 0xf0) >>> 4
    ccFlags := u8At m (i + 12) &&& 0x0f
    mpr := u8At m (i + 13)
    sackBasePsn := psnPlus (be32 m (i + 4)) (be16 m (i + 14))
    sackBitmap := be64 m (i + 16)
    ccState := be64 m (i + 24)
    ccxState := if ccx then be64 m (i + 32) else 0 }

/-- `struct uet_pds_nack`. -/
def pdsNackHdr : PdsHdr :=
  { type := .nack, nextHdr, flags, len := 16
    reads := [(i + 4, 4), (i + 8, 2), (i + 10, 2), (i + 2, 1), (i + 12, 4)]
    psn := be32 m (i + 4)
    spdcid := be16 m (i + 8)
    dpdcid := be16 m (i + 10)
    nackCode := u8At m (i + 2)
    payload := be32 m (i + 12) }

/-- `struct uet_pds_ctrl`; the next header field is the type of the control message. -/
def pdsCtrlHdr : PdsHdr :=
  { type := .ctrl, nextHdr, flags, len := 16
    reads := [(i + 4, 4), (i + 8, 2)] ++ (if nextHdr = ctrlTypeProbe then [(i + 2, 2)] else []) ++
      [(i + 10, 2), (i + 12, 4)]
    ctrlType := nextHdr
    psn := be32 m (i + 4)
    spdcid := be16 m (i + 8)
    probeOpaque := if nextHdr = ctrlTypeProbe then be16 m (i + 2) else 0
    pdcInfo := if flags &&& reqFlagsSyn ≠ 0 then (be16 m (i + 10) &&& 0xf000) >>> 12 else 0
    synOff := if flags &&& reqFlagsSyn ≠ 0 then be16 m (i + 10) &&& 0x0fff else 0
    dpdcid := if flags &&& reqFlagsSyn ≠ 0 then 0 else be16 m (i + 10)
    ctrlPayload := be32 m (i + 12) }

/-- `struct uet_pds_rudi_req`. -/
def pdsRudiHdr (type : PdsType) : PdsHdr :=
  { type, nextHdr, flags, len := 8, reads := [(i + 4, 4)], rudiPktId := be32 m (i + 4) }

/-- The PDS header at `i`, behind a prologue with the value `w`. -/
def pdsHdr (w : Nat) : Option PdsHdr :=
  let nextHdr := (w &&& 0x0780) >>> 7
  let flags := w &&& 0x007f
  match PdsType.ofCode (prlgType w) with
  | none => none
  | some .rudReq => some (pdsReqHdr m i nextHdr flags .rudReq)
  | some .rodReq => some (pdsReqHdr m i nextHdr flags .rodReq)
  | some .uudReq => some { type := .uudReq, nextHdr, flags, len := 4, reads := [] }
  | some .ack => some (pdsAckHdr m i nextHdr flags)
  | some .ackCc => some (pdsAckCcHdr m i nextHdr flags false)
  | some .ackCcx => some (pdsAckCcHdr m i nextHdr flags true)
  | some .nack => some (pdsNackHdr m i nextHdr flags)
  | some .ctrl => some (pdsCtrlHdr m i nextHdr flags)
  | some .rudiReq => some (pdsRudiHdr m i nextHdr flags .rudiReq)
  | some .rudiResp => some (pdsRudiHdr m i nextHdr flags .rudiResp)

end

def PdsType.last : PdsType → Bool
  | .nack | .ctrl => true
  | _ => false

/-! ## SES -/

inductive NextHdr where
  | none | reqStd | rsp | rspData
  deriving DecidableEq, Repr

def NextHdr.ofCode : Nat → Option NextHdr
  | 0x0 => some .none
  | 0x3 => some .reqStd
  | 0x4 => some .rsp
  | 0x5 => some .rspData
  | _ => Option.none

def sesExtLen (opcode : Nat) : Nat :=
  if opcode = 0x03 ∨ opcode = 0x04 ∨ opcode = 0x0d ∨ opcode = 0x0e then 4
  else if opcode = 0x06 ∨ opcode = 0x0a then 24
  else if opcode = 0x10 then 4
  else if opcode = 0x11 then 8
  else 0

def opcodeRead : Nat := 0x02

def sesOpcode (m : Frame) (i : Nat) : Nat := u8At m i &&& 0x3f

def sesSom (m : Frame) (i : Nat) : Bool := u8At m (i + 1) &&& 0x01 ≠ 0

/-- The `payload_len` field of a request that does not start a message. -/
def payloadLenField (m : Frame) (i : Nat) : Nat := (be64 m (i + 32) &&& 0x00003fff00000000) >>> 32

/-- `uet_get_ses_req_payload_len`. -/
def getSesReqPayloadLen (m : Frame) (i pktPayloadLen maxPayloadLen : Nat) : Nat :=
  if sesSom m i then
    min (if sesOpcode m i = opcodeRead then maxPayloadLen else pktPayloadLen) (be32 m (i + 40))
  else payloadLenField m i

structure SesPart where
  len : Nat
  opcode : Nat := 0
  msgId : Nat := 0
  hdrLen : Nat := 0
  payload : Option Nat := none
  payloadLen : Nat := 0
  pktPayloadLen : Nat := 0
  reads : List Span := []
  deriving DecidableEq, Repr

/-- `pkt_len - (hdr_len + trailer_len)`. -/
def pktPayloadLen (pktLen hdrLen trailer : Nat) : Nat := u16 (pktLen + 2 ^ 17 - (hdrLen + trailer))

/-- A standard request at `cur`. -/
def parseSesReqStd (cfg : ParseCfg) (m : Frame) (pktLen trailer cur : Nat) : Except ParseErr SesPart :=
  if !parseChkNextField pktLen cur 44 then .error .efault
  else
    let len := 44 + sesExtLen (sesOpcode m cur)
    let hdrLen := u16 (cur + len)
    let room := pktPayloadLen pktLen hdrLen trailer
    let payloadLen := getSesReqPayloadLen m cur room cfg.maxPayloadLen
    if sesOpcode m cur ≠ opcodeRead ∧ !parseChkNextField pktLen hdrLen payloadLen then .error .efault
    else
      .ok { len, opcode := sesOpcode m cur, msgId := be16 m (cur + 2), hdrLen, payload := some hdrLen
            payloadLen, pktPayloadLen := room
            reads := [(cur, 1), (cur + 2, 2), (cur + 40, 4), (cur + 1, 1)] ++
              if sesSom m cur then [] else [(cur + 32, 8)] }

/-- A response at `cur`; both of its formats have 12 bytes. -/
def parseSesRsp (m : Frame) (pktLen cur : Nat) : Except ParseErr SesPart :=
  if !parseChkNextField pktLen cur 12 then .error .efault
  else
    .ok { len := 12, opcode := sesOpcode m cur, msgId := be16 m (cur + 2), hdrLen := u16 (cur + 12)
          reads := [(cur, 1), (cur + 2, 2)] }

/-- A response with data at `cur`. The header length does not include the response header. -/
def parseSesRspD (m : Frame) (pktLen trailer cur : Nat) : Except ParseErr SesPart :=
  if !parseChkNextField pktLen cur 20 then .error .efault
  else
    let payloadLen := be32 m (cur + 8) &&& 0x3fff
    if !parseChkNextField pktLen cur payloadLen then .error .efault
    else
      .ok { len := 20, opcode := sesOpcode m cur, msgId := be16 m (cur + 2), hdrLen := cur
            payload := some (cur + 20), payloadLen, pktPayloadLen := pktPayloadLen pktLen cur trailer
            reads := [(cur, 1), (cur + 2, 2), (cur + 8, 4)] }

def parseSes (cfg : ParseCfg) (m : Frame) (pktLen trailer cur nextHdr : Nat) :
    Except ParseErr SesPart :=
  match NextHdr.ofCode nextHdr with
  | none => .error .einval
  | some .none => .ok { len := 0 }
  | some .reqStd => parseSesReqStd cfg m pktLen trailer cur
  | some .rsp => parseSesRsp m pktLen cur
  | some .rspData => parseSesRspD m pktLen trailer cur

/-! ## The whole packet -/

/-- `struct uet_parsed_pkt`. `sesAt` is `none` behind a NACK or a control message. -/
structure ParsedPkt where
  eth : EthHdr
  ip : IpHdr
  l4 : L4Hdr
  sec : Option SecHdr
  pdsAt : Nat
  pds : PdsHdr
  trailerLen : Nat
  sesAt : Option Nat
  ses : SesPart
  reads : List Span
  deriving DecidableEq, Repr

/-- The security header at `cur`, if the prologue there has its type, and the prologue that
follows. -/
structure SecPart where
  sec : Option SecHdr
  pdsAt : Nat
  prlg : Nat
  reads : List Span

def parseSec (m : Frame) (pktLen cur : Nat) : Except ParseErr SecPart :=
  if !parseChkNextField pktLen cur 2 then .error .efault
  else if prlgType (be16 m cur) = pdsTypeSecurity then
    let sec := secHdr m cur
    let at_ := u16 (cur + sec.len)
    if !parseChkNextField pktLen at_ 2 then .error .efault
    else .ok ⟨some sec, at_, be16 m at_, (at_, 2) :: sec.reads ++ [(cur, 2)]⟩
  else .ok ⟨none, cur, be16 m cur, [(cur, 2)]⟩

def parsePds (cfg : ParseCfg) (m : Frame) (pktLen : Nat) (s : SecPart) :
    Except ParseErr (PdsHdr × Option Nat × SesPart) :=
  match pdsHdr m s.pdsAt s.prlg with
  | none => .error .einval
  | some pds =>
    if pds.type.last then .ok (pds, none, { len := 0 })
    else
      let cur := u16 (s.pdsAt + pds.len)
      match parseSes cfg m pktLen (trailerLen s.sec.isSome) cur pds.nextHdr with
      | .error e => .error e
      | .ok ses => .ok (pds, some cur, ses)

/-- `uet_parse_pkt`, with so many steps over extension headers. -/
def parsePkt (cfg : ParseCfg) (m : Frame) (pktLen fuel : Nat) : Except ParseErr ParsedPkt :=
  match ethHdr cfg m with
  | none => .error .einval
  | some eth =>
    match parseIp cfg m pktLen fuel eth with
    | .error e => .error e
    | .ok ip =>
      let cur := u16 (eth.len + ip.len)
      match parseL4 cfg m pktLen ip.protocol cur with
      | .error e => .error e
      | .ok l4 =>
        match parseSec m pktLen (u16 (cur + l4.len)) with
        | .error e => .error e
        | .ok s =>
          match parsePds cfg m pktLen s with
          | .error e => .error e
          | .ok (pds, sesAt, ses) =>
            .ok { eth, ip, l4, sec := s.sec, pdsAt := s.pdsAt, pds
                  trailerLen := trailerLen s.sec.isSome, sesAt, ses
                  reads := eth.reads ++ ipVersionReads cfg eth ++ ip.reads ++ l4.reads ++ s.reads ++
                    pds.reads ++ ses.reads }

end Uet.Pkt
