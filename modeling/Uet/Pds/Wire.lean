import Uet.Serial

/-!
# PSNs, headers and the parser

The PSN macros of `uet_pds.c`, the PDS headers of `uet_pkt_hdr.h` as far as the
packet delivery layer reads them, and the PDS part of `uet_parse_pkt`. A header
field keeps its wire width; a flag is a Bool named after its mask. Fields no
modelled function reads (entropy, congestion state, reserved bits) are left out.
-/

namespace Uet.Pds

open Uet.Serial

abbrev Psn := BitVec 32
abbrev PdcId := BitVec 16
abbrev MsgId := BitVec 16

/-- `UET_DEFAULT_MP_RANGE`. -/
def mpRange : Nat := 128

/-- `UET_PDS_MPR_GRANULARITY`. -/
def mprGranularity : Nat := 128

/-- `UET_PDS_PSN_OFFSET`. -/
def psnOffset (a b : Psn) : Int := sdist a b

/-- `UET_PDS_PSN_AFTER`. -/
def psnAfter (a b : Psn) : Bool := decide (0 < psnOffset a b)

/-- `UET_PDS_PSN_AFTER_EQ`. -/
def psnAfterEq (a b : Psn) : Bool := decide (0 ≤ psnOffset a b)

/-- `UET_PDS_UPDATE_PSN`: the value `old` is left with. -/
def updatePsn (old new : Psn) : Psn := if psnAfter new old then new else old

/-- `PSN_IN_MPR`. -/
def psnInMpr (psn base : Psn) : Bool := decide ((psn - base).toNat < mpRange)

/-- `PSN_IN_PRIOR_MPR`. -/
def psnInPriorMpr (psn base : Psn) : Bool := psnInMpr psn (base - BitVec.ofNat 32 mpRange)

/-- `uet_pds_decode_mpr`. -/
def decodeMpr (mpr : BitVec 8) : BitVec 32 := mpr.setWidth 32 * BitVec.ofNat 32 mprGranularity

/-- `psn_2c_offset`: the signed difference, returned as an `int16_t`. -/
def psn2cOffset (base psn : Psn) : BitVec 16 := (~~~(base - psn) + 1).setWidth 16

def addOffset (ref : Psn) (off : BitVec 16) : Psn := off.signExtend 32 + ref

/-! ## The macros over unbounded PSNs

`pw n` is the PSN of the `n`-th position of an unbounded sequence. -/

abbrev pw (n : Int) : Psn := wrap 32 n

def InRange (a b : Int) : Prop := -2147483648 ≤ a - b ∧ a - b < 2147483648

instance (a b : Int) : Decidable (InRange a b) := inferInstanceAs (Decidable (_ ∧ _))

theorem pw_add (a b : Int) : pw a + pw b = pw (a + b) := wrap_add a b
theorem pw_sub (a b : Int) : pw a - pw b = pw (a - b) := wrap_sub a b

variable {a b : Int}

theorem psnOffset_pw (h : InRange a b) : psnOffset (pw a) (pw b) = a - b := by
  obtain ⟨h1, h2⟩ := h
  exact sdist_wrap_eq a b (by omega) (by omega)

theorem psnOffset_range (x y : Psn) : -2147483648 ≤ psnOffset x y ∧ psnOffset x y < 2147483648 := by
  have h1 := sdist_ge x y
  have h2 := sdist_lt x y
  rw [psnOffset]
  omega

theorem pw_add_psnOffset (b : Int) (x : Psn) : pw (b + psnOffset x (pw b)) = x := wrap_add_sdist b x

theorem psnAfter_pw (h : InRange a b) : psnAfter (pw a) (pw b) = decide (b < a) := by
  rw [psnAfter, psnOffset_pw h]
  exact decide_eq_decide.2 (by omega)

theorem updatePsn_pw (h : InRange b a) : updatePsn (pw a) (pw b) = pw (max a b) := by
  rw [updatePsn, psnAfter_pw h]
  by_cases hlt : a < b
  · simp [hlt, Int.max_eq_right (Int.le_of_lt hlt)]
  · simp [hlt, Int.max_eq_left (Int.not_lt.1 hlt)]

theorem psnInMpr_pw (h1 : -4294967168 ≤ a - b) (h2 : a - b < 4294967296) :
    psnInMpr (pw a) (pw b) = decide (0 ≤ a - b ∧ a - b < 128) := by
  have : ((pw a - pw b).toNat : Int) = (a - b) % 4294967296 := toNat_wrap_sub a b
  rw [psnInMpr, mpRange]
  exact decide_eq_decide.2 (by omega)

theorem psnInPriorMpr_pw (h1 : -4294967168 ≤ a - b) (h2 : a - b < 4294967168) :
    psnInPriorMpr (pw a) (pw b) = decide (-128 ≤ a - b ∧ a - b < 0) := by
  have hb : pw b - BitVec.ofNat 32 mpRange = pw (b - 128) := pw_sub b 128
  rw [psnInPriorMpr, hb, psnInMpr_pw (by omega) (by omega)]
  exact decide_eq_decide.2 (by omega)

theorem psnOffset_self (x : Psn) : psnOffset x x = 0 := by
  rw [psnOffset, sdist, BitVec.sub_self]
  rfl

theorem eq_of_psnOffset_zero {a b : Psn} (h : psnOffset a b = 0) : a = b := by
  have hb : pw b.toInt = b := wrap_toInt b
  have ha := pw_add_psnOffset b.toInt a
  rw [hb, h, Int.add_zero, hb] at ha
  exact ha.symm

theorem psnInMpr_iff (psn base : Psn) :
    psnInMpr psn base = true ↔ 0 ≤ psnOffset psn base ∧ psnOffset psn base < 128 := by
  have hb : pw base.toInt = base := wrap_toInt base
  have hp := pw_add_psnOffset base.toInt psn
  have hr := psnOffset_range psn base
  rw [hb] at hp
  have h := psnInMpr_pw (a := base.toInt + psnOffset psn base) (b := base.toInt) (by omega) (by omega)
  rw [hp, hb] at h
  rw [h, decide_eq_true_iff]
  omega

theorem psnInPriorMpr_iff (psn base : Psn) :
    psnInPriorMpr psn base = true ↔ -128 ≤ psnOffset psn base ∧ psnOffset psn base < 0 := by
  have hb : pw base.toInt = base := wrap_toInt base
  have hp := pw_add_psnOffset base.toInt psn
  have hr := psnOffset_range psn base
  rw [hb] at hp
  have h := psnInPriorMpr_pw (a := base.toInt + psnOffset psn base) (b := base.toInt) (by omega)
    (by omega)
  rw [hp, hb] at h
  rw [h, decide_eq_true_iff]
  omega

theorem addOffset_pw (a : Int) (off : BitVec 16) : addOffset (pw a) off = pw (a + off.toInt) := by
  have hs : off.signExtend 32 = pw off.toInt := rfl
  rw [addOffset, hs, pw_add, Int.add_comm]

theorem addOffset_psn2cOffset (h1 : -32768 ≤ b - a) (h2 : b - a < 32768) :
    addOffset (pw a) (psn2cOffset (pw a) (pw b)) = pw b := by
  have hneg : ~~~(pw a - pw b) + 1 = pw (b - a) := by
    have : ~~~(pw a - pw b) + 1 = -(pw a - pw b) := (BitVec.neg_eq_not_add _).symm
    rw [this, BitVec.neg_sub, BitVec.add_comm, ← BitVec.sub_eq_add_neg, pw_sub]
  have hw : (psn2cOffset (pw a) (pw b)).toInt = b - a := by
    rw [psn2cOffset, hneg]
    have hset : (pw (b - a)).setWidth 16 = wrap 16 (b - a) := by
      apply BitVec.eq_of_toNat_eq
      rw [BitVec.toNat_setWidth, BitVec.toNat_ofInt, BitVec.toNat_ofInt]
      omega
    rw [hset, BitVec.toInt_ofInt]
    exact Int.bmod_eq_of_le (by omega) (by omega)
  rw [addOffset_pw, hw]
  congr 1
  omega

/-- `struct uet_fa` with its address family. -/
inductive Fa where
  | v4 (addr : BitVec 32)
  | v6 (addr : BitVec 128)
  deriving DecidableEq, Repr

/-- `uet_pds_next_hdr_t`. -/
inductive NextHdr where
  | none | reqSmall | reqMedium | reqStd | rsp | rspData | rspDataSmall | other
  deriving DecidableEq, Repr

inductive PdsType where
  | rudReq | rodReq | ack | ackCc | ackCcx | nack | ctrl
  deriving DecidableEq, Repr

/-- `uet_pds_nack_code_t`. -/
inductive NackCode where
  | none | trimmed | trimmedLastHop | trimmedAck | noPdcAvail | noCccAvail | noBitmap | noPktBuf
  | noGtdDelAvail | noSesMsgAvail | noResource | psnOorWindow | rodOoo | invDpdcid
  | pdcHdrMismatch | closing | closingInErr | pktNotRcvd | gtdRespUnavail | ackWithData
  | invalidSyn | pdcModeMismatch | newStartPsn | rcvdSesProcg | unexpEvent | rcvrInferLess
  | expNackNormal | expNackErr | expNackFatal | reserved
  deriving DecidableEq, Repr

/-- `uet_pds_ctrl_type_t`. -/
inductive CtrlType where
  | nop | ackReq | clear | clearReq | close | closeReq | probe | credit | creditReq | negotiation
  | other
  deriving DecidableEq, Repr

/-- The SES header behind an ACK: a response of SES, or the default response that
PDS builds itself. -/
inductive SesHdr where
  | none
  | rsp (bytes : List (BitVec 8))
  | defRsp (msgId : MsgId)
  deriving DecidableEq, Repr

/-- `struct uet_pds_req`. `pdcInfo` is the union of `dpdcid` and `pdc_info_psn_offset`. -/
structure ReqHdr where
  pdsType : PdsType
  nextHdr : NextHdr
  retx : Bool
  ar : Bool
  syn : Bool
  clearPsnOffset : BitVec 16
  psn : Psn
  spdcid : PdcId
  pdcInfo : BitVec 16
  sesMsgId : MsgId
  payloadLen : BitVec 16
  deriving DecidableEq, Repr

/-- `struct uet_pds_ack` with the CC extension and the Expected_PSN payload, each
meaningful for its own packet type only. -/
structure AckHdr where
  pdsType : PdsType
  nextHdr : NextHdr
  reqClr : Bool
  epsn : Bool
  ackPsnOffset : BitVec 16
  cackPsn : Psn
  spdcid : PdcId
  dpdcid : PdcId
  mpr : BitVec 8
  sackPsnOffset : BitVec 16
  sackBitmap : BitVec 64
  payload : BitVec 32
  ses : SesHdr
  deriving DecidableEq, Repr

/-- `struct uet_pds_nack`. -/
structure NackHdr where
  retx : Bool
  nackCode : NackCode
  nackPsn : Psn
  spdcid : PdcId
  dpdcid : PdcId
  payload : BitVec 32
  deriving DecidableEq, Repr

/-- `struct uet_pds_ctrl`. -/
structure CtrlHdr where
  ctrlType : CtrlType
  retx : Bool
  ar : Bool
  syn : Bool
  psn : Psn
  spdcid : PdcId
  pdcInfo : BitVec 16
  payload : BitVec 32
  deriving DecidableEq, Repr

inductive PdsHdr where
  | req (h : ReqHdr)
  | ack (h : AckHdr)
  | nack (h : NackHdr)
  | ctrl (h : CtrlHdr)
  deriving DecidableEq, Repr

structure Frame where
  src : Fa
  dst : Fa
  hdr : PdsHdr
  deriving DecidableEq, Repr

/-- `struct uet_parsed_pkt`; a field the packet type does not carry is zero. -/
structure ParsedPkt where
  src : Fa
  dst : Fa
  pdsType : PdsType
  nextHdr : NextHdr := .none
  retx : Bool := false
  ar : Bool := false
  syn : Bool := false
  reqClr : Bool := false
  epsn : Bool := false
  psn : Psn := 0
  spdcid : PdcId := 0
  dpdcid : PdcId := 0
  synOff : BitVec 8 := 0
  clearPsn : Psn := 0
  cackPsn : Psn := 0
  mpr : BitVec 8 := 0
  sackBasePsn : Psn := 0
  sackBitmap : BitVec 64 := 0
  nackCode : NackCode := .none
  payload : BitVec 32 := 0
  ctrlType : CtrlType := .nop
  ctrlPayload : BitVec 32 := 0
  sesMsgId : MsgId := 0
  pktPayloadLen : BitVec 16 := 0
  ses : SesHdr := .none
  deriving DecidableEq, Repr

/-- `UET_PDS_REQ_PSN_OFFSET_MASK`. -/
def reqPsnOffsetMask : BitVec 16 := 0x0fff

/-- The RUD/ROD request case of `uet_parse_pkt`; `pds_syn_off` is a `uint8_t`. -/
def parseReq (src dst : Fa) (h : ReqHdr) : ParsedPkt :=
  { src, dst, pdsType := h.pdsType, nextHdr := h.nextHdr, retx := h.retx, ar := h.ar, syn := h.syn,
    psn := h.psn, spdcid := h.spdcid,
    clearPsn := addOffset h.psn h.clearPsnOffset,
    synOff := if h.syn then (h.pdcInfo &&& reqPsnOffsetMask).setWidth 8 else 0,
    dpdcid := if h.syn then 0 else h.pdcInfo,
    sesMsgId := h.sesMsgId, pktPayloadLen := h.payloadLen }

def isCcAck (t : PdsType) : Bool := t == .ackCc || t == .ackCcx

/-- The ACK case of `uet_parse_pkt`. -/
def parseAck (src dst : Fa) (h : AckHdr) : ParsedPkt :=
  { src, dst, pdsType := h.pdsType, nextHdr := h.nextHdr, reqClr := h.reqClr, epsn := h.epsn,
    cackPsn := h.cackPsn,
    psn := addOffset h.cackPsn h.ackPsnOffset,
    spdcid := h.spdcid, dpdcid := h.dpdcid,
    mpr := if isCcAck h.pdsType then h.mpr else 0,
    sackBasePsn := if isCcAck h.pdsType then addOffset h.cackPsn h.sackPsnOffset else 0,
    sackBitmap := if isCcAck h.pdsType then h.sackBitmap else 0,
    payload := if h.pdsType == .ack && h.epsn then h.payload else 0,
    ses := h.ses }

/-- The NACK case of `uet_parse_pkt`. -/
def parseNack (src dst : Fa) (h : NackHdr) : ParsedPkt :=
  { src, dst, pdsType := .nack, retx := h.retx, psn := h.nackPsn, spdcid := h.spdcid,
    dpdcid := h.dpdcid, nackCode := h.nackCode, payload := h.payload }

/-- The control case of `uet_parse_pkt`. -/
def parseCtrl (src dst : Fa) (h : CtrlHdr) : ParsedPkt :=
  { src, dst, pdsType := .ctrl, ctrlType := h.ctrlType, retx := h.retx, ar := h.ar, syn := h.syn,
    psn := h.psn, spdcid := h.spdcid,
    synOff := if h.syn then (h.pdcInfo &&& reqPsnOffsetMask).setWidth 8 else 0,
    dpdcid := if h.syn then 0 else h.pdcInfo,
    ctrlPayload := h.payload }

/-- `uet_parse_pkt` from the PDS header on. -/
def parsePkt (f : Frame) : ParsedPkt :=
  match f.hdr with
  | .req h => parseReq f.src f.dst h
  | .ack h => parseAck f.src f.dst h
  | .nack h => parseNack f.src f.dst h
  | .ctrl h => parseCtrl f.src f.dst h

end Uet.Pds
