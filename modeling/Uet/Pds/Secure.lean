import Uet.Pds.Assign

/-!
# The secured receive path

`uet_sec_dec_pkt`, `uet_pds_rx_pkt_chk` and the front of `uet_pds_progress_rx`: what a
frame taken from the NIC does to one PDC. A TSS header makes the frame go through
decryption under the secure domain the header names; without one the frame passes in
clear, and only a CRC is checked. No handler behind it looks at the TSS header again.

The bytes behind the TSS header are an arbitrary type. `TssCodec` stands for what is
not modelled: AES-GCM with the key derivation, and the byte layout of the PDS header.
-/

namespace Uet.Pds

/-! ## Secure domains and raw frames -/

/-- `uet_sec_mode_t`. -/
inductive SecMode where
  | none | direct | cluster | server
  deriving DecidableEq, Repr

/-- `struct uet_sec_sd` as the receive path reads it. `key` is the effective key for an
address family (IPv6 or not) and an association number. -/
structure SecSd where
  enabled : Bool
  mode : SecMode
  useSsi : Bool
  rekey : Bool
  rekeyMask : BitVec 64
  rekeyShift : Nat
  epoch : BitVec 16
  epochBasedRejection : Bool
  rxMaxEpochLifetime : BitVec 16
  authFailThreshold : BitVec 64
  domainDropping : Bool
  inAuthFailPkts : BitVec 64
  key : Bool → Bool → List (BitVec 8)

/-- `UET_SEC_MAX_SD`. -/
abbrev secMaxSd : Nat := 8

/-- The SD table `sdkdb`. -/
abbrev Sdkdb := Fin secMaxSd → SecSd

/-- `uet_sec_sd_get`. -/
def secSdGet (sdi : BitVec 24) : Option (Fin secMaxSd) :=
  if h : sdi.toNat < secMaxSd then some ⟨sdi.toNat, h⟩ else none

/-- The security header. `w1`, `w2`, `w3` are the words behind the first one, since
where the SSI and the counter stand in them is decided by the SD on one side and by
`sp` on the other. -/
structure TssHdr where
  sp : Bool
  an : Bool
  sdi : BitVec 24
  w1 : BitVec 32
  w2 : BitVec 32
  w3 : BitVec 32
  deriving DecidableEq, Repr

def TssHdr.ssi (t : TssHdr) : BitVec 32 := t.w1

/-- `epoch_tsc` of `struct uet_sec_ssi` or of `struct uet_sec`. -/
def TssHdr.epochTsc (t : TssHdr) (useSsi : Bool) : BitVec 64 :=
  if useSsi then t.w2 ++ t.w3 else t.w1 ++ t.w2

/-- `UET_SEC_EPOCH_MASK`. -/
def tscEpoch (tsc : BitVec 64) : BitVec 16 := (tsc >>> 48).setWidth 16

/-- `UET_SEC_TSC_MASK`. -/
def tscCounter (tsc : BitVec 64) : BitVec 64 := tsc &&& 0x0000ffffffffffff

inductive Ether where
  | ip (src dst : BitVec 32)
  | ipv6 (src dst : BitVec 128)
  | other
  deriving DecidableEq, Repr

def Ether.isIpv6 : Ether → Bool
  | .ipv6 _ _ => true
  | _ => false

/-- A frame as the NIC hands it over: what the Ethernet and IP checks find, the
security header if the header behind the entropy has type `UET_PDS_TYPE_SECURITY`, and
the bytes that follow. -/
structure RawFrame (β : Type) where
  macOk : Bool
  ether : Ether
  versionOk : Bool
  ihlOk : Bool
  protoOk : Bool
  lenOk : Bool
  csumOk : Bool
  tss : Option TssHdr
  body : β
  crcOk : Bool

/-- Which key `uet_sec_dec_pkt` decrypts with: the SD's own, or one derived under a
label from the epoch, the rekey count and an SSI or source address. -/
inductive KeyReq where
  | raw (isIpv6 an : Bool)
  | kdf (label : SecMode) (an : Bool) (epoch : BitVec 16) (rekey : BitVec 32) (ctx : Fa)
  deriving DecidableEq, Repr

/-- `gcmAuthDecrypt sd key ivHead tsc frame` is the decrypted body, `none` if the tag
does not verify; `parse` is the PDS header found behind the security header, `none`
for a malformed packet and for the types that reach no PDC. -/
structure TssCodec (β : Type) where
  gcmAuthDecrypt : SecSd → KeyReq → BitVec 32 → BitVec 64 → RawFrame β → Option β
  parse : Option TssHdr → β → Option PdsHdr

variable {β : Type}

/-! ## `uet_sec_dec_pkt` -/

def uetIp (f : RawFrame β) : Bool :=
  match f.ether with
  | .ipv6 _ _ => f.protoOk
  | .ip _ _ => f.versionOk && f.ihlOk && f.protoOk
  | .other => false

def lateEpoch (sd : SecSd) (tsc : BitVec 64) : Bool :=
  let age := sd.epoch - tscEpoch tsc
  sd.epochBasedRejection && decide (age < 0x8000) && decide (sd.rxMaxEpochLifetime < age)

def kdfCtx (sd : SecSd) (t : TssHdr) : Ether → Fa
  | .ipv6 src _ => .v6 src
  | .ip src _ => .v4 (if sd.useSsi then t.ssi else src)
  | .other => .v4 0

/-- The key generation; `none` is an unknown mode. In server mode the client works
with the key itself (`server` is whether `UET_SEC_SERVER` is set). -/
def keyReq (server : Bool) (sd : SecSd) (t : TssHdr) (e : Ether) : Option KeyReq :=
  let tsc := t.epochTsc sd.useSsi
  let rekey := if sd.rekey then
    ((tscCounter tsc &&& sd.rekeyMask) >>> sd.rekeyShift).setWidth 32 else 0
  match sd.mode with
  | .direct => some (.raw e.isIpv6 t.an)
  | .cluster => some (.kdf .cluster t.an (tscEpoch tsc) rekey (kdfCtx sd t e))
  | .server =>
    if server then some (.kdf .server t.an (tscEpoch tsc) 0 (kdfCtx sd t e))
    else some (.raw e.isIpv6 t.an)
  | .none => none

def ivHead (sd : SecSd) (t : TssHdr) (e : Ether) : BitVec 32 :=
  if sd.useSsi then t.ssi
  else
    match e with
    | .ip src _ => src
    | _ => t.sdi.setWidth 32

/-- What `uet_sec_dec_pkt` does with a frame: leaves it in clear, makes the caller
drop it, or has decrypted and authenticated it. -/
inductive DecRc (β : Type) where
  | clear
  | drop
  | opened (body : β)
  deriving DecidableEq, Repr

def SecSd.authFailed (sd : SecSd) : SecSd :=
  { sd with
    inAuthFailPkts := sd.inAuthFailPkts + 1
    domainDropping := sd.domainDropping || decide (sd.authFailThreshold < sd.inAuthFailPkts + 1) }

/-- `uet_sec_dec_pkt` behind the lookup of the SD. -/
def decUnder (c : TssCodec β) (server : Bool) (sd : SecSd) (t : TssHdr) (f : RawFrame β) :
    SecSd × DecRc β :=
  if !sd.enabled then (sd, .drop)
  else if sd.domainDropping then (sd, .drop)
  else if sd.useSsi && !t.sp then (sd, .drop)
  else if lateEpoch sd (t.epochTsc sd.useSsi) then (sd, .drop)
  else
    match keyReq server sd t f.ether with
    | none => (sd, .drop)
    | some k =>
      match c.gcmAuthDecrypt sd k (ivHead sd t f.ether) (t.epochTsc sd.useSsi) f with
      | none => (sd.authFailed, .drop)
      | some body => (sd, .opened body)

/-- `uet_sec_dec_pkt`. -/
def secDecPkt (c : TssCodec β) (server : Bool) (sds : Sdkdb) (f : RawFrame β) :
    Sdkdb × DecRc β :=
  if !uetIp f then (sds, .clear)
  else
    match f.tss with
    | none => (sds, .clear)
    | some t =>
      match secSdGet t.sdi with
      | none => (sds, .drop)
      | some i =>
        let (sd, rc) := decUnder c server (sds i) t f
        (Function.update sds i sd, rc)

/-- The frame was decrypted and authenticated under the secure domain `sdi`. -/
def authenticated (c : TssCodec β) (server : Bool) (sds : Sdkdb) (sdi : BitVec 32)
    (f : RawFrame β) : Bool :=
  match f.tss, (secDecPkt c server sds f).2 with
  | some t, .opened _ => t.sdi.setWidth 32 == sdi
  | _, _ => false

/-! ## From the NIC to a PDC -/

/-- `uet_pds_rx_pkt_chk` without the packet type, which `TssCodec.parse` refuses. -/
def rxPktChk (f : RawFrame β) : Bool :=
  f.macOk &&
    match f.ether with
    | .ipv6 _ _ => f.versionOk && f.protoOk && f.lenOk
    | .ip _ _ => f.versionOk && f.ihlOk && f.protoOk && f.lenOk && f.csumOk
    | .other => false

def parseFrame (c : TssCodec β) (f : RawFrame β) (body : β) : Option Frame :=
  match f.ether with
  | .ipv6 src dst => (c.parse f.tss body).map fun h => ⟨.v6 src, .v6 dst, h⟩
  | .ip src dst => (c.parse f.tss body).map fun h => ⟨.v4 src, .v4 dst, h⟩
  | .other => none

/-- The lookup of a PDC: a SYN request finds a target by its key, everything else
names a PDC identifier, 0 being reserved. -/
def routesTo (p : Pdc) (pp : ParsedPkt) : Bool :=
  if (pp.pdsType == .rudReq || pp.pdsType == .rodReq) && pp.syn then
    !p.isInitiator && p.dstAddr == pp.src && p.srcAddr == pp.dst && p.dpdcid == pp.spdcid
  else pp.dpdcid != 0 && pp.dpdcid == p.pdcId

/-- The frame is one that `uet_pds_progress_rx` hands to the PDC `p`. -/
def reaches (c : TssCodec β) (p : Pdc) (f : RawFrame β) (body : β) : Bool :=
  rxPktChk f &&
    match parseFrame c f body with
    | none => false
    | some fr => (f.tss.isSome || f.crcOk) && routesTo p (parsePkt fr)

/-- `uet_pds_progress_rx` behind decryption. -/
def progressRxBody (c : TssCodec β) (env : Env) (p : Pdc) (f : RawFrame β) (body : β) :
    Pdc × List Out :=
  if !rxPktChk f then (p, [])
  else
    match parseFrame c f body with
    | none => (p, [])
    | some fr =>
      -- the CRC stands in for the tag of a frame without security header
      if f.tss.isNone && !f.crcOk then (p, [])
      else if routesTo p (parsePkt fr) then progressRx env p fr
      else (p, [])

/-- `uet_pds_progress_rx` from the NIC on: the SD table, and the PDC `p` with what it
sends and reports. -/
def progressRxFrame (c : TssCodec β) (server : Bool) (env : Env) (sds : Sdkdb) (p : Pdc)
    (f : RawFrame β) : Sdkdb × Pdc × List Out :=
  match secDecPkt c server sds f with
  | (sds, .drop) => (sds, p, [])
  | (sds, .clear) => (sds, progressRxBody c env p f f.body)
  | (sds, .opened body) => (sds, progressRxBody c env p f body)

/-! ## What decryption leaves in clear and what it opens -/

variable {f : RawFrame β} {c : TssCodec β}

theorem uetIp_of_rxPktChk (h : rxPktChk f = true) : uetIp f = true := by
  simp only [rxPktChk, uetIp] at h ⊢
  cases he : f.ether <;> simp_all

/-- A frame that passes decryption in clear and the packet check has no security header:
the two agree on what an UET packet is. -/
theorem tss_none_of_clear {server : Bool} {sds sds' : Sdkdb} (hd : secDecPkt c server sds f = (sds', .clear))
    (hc : rxPktChk f = true) : f.tss = none := by
  have hip := uetIp_of_rxPktChk hc
  cases ht : f.tss with
  | none => rfl
  | some t =>
    exfalso
    simp only [secDecPkt, hip, ht, Bool.not_true, Bool.false_eq_true, if_false] at hd
    cases hs : secSdGet t.sdi with
    | none => simp [hs] at hd
    | some i =>
      simp only [hs, decUnder] at hd
      repeat' split at hd
      all_goals simp at hd

theorem secDecPkt_opened {server : Bool} {sds sds' : Sdkdb} {body : β}
    (hd : secDecPkt c server sds f = (sds', .opened body)) :
    ∃ t i, f.tss = some t ∧ secSdGet t.sdi = some i ∧ (sds i).enabled = true := by
  unfold secDecPkt at hd
  split at hd
  · simp at hd
  cases ht : f.tss with
  | none => simp [ht] at hd
  | some t =>
    cases hs : secSdGet t.sdi with
    | none => simp [ht, hs] at hd
    | some i =>
      refine ⟨t, i, rfl, hs, ?_⟩
      by_contra hen
      rw [Bool.not_eq_true] at hen
      simp [ht, hs, decUnder, hen] at hd

theorem progressRxBody_of_not_reaches {env : Env} {p : Pdc} {body : β} (h : reaches c p f body = false) :
    progressRxBody c env p f body = (p, []) := by
  unfold progressRxBody
  unfold reaches at h
  by_cases hc : rxPktChk f = true
  · rw [hc, Bool.true_and] at h
    rw [hc]
    cases hp : parseFrame c f body with
    | none => rfl
    | some fr =>
      simp only [hp] at h
      cases ht : f.tss <;> cases hcrc : f.crcOk <;> simp_all
  · simp [hc]

/-! ## Authenticated input only -/

def sdEnabled (sds : Sdkdb) (t : TssHdr) : Bool :=
  match secSdGet t.sdi with
  | some i => (sds i).enabled
  | none => false

/-- The frame does not come in clear to `p` with a good CRC, and a security header does
not name another enabled secure domain. -/
def tssGuarded (c : TssCodec β) (sds : Sdkdb) (p : Pdc) (f : RawFrame β) : Bool :=
  match f.tss with
  | none => !reaches c p f f.body
  | some t => t.sdi.setWidth 32 == p.sdi || !sdEnabled sds t

def closedCodec : TssCodec PdsHdr := ⟨fun _ _ _ _ _ => none, fun _ h => some h⟩

/-- The SD table with the one domain `uet_sec_init` configures, SDI 1 in cluster mode. -/
def oneSd : Sdkdb := fun i =>
  { enabled := i == 1, mode := .cluster, useSsi := false, rekey := false, rekeyMask := 0,
    rekeyShift := 0, epoch := 0, epochBasedRejection := false, rxMaxEpochLifetime := 0,
    authFailThreshold := 100, domainDropping := false, inAuthFailPkts := 0, key := fun _ _ => [] }

def securedIni : Pdc := ((newIniPdc (freshSlot 1) true (.v4 1) (.v4 2) 1000).run [sendMsg 9]).1

/-- An ACK of PSN 1000 to `securedIni`, behind `tss`. -/
def rawAck (tss : Option TssHdr) : RawFrame PdsHdr :=
  { macOk := true, ether := .ip 2 1, versionOk := true, ihlOk := true, protoOk := true,
    lenOk := true, csumOk := true, tss, crcOk := true
    body := .ack
      { pdsType := .ack, nextHdr := .rsp, reqClr := false, epsn := false, ackPsnOffset := 0,
        cackPsn := 1000, spdcid := 7, dpdcid := 1, mpr := 0, sackPsnOffset := 0, sackBitmap := 0,
        payload := 0, ses := .rsp [1] } }

/-- The handles of the messages that `rx_rsp` upcalls report. -/
def responsesOf (os : List Out) : List (Option Handle) :=
  os.filterMap fun o => match o with
    | .rxRsp _ h _ => some h
    | _ => none

end Uet.Pds
