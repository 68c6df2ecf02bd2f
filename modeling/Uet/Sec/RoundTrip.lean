import Uet.BigEndian
import Uet.Sec.TxNonce

/-!
# Decryption undoes encryption

`uet_sec_build_hdr`, `uet_sec_enc_pkt` and `uet_sec_dec_pkt` on the bytes of a frame. Sender and receiver find
the key, the IV, the additional data and the lengths each on its own side, from the frame, from their secure
domain and from their environment. GCM is any pair of functions of which one undoes the other.

The layout of the header and what goes into key and IV follow the domain of each side, not the header, so
the two sides have to be set up alike (`Peers`).
-/

namespace Uet.Sec

open List

open Uet.Pds (SecMode Ether)
open BigEndian

/-! ## Bytes of a frame -/

/-- `UET_SEC_TAG_LEN`. -/
def tagLen : Nat := 16
/-- `UET_IPPROTO`. -/
def ipProto : Nat := 253
def secOff (v6 : Bool) : Nat := 14 + (if v6 then 40 else 20) + 4
/-- `sd->coff`. -/
def coff (useSsi : Bool) : Nat := if useSsi then 12 + 4 else 12
/-- `UET_SEC_AOFF`, backwards. -/
def aoff (v6 : Bool) : Nat := if v6 then 36 else 12
/-- `clrtxt_len`. -/
def clearLen (v6 useSsi : Bool) : Nat := secOff v6 + coff useSsi

/-- `type_flags_sdi`. -/
def SecHdr.typeFlagsSdi (hdr : SecHdr) : BitVec 32 :=
  1 <<< 27 ||| (if hdr.an then 1 else 0) <<< 24 &&& 0x01000000 ||| hdr.sdi.setWidth 32 &&& 0x00ffffff |||
    (if hdr.sp then 1 <<< 26 else 0)

/-- `struct uet_sec`, or `struct uet_sec_ssi` where there is an SSI. -/
def SecHdr.bytes (hdr : SecHdr) : List Byte :=
  toBytes 4 hdr.typeFlagsSdi.toNat ++
    ((if hdr.sp then toBytes 4 hdr.ssi.toNat else []) ++ toBytes 8 hdr.epochTsc.toNat)

/-- The header of a frame as a side reads it that uses SSIs or does not; `none` where it is of another
type. -/
def readHdr (useSsi : Bool) (off : Nat) (frame : List Byte) : Option SecHdr :=
  let tfs := BitVec.ofNat 32 (read 4 off frame)
  if (tfs &&& 0xf8000000) >>> 27 ≠ 1 then none
  else some
    { sp := tfs &&& 0x04000000 != 0, an := tfs &&& 0x01000000 != 0, sdi := (tfs &&& 0x00ffffff).setWidth 24
      ssi := if useSsi then BitVec.ofNat 32 (read 4 (off + 4) frame) else 0
      epochTsc := BitVec.ofNat 64 (read 8 (off + if useSsi then 8 else 4) frame) }

def etherOf (v6 : Bool) (frame : List Byte) : Ether :=
  if v6 then .ipv6 (BitVec.ofNat 128 (read 16 22 frame)) (BitVec.ofNat 128 (read 16 38 frame))
  else .ip (BitVec.ofNat 32 (read 4 26 frame)) (BitVec.ofNat 32 (read 4 30 frame))

/-- The checks at the start of `uet_sec_dec_pkt`: whether a frame is for UET, and over which family. -/
def uetFamily (frame : List Byte) : Option Bool :=
  if read 2 12 frame = 0x86dd then
    if read 1 20 frame = ipProto then some true else none
  else if read 2 12 frame = 0x0800 then
    if read 1 14 frame / 16 = 4 ∧ read 1 14 frame % 16 = 5 ∧ read 1 23 frame = ipProto then some false else none
  else none

def aad (v6 useSsi : Bool) (frame : List Byte) : List Byte :=
  (frame.take (clearLen v6 useSsi)).drop (secOff v6 - aoff v6)

def text (v6 useSsi : Bool) (frame : List Byte) : List Byte :=
  (frame.drop (clearLen v6 useSsi)).take (frame.length - clearLen v6 useSsi - tagLen)

/-! ## Encrypting and decrypting -/

/-- `gcm_crypt_and_tag` and `gcm_auth_decrypt`: under the same key, IV and additional data the second
undoes the first. -/
structure Gcm where
  encrypt : GcmKey → BitVec 96 → List Byte → List Byte → List Byte × List Byte
  decrypt : GcmKey → BitVec 96 → List Byte → List Byte → List Byte → Option (List Byte)
  length_text : ∀ key iv ad t, (encrypt key iv ad t).1.length = t.length
  length_tag : ∀ key iv ad t, (encrypt key iv ad t).2.length = tagLen
  inverts : ∀ key iv ad t, decrypt key iv ad (encrypt key iv ad t).1 (encrypt key iv ad t).2 = some t

/-- The move of the headers in `uet_sec_build_hdr`, with room for the tag behind the packet as its
callers leave it. -/
def injectHdr (v6 : Bool) (hdr : SecHdr) (pkt room : List Byte) : List Byte :=
  pkt.take (secOff v6) ++ (hdr.bytes ++ (pkt.drop (secOff v6) ++ room))

/-- `uet_sec_enc_pkt`. -/
def encFrame (g : Gcm) (mask : GcmKey → BitVec 96) (h : Host) (sd : TxSd) (v6 : Bool) (pkt : List Byte)
    (t3 : BitVec 64) : TxSd × Option (List Byte) :=
  match readHdr sd.useSsi (secOff v6) pkt with
  | none => (sd, none)
  | some hdr =>
    if hdr.sdi ≠ sd.sdi then (sd, none)
    else
      match secEncPkt mask h sd hdr (etherOf v6 pkt) t3 with
      | (sd', none) => (sd', none)
      | (sd', some (key, iv)) =>
        let c := g.encrypt key iv (aad v6 sd.useSsi pkt) (text v6 sd.useSsi pkt)
        (sd', some (pkt.take (clearLen v6 sd.useSsi) ++ (c.1 ++ c.2)))

def serverRxContext (sd : TxSd) (hdr : SecHdr) : Ether → KdfCtx
  | .ipv6 src _ => largeContext hdr.epoch 0 src
  | .ip src _ => smallContext hdr.epoch 0 (if sd.useSsi then hdr.ssi else src)
  | .other => smallContext hdr.epoch 0 hdr.ssi

/-- The key generation of `uet_sec_dec_pkt`. -/
def decKey (h : Host) (sd : TxSd) (hdr : SecHdr) (e : Ether) (base : GcmKey) : Option GcmKey :=
  match sd.mode with
  | .direct => some base
  | .cluster => some (.kdf base .u1 (clusterContext sd hdr e))
  | .server => if h.server then some (.kdf base .u2 (serverRxContext sd hdr e)) else some base
  | .none => none

structure RxSd where
  sd : TxSd
  domainDropping : Bool
  inAuthFailPkts : Nat

/-- `DEF_RX_MAX_EPOCH_LIFETIME` and `DEF_AUTH_FAIL_THRESHOLD`. -/
def rxMaxEpochLifetime : BitVec 16 := 16
def authFailThreshold : Nat := 1000

def lateEpoch (current epoch : BitVec 16) : Bool :=
  decide (current - epoch < 0x8000) && decide (rxMaxEpochLifetime < current - epoch)

/-- What `uet_sec_dec_pkt` does with a frame: it leaves it in clear, makes the caller drop it, or has
decrypted it in place. -/
inductive Decrypted where
  | clear
  | dropped
  | opened (frame : List Byte)
  deriving DecidableEq

/-- `uet_sec_dec_pkt`. -/
def decFrame (g : Gcm) (mask : GcmKey → BitVec 96) (h : Host) (rx : RxSd) (frame : List Byte)
    (now : BitVec 64) : RxSd × Decrypted :=
  match uetFamily frame with
  | none => (rx, .clear)
  | some v6 =>
    match readHdr rx.sd.useSsi (secOff v6) frame with
    | none => (rx, .clear)
    | some hdr =>
      if hdr.sdi ≠ rx.sd.sdi then (rx, .dropped)
      else if rx.domainDropping then (rx, .dropped)
      else if rx.sd.useSsi && !hdr.sp then (rx, .dropped)
      else if lateEpoch rx.sd.epoch hdr.epoch then (rx, .dropped)
      else
        let e := etherOf v6 frame
        let base := secSdKey rx.sd now (famOf e) hdr.an
        let rx' := { rx with sd := base.1 }
        match decKey h rx.sd hdr e base.2 with
        | none => (rx', .dropped)
        | some key =>
          let iv := encIvHead rx.sd hdr e ++ hdr.epochTsc
          let iv := if rx.sd.mode = .direct then iv else iv ^^^ mask key
          match g.decrypt key iv (aad v6 rx.sd.useSsi frame) (text v6 rx.sd.useSsi frame)
              (frame.drop (frame.length - tagLen)) with
          | none =>
            ({ rx' with
                inAuthFailPkts := rx.inAuthFailPkts + 1
                domainDropping := decide (authFailThreshold < rx.inAuthFailPkts + 1) }, .dropped)
          | some t =>
            (rx', .opened (frame.take (clearLen v6 rx.sd.useSsi) ++ (t ++ frame.drop (frame.length - tagLen))))

/-! ## The header -/

theorem flags_typeFlagsSdi {hdr : SecHdr} (h : hdr.sdi = 1) : (hdr.typeFlagsSdi &&& 0xf8000000) >>> 27 = 1 ∧
    (hdr.typeFlagsSdi &&& 0x04000000 != 0) = hdr.sp ∧ (hdr.typeFlagsSdi &&& 0x01000000 != 0) = hdr.an ∧
    (hdr.typeFlagsSdi &&& 0x00ffffff).setWidth 24 = hdr.sdi := by
  unfold SecHdr.typeFlagsSdi
  rw [h]
  generalize hdr.sp = sp
  generalize hdr.an = an
  revert sp an
  decide

theorem length_bytes (hdr : SecHdr) : hdr.bytes.length = coff hdr.sp := by
  unfold SecHdr.bytes coff
  cases hdr.sp <;> simp

theorem readHdr_bytes {hdr : SecHdr} (hsdi : hdr.sdi = 1) (hssi : hdr.sp = false → hdr.ssi = 0) {off : Nat}
    {pre : List Byte} (hpre : pre.length = off) (post : List Byte) :
    readHdr hdr.sp off (pre ++ (hdr.bytes ++ post)) = some hdr := by
  obtain ⟨htype, hsp, han, hid⟩ := flags_typeFlagsSdi hsdi
  have hword : ∀ w : BitVec 32, w.toNat < 256 ^ 4 := fun w => w.isLt
  have hlong : hdr.epochTsc.toNat < 256 ^ 8 := hdr.epochTsc.isLt
  have hpre4 : (pre ++ toBytes 4 hdr.typeFlagsSdi.toNat).length = off + 4 := by
    rw [length_append, hpre, length_toBytes]
  have htfs : read 4 off (pre ++ (hdr.bytes ++ post)) = hdr.typeFlagsSdi.toNat := by
    unfold SecHdr.bytes
    rw [append_assoc]
    exact read_toBytes (hword _) hpre _
  unfold readHdr
  rw [htfs, BitVec.ofNat_toNat, BitVec.setWidth_eq, if_neg (not_not.mpr htype), hsp, han, hid]
  cases hs : hdr.sp with
  | true =>
    have hid4 : read 4 (off + 4) (pre ++ (hdr.bytes ++ post)) = hdr.ssi.toNat := by
      unfold SecHdr.bytes
      rw [hs, if_pos rfl, append_assoc, ← append_assoc, append_assoc (toBytes 4 hdr.ssi.toNat)]
      exact read_toBytes (hword _) hpre4 _
    have hpre8 : (pre ++ toBytes 4 hdr.typeFlagsSdi.toNat ++ toBytes 4 hdr.ssi.toNat).length = off + 8 := by
      rw [length_append, hpre4, length_toBytes]
    have htsc : read 8 (off + 8) (pre ++ (hdr.bytes ++ post)) = hdr.epochTsc.toNat := by
      unfold SecHdr.bytes
      rw [hs, if_pos rfl, append_assoc, ← append_assoc, append_assoc (toBytes 4 hdr.ssi.toNat),
        ← append_assoc]
      exact read_toBytes hlong hpre8 _
    rw [if_pos rfl, if_pos rfl, hid4, htsc, BitVec.ofNat_toNat, BitVec.ofNat_toNat, BitVec.setWidth_eq,
      BitVec.setWidth_eq, ← hs]
  | false =>
    have htsc : read 8 (off + 4) (pre ++ (hdr.bytes ++ post)) = hdr.epochTsc.toNat := by
      unfold SecHdr.bytes
      rw [hs, if_neg Bool.false_ne_true, nil_append, append_assoc, ← append_assoc]
      exact read_toBytes hlong hpre4 _
    rw [if_neg Bool.false_ne_true, if_neg Bool.false_ne_true, htsc, BitVec.ofNat_toNat, BitVec.setWidth_eq,
      ← hs, ← hssi hs]

/-! ## The parts of a frame -/

section

variable {xs ys : List Byte} {k : Nat}

theorem uetFamily_congr (h : xs.take k = ys.take k) (hk : 24 ≤ k) : uetFamily xs = uetFamily ys := by
  unfold uetFamily
  rw [read_congr h (by omega : 12 + 2 ≤ k), read_congr h (by omega : 20 + 1 ≤ k),
    read_congr h (by omega : 14 + 1 ≤ k), read_congr h (by omega : 23 + 1 ≤ k)]

theorem etherOf_congr {v6 : Bool} (h : xs.take k = ys.take k) (hk : secOff v6 ≤ k) :
    etherOf v6 xs = etherOf v6 ys := by
  unfold etherOf
  cases v6 with
  | true =>
    have hk : 58 ≤ k := hk
    rw [if_pos rfl, if_pos rfl, read_congr h (by omega : 22 + 16 ≤ k), read_congr h (by omega : 38 + 16 ≤ k)]
  | false =>
    have hk : 38 ≤ k := hk
    rw [if_neg Bool.false_ne_true, if_neg Bool.false_ne_true, read_congr h (by omega : 26 + 4 ≤ k),
      read_congr h (by omega : 30 + 4 ≤ k)]

theorem aad_congr {v6 useSsi : Bool} (h : xs.take (clearLen v6 useSsi) = ys.take (clearLen v6 useSsi)) :
    aad v6 useSsi xs = aad v6 useSsi ys := by
  unfold aad
  rw [h]

theorem parts {v6 useSsi : Bool} {head tag : List Byte} (hhead : head.length = clearLen v6 useSsi)
    (body : List Byte) (htag : tag.length = tagLen) :
    (head ++ (body ++ tag)).take (clearLen v6 useSsi) = head ∧ text v6 useSsi (head ++ (body ++ tag)) = body ∧
      (head ++ (body ++ tag)).drop ((head ++ (body ++ tag)).length - tagLen) = tag := by
  refine ⟨take_left' hhead, ?_, ?_⟩
  · unfold text
    rw [drop_left' hhead, length_append, length_append, hhead, htag]
    exact take_left' (by omega)
  · rw [← append_assoc, length_append, htag, Nat.add_sub_cancel]
    exact drop_left

end

/-! ## The two domains -/

def Host.Receives (h : Host) : Ether → Prop
  | .ip _ dst => h.v4 = some dst
  | .ipv6 _ dst => h.v6 = some dst
  | .other => False

/-- Hosts that are set up alike: in the same mode, both with an SSI or both without; in server mode a server that
writes the SSI of its client, or a client with its server. -/
structure Peers (a b : Host) : Prop where
  mode : b.mode = a.mode
  ssi : b.ssi.isSome = a.ssi.isSome
  roles : a.mode = .server →
    (a.server = true ∧ b.server = false ∧ a.clientSsi = b.ssi) ∨ (a.server = false ∧ b.server = true)

structure Packet (a b : Host) (v6 : Bool) (pkt : List Byte) : Prop where
  length : secOff v6 ≤ pkt.length
  family : uetFamily pkt = some v6
  src : a.Owns (etherOf v6 pkt)
  dst : b.Receives (etherOf v6 pkt)

structure Setup (h : Host) (sd : TxSd) : Prop where
  config : Config h sd
  rekey : sd.rekey = (h.mode == .cluster)
  rekeyMask : sd.rekeyMask = 0xff00
  rekeyShift : sd.rekeyShift = 8
  epoch : sd.epoch = 0
  client : sd.client = fun fam => if h.mode = .server ∧ !h.server then clientContext h fam else none
  secured : h.mode ≠ .none
  ssi : h.mode = .server → h.ssi.isSome = true

variable {sd : TxSd}

theorem setup_init {h : Host} {t : BitVec 64} (hinit : secInit h t = some sd) : Setup h sd := by
  have hconfig := config_init hinit
  obtain ⟨hsd, hmode, hssi⟩ : secInitSd h (h.mode == .cluster) t = some sd ∧ h.mode ≠ .none ∧
      (h.mode = .server → h.ssi.isSome = true) := by
    unfold secInit at hinit
    cases hm : h.mode with
    | none => rw [hm] at hinit; cases hinit
    | direct => rw [hm] at hinit; exact ⟨hinit, nofun, nofun⟩
    | cluster => rw [hm] at hinit; exact ⟨hinit, nofun, nofun⟩
    | server =>
      rw [hm] at hinit
      dsimp only at hinit
      split at hinit
      · cases hinit
      rename_i hnone
      split at hinit
      · cases hinit
      refine ⟨hinit, nofun, fun _ => ?_⟩
      rw [Bool.not_eq_true, Option.isNone_eq_false_iff] at hnone
      exact hnone
  unfold secInitSd at hsd
  split at hsd
  · cases hsd
  · cases hsd
    exact ⟨hconfig, rfl, rfl, rfl, rfl, rfl, hmode, hssi⟩

theorem Setup.state {h : Host} (hs : Setup h sd) (counter rot : BitVec 64) (keys : SdKeys) :
    Setup h { sd with txCounter := counter, txRot := rot, keys } :=
  ⟨⟨hs.config.mode, hs.config.useSsi, hs.config.sdi⟩, hs.rekey, hs.rekeyMask, hs.rekeyShift, hs.epoch, hs.client,
    hs.secured, hs.ssi⟩

theorem epoch_epochTsc (c : BitVec 64) : ((epochTsc 0 c) >>> 48).setWidth 16 = 0 := by
  unfold epochTsc
  apply BitVec.eq_of_getLsbD_eq
  intro i hi
  rw [BitVec.getLsbD_setWidth, BitVec.getLsbD_ushiftRight, BitVec.getLsbD_or, BitVec.getLsbD_and]
  have hmask : (0x0000ffffffffffff : BitVec 64).getLsbD (48 + i) = false := by
    have : ∀ j < 16, (0x0000ffffffffffff : BitVec 64).getLsbD (48 + j) = false := by decide
    exact this i hi
  rw [hmask, Bool.and_false, Bool.or_false]
  simp

structure Built (h : Host) (keys : SdKeys) (sd : TxSd) (hdr : SecHdr) : Prop where
  setup : Setup h sd
  keys : sd.keys = keys
  sp : hdr.sp = sd.useSsi
  sdi : hdr.sdi = 1
  ssi : hdr.ssi = if sd.useSsi then h.hdrSsi else 0
  epoch : hdr.epoch = 0

theorem secBuildHdr_built {h : Host} {sd sd' : TxSd} {hdr : SecHdr} {t1 t2 : BitVec 64} (hs : Setup h sd)
    (hbuild : secBuildHdr h sd t1 t2 = (sd', some hdr)) : Built h sd.keys sd' hdr := by
  obtain ⟨hsetup, hkeys⟩ : Setup h (sdTxRotate sd t2) ∧ (sdTxRotate sd t2).keys = sd.keys := by
    unfold sdTxRotate
    split
    · exact ⟨⟨⟨hs.config.mode, hs.config.useSsi, hs.config.sdi⟩, hs.rekey, hs.rekeyMask, hs.rekeyShift, rfl,
        hs.client, hs.secured, hs.ssi⟩, rfl⟩
    · exact ⟨hs, rfl⟩
  unfold secBuildHdr takeTsc at hbuild
  split at hbuild
  · cases hbuild
  rename_i tsc htake
  split at htake
  · cases htake
  cases htake
  cases hbuild
  refine ⟨hsetup.state _ _ _, hkeys, rfl, hsetup.config.sdi, rfl, ?_⟩
  rw [hsetup.epoch]
  exact epoch_epochTsc _

/-! ## Key and IV of both sides -/

variable {keys : SdKeys}

section

variable {a b : Host} {sa sb : TxSd} {hdr : SecHdr} {e : Ether} {k : Fin 32 → Byte}

/-- The key of a domain before a frame is looked at: that of the pool, or for a client of server mode
the one derived from it. -/
def baseKey (sd : TxSd) (fam : Fam) (k : Fin 32 → Byte) : GcmKey :=
  match sd.client fam with
  | none => .bytes k
  | some ctx => .kdf (.bytes k) .u2 ctx

theorem secSdKey_eq (sd : TxSd) (now : BitVec 64) (fam : Fam) (an : Bool) :
    (secSdKey sd now fam an).2 = baseKey sd fam (gcmPart (sdKey sd.keys now fam an).2) := rfl

theorem baseKey_pool {h : Host} (hs : Setup h sd) (hno : ¬ (h.mode = .server ∧ (!h.server) = true))
    (fam : Fam) : baseKey sd fam k = .bytes k := by
  unfold baseKey
  rw [hs.client]
  dsimp only
  rw [if_neg hno]

theorem baseKey_client {h : Host} (hs : Setup h sd) (hm : h.mode = .server) (hc : h.server = false)
    {fam : Fam} {ctx : KdfCtx} (hctx : clientContext h fam = some ctx) :
    baseKey sd fam k = .kdf (.bytes k) .u2 ctx := by
  unfold baseKey
  rw [hs.client]
  dsimp only
  rw [if_pos ⟨hm, by rw [hc]; rfl⟩, hctx]

/-- The context that a client derived its key under is the one that a server finds from an address of the client
and an SSI of the client in the header. -/
theorem clientContext_ip {h : Host} {addr ssi : BitVec 32} (hv4 : h.v4 = some addr) (hssi : h.ssi = some ssi) :
    clientContext h .v4 = some (smallContext 0 0 ssi) := by
  unfold clientContext
  rw [hv4, hssi]
  rfl

theorem clientContext_ipv6 {h : Host} {addr : BitVec 128} (hv6 : h.v6 = some addr) (hssi : h.ssi.isSome = true) :
    clientContext h .v6 = some (largeContext 0 0 addr) := by
  unfold clientContext
  rw [if_pos hssi, hv6]
  rfl

theorem keys_agree (hp : Peers a b) (ha : Built a keys sa hdr) (hb : Setup b sb)
    (hsrc : a.Owns e) (hdst : b.Receives e) :
    ∃ key, encKey a sa hdr e (baseKey sa (famOf e) k) = some key ∧
      decKey b sb hdr e (baseKey sb (famOf e) k) = some key := by
  have hma : sa.mode = a.mode := ha.setup.config.mode
  have hmb : sb.mode = a.mode := hb.config.mode.trans hp.mode
  have hssi : sb.useSsi = sa.useSsi := by
    rw [hb.config.useSsi, ha.setup.config.useSsi, hp.ssi]
  unfold encKey decKey
  rw [hma, hmb]
  cases hm : a.mode with
  | none => exact absurd hm ha.setup.secured
  | direct =>
    refine ⟨.bytes k, ?_, ?_⟩
    · exact congrArg some (baseKey_pool ha.setup (by rw [hm]; exact nofun) _)
    · exact congrArg some (baseKey_pool hb (by rw [hp.mode, hm]; exact nofun) _)
  | cluster =>
    have hrekey : rekeyOf sb hdr = rekeyOf sa hdr := by
      unfold rekeyOf
      rw [hb.rekey, hb.rekeyMask, hb.rekeyShift, ha.setup.rekey, ha.setup.rekeyMask, ha.setup.rekeyShift, hp.mode]
    have hctx : clusterContext sb hdr e = clusterContext sa hdr e := by
      unfold clusterContext
      rw [hrekey, hssi]
    refine ⟨.kdf (.bytes k) .u1 (clusterContext sa hdr e), ?_, ?_⟩
    · rw [baseKey_pool ha.setup (by rw [hm]; exact nofun)]
    · rw [baseKey_pool hb (by rw [hp.mode, hm]; exact nofun), hctx]
  | server =>
    have hsomeA : a.ssi.isSome = true := ha.setup.ssi hm
    have hsomeB : b.ssi.isSome = true := hp.ssi.trans hsomeA
    have huse : sa.useSsi = true := ha.setup.config.useSsi.trans hsomeA
    have hmodeB : b.mode = .server := hp.mode.trans hm
    have hhdr : hdr.ssi = a.hdrSsi := by
      rw [ha.ssi, if_pos huse]
    rcases hp.roles hm with ⟨hserver, hclient, hnamed⟩ | ⟨hclient, hserver⟩
    · -- the server derives what the client derived when it was set up
      obtain ⟨ssi, hb4⟩ := Option.isSome_iff_exists.mp hsomeB
      have hid : hdr.ssi = ssi := by
        rw [hhdr, Host.hdrSsi, if_pos ⟨hm, hserver⟩, hnamed, hb4]
        rfl
      rw [if_pos hserver, hclient, if_neg Bool.false_ne_true,
        baseKey_pool ha.setup (by rw [hserver]; exact fun h => Bool.false_ne_true h.2)]
      refine ⟨_, rfl, congrArg some ?_⟩
      cases e with
      | ip src dst =>
        rw [show famOf (.ip src dst) = .v4 from rfl, baseKey_client hb hmodeB hclient (clientContext_ip hdst hb4)]
        unfold serverContext
        dsimp only
        rw [if_pos huse, ha.epoch, hid]
      | ipv6 src dst =>
        rw [show famOf (.ipv6 src dst) = .v6 from rfl,
          baseKey_client hb hmodeB hclient (clientContext_ipv6 hdst hsomeB)]
        unfold serverContext
        rw [ha.epoch]
      | other => exact hdst.elim
    · obtain ⟨ssi, ha4⟩ := Option.isSome_iff_exists.mp hsomeA
      have hid : hdr.ssi = ssi := by
        rw [hhdr, Host.hdrSsi, if_neg (by rw [hclient]; exact fun h => Bool.false_ne_true h.2), ha4]
        rfl
      rw [hclient, if_neg Bool.false_ne_true, if_pos hserver,
        baseKey_pool hb (by rw [hserver]; exact fun h => Bool.false_ne_true h.2)]
      refine ⟨_, rfl, congrArg some ?_⟩
      cases e with
      | ip src dst =>
        rw [show famOf (.ip src dst) = .v4 from rfl,
          baseKey_client ha.setup hm hclient (clientContext_ip hsrc ha4)]
        unfold serverRxContext
        dsimp only
        rw [hssi, if_pos huse, ha.epoch, hid]
      | ipv6 src dst =>
        rw [show famOf (.ipv6 src dst) = .v6 from rfl,
          baseKey_client ha.setup hm hclient (clientContext_ipv6 hsrc hsomeA)]
        unfold serverRxContext
        rw [ha.epoch]
      | other => exact hsrc.elim

theorem encIvHead_eq (hssi : sb.useSsi = sa.useSsi) : encIvHead sb hdr e = encIvHead sa hdr e := by
  unfold encIvHead
  rw [hssi]

end

/-! ## The round trip -/

variable {pkt : List Byte}

section

variable (g : Gcm) (mask : GcmKey → BitVec 96) {h : Host} {v6 : Bool} {hdr : SecHdr} {key : GcmKey}

def frameIv (mask : GcmKey → BitVec 96) (sd : TxSd) (hdr : SecHdr) (e : Ether) (key : GcmKey) : BitVec 96 :=
  if sd.mode = .direct then encIvHead sd hdr e ++ hdr.epochTsc
  else (encIvHead sd hdr e ++ hdr.epochTsc) ^^^ mask key

theorem secEncPkt_some {e : Ether} {t3 : BitVec 64} (hsp : hdr.sp = sd.useSsi)
    (hkey : encKey h sd hdr e (secSdKey sd t3 (famOf e) hdr.an).2 = some key) :
    secEncPkt mask h sd hdr e t3 =
      ((secSdKey sd t3 (famOf e) hdr.an).1, some (key, frameIv mask sd hdr e key)) := by
  have hssi : (sd.useSsi && !hdr.sp) = false := by
    rw [hsp]
    cases sd.useSsi <;> rfl
  unfold secEncPkt
  rw [hssi, if_neg Bool.false_ne_true]
  dsimp only
  rw [hkey]
  rfl

theorem encFrame_some {t3 : BitVec 64}
    (hread : readHdr sd.useSsi (secOff v6) pkt = some hdr) (hsdi : hdr.sdi = sd.sdi) (hsp : hdr.sp = sd.useSsi)
    (hkey : encKey h sd hdr (etherOf v6 pkt) (secSdKey sd t3 (famOf (etherOf v6 pkt)) hdr.an).2 = some key) :
    let c := g.encrypt key (frameIv mask sd hdr (etherOf v6 pkt) key) (aad v6 sd.useSsi pkt)
      (text v6 sd.useSsi pkt)
    (encFrame g mask h sd v6 pkt t3).2 = some (pkt.take (clearLen v6 sd.useSsi) ++ (c.1 ++ c.2)) := by
  unfold encFrame
  rw [hread]
  dsimp only
  rw [if_neg (not_not.mpr hsdi), secEncPkt_some mask hsp hkey]

theorem decFrame_opened {rx : RxSd} {frame t : List Byte} {now : BitVec 64} (hfam : uetFamily frame = some v6)
    (hread : readHdr rx.sd.useSsi (secOff v6) frame = some hdr) (hsdi : hdr.sdi = rx.sd.sdi)
    (hdrop : rx.domainDropping = false) (hsp : hdr.sp = rx.sd.useSsi)
    (hlate : lateEpoch rx.sd.epoch hdr.epoch = false) (hkey : decKey h rx.sd hdr (etherOf v6 frame)
      (secSdKey rx.sd now (famOf (etherOf v6 frame)) hdr.an).2 = some key)
    (hopen : g.decrypt key (frameIv mask rx.sd hdr (etherOf v6 frame) key) (aad v6 rx.sd.useSsi frame)
      (text v6 rx.sd.useSsi frame) (frame.drop (frame.length - tagLen)) = some t) :
    (decFrame g mask h rx frame now).2 =
      .opened (frame.take (clearLen v6 rx.sd.useSsi) ++ (t ++ frame.drop (frame.length - tagLen))) := by
  have hssi : (rx.sd.useSsi && !hdr.sp) = false := by
    rw [hsp]
    cases rx.sd.useSsi <;> rfl
  unfold frameIv at hopen
  unfold decFrame
  rw [hfam]
  dsimp only
  rw [hread]
  dsimp only
  rw [if_neg (not_not.mpr hsdi), hdrop, if_neg Bool.false_ne_true, hssi, if_neg Bool.false_ne_true, hlate,
    if_neg Bool.false_ne_true, hkey]
  dsimp only
  rw [hopen]

end

theorem length_clear {v6 : Bool} (hlen : secOff v6 ≤ pkt.length) (hdr : SecHdr) :
    (pkt.take (secOff v6)).length = secOff v6 ∧
      (pkt.take (secOff v6) ++ hdr.bytes).length = clearLen v6 hdr.sp := by
  have hpre : (pkt.take (secOff v6)).length = secOff v6 := by
    rw [length_take, min_eq_left hlen]
  refine ⟨hpre, ?_⟩
  rw [length_append, hpre, length_bytes]
  rfl

theorem clear_read {a b : Host} {hdr : SecHdr} (hbuilt : Built a keys sd hdr) {v6 : Bool} (hpkt : Packet a b v6 pkt) (rest : List Byte) :
    let frame := (pkt.take (secOff v6) ++ hdr.bytes) ++ rest
    uetFamily frame = some v6 ∧ etherOf v6 frame = etherOf v6 pkt ∧
      readHdr hdr.sp (secOff v6) frame = some hdr := by
  intro frame
  have hpre := (length_clear hpkt.length hdr).1
  have hframe : frame = pkt.take (secOff v6) ++ (hdr.bytes ++ rest) := append_assoc _ _ _
  have hstart : frame.take (secOff v6) = pkt.take (secOff v6) := by
    rw [hframe]
    exact take_left' hpre
  have hzero : hdr.sp = false → hdr.ssi = 0 := by
    intro hno
    rw [hbuilt.ssi, ← hbuilt.sp, hno, if_neg Bool.false_ne_true]
  refine ⟨?_, etherOf_congr hstart le_rfl, ?_⟩
  · exact (uetFamily_congr hstart (by cases v6 <;> decide)).trans hpkt.family
  · rw [hframe]
    exact readHdr_bytes hbuilt.sdi hzero hpre _

theorem Built.round_trip {a b : Host} {hdr : SecHdr} (hbuilt : Built a keys sd hdr)
    (hp : Peers a b) {rx : RxSd} (hrx : Setup b rx.sd) (hdrop : rx.domainDropping = false) {v6 : Bool}
    {pkt room : List Byte} (hpkt : Packet a b v6 pkt) (hroom : room.length = tagLen) {t3 tr : BitVec 64}
    (hkey : (sdKey sd.keys t3 (famOf (etherOf v6 pkt)) hdr.an).2 =
      (sdKey rx.sd.keys tr (famOf (etherOf v6 pkt)) hdr.an).2) (g : Gcm) (mask : GcmKey → BitVec 96) :
    ∃ frame tag, (encFrame g mask a sd v6 (injectHdr v6 hdr pkt room) t3).2 = some frame ∧
      frame.take (clearLen v6 hdr.sp) = pkt.take (secOff v6) ++ hdr.bytes ∧ tag.length = tagLen ∧
      (decFrame g mask b rx frame tr).2 =
        .opened (frame.take (clearLen v6 hdr.sp) ++ (pkt.drop (secOff v6) ++ tag)) := by
  have huse : rx.sd.useSsi = hdr.sp := by
    rw [hbuilt.sp, hbuilt.setup.config.useSsi, hrx.config.useSsi, hp.ssi]
  have hmode : rx.sd.mode = sd.mode := by
    rw [hbuilt.setup.config.mode, hrx.config.mode, hp.mode]
  have hhead := (length_clear hpkt.length hdr).2
  -- the sender's side: the packet with its header is clear text, payload and room for the tag
  have hinj : injectHdr v6 hdr pkt room =
      (pkt.take (secOff v6) ++ hdr.bytes) ++ (pkt.drop (secOff v6) ++ room) := (append_assoc _ _ _).symm
  obtain ⟨htake, htext, -⟩ := parts hhead (pkt.drop (secOff v6)) hroom
  obtain ⟨-, hether, hread⟩ := clear_read hbuilt hpkt (pkt.drop (secOff v6) ++ room)
  rw [← hinj] at htake htext hether hread
  obtain ⟨key, henc, hdec⟩ := keys_agree (k := gcmPart (sdKey sd.keys t3 (famOf (etherOf v6 pkt)) hdr.an).2) hp
    hbuilt hrx hpkt.src hpkt.dst
  rw [← secSdKey_eq] at henc
  rw [hkey, ← secSdKey_eq] at hdec
  rw [← hether] at henc
  have hframe := encFrame_some g mask (hbuilt.sp ▸ hread) (hbuilt.sdi.trans hbuilt.setup.config.sdi.symm)
    hbuilt.sp henc
  rw [← hbuilt.sp, htake, htext, hether] at hframe
  have hlen := g.length_tag key (frameIv mask sd hdr (etherOf v6 pkt) key)
    (aad v6 hdr.sp (injectHdr v6 hdr pkt room)) (pkt.drop (secOff v6))
  have hinv := g.inverts key (frameIv mask sd hdr (etherOf v6 pkt) key)
    (aad v6 hdr.sp (injectHdr v6 hdr pkt room)) (pkt.drop (secOff v6))
  generalize g.encrypt key (frameIv mask sd hdr (etherOf v6 pkt) key)
    (aad v6 hdr.sp (injectHdr v6 hdr pkt room)) (pkt.drop (secOff v6)) = c at hframe hlen hinv
  -- the receiver's side: the same clear text, so the same header, addresses and additional data
  obtain ⟨hclear, hbody, htag⟩ := parts hhead c.1 hlen
  obtain ⟨hfam, hether', hread'⟩ := clear_read hbuilt hpkt (c.1 ++ c.2)
  refine ⟨_, c.2, hframe, hclear, hlen, ?_⟩
  have haad := aad_congr (hclear.trans htake.symm)
  have hiv : frameIv mask rx.sd hdr (etherOf v6 pkt) key = frameIv mask sd hdr (etherOf v6 pkt) key := by
    unfold frameIv
    rw [hmode, encIvHead_eq (huse.trans hbuilt.sp)]
  have hlate : lateEpoch rx.sd.epoch hdr.epoch = false := by
    rw [hrx.epoch, hbuilt.epoch]
    decide
  rw [← hether'] at hdec
  have hopened := decFrame_opened g mask hfam (huse ▸ hread') (hbuilt.sdi.trans hrx.config.sdi.symm) hdrop
    huse.symm hlate hdec (by rw [hether', huse, hbody, htag, haad, hiv]; exact hinv)
  rw [hopened, huse, htag]

/-- For hosts that are set up alike, any packet from one to the other, any counter and any state of the key
caches from which both sides select the same key of the domain: the sender makes a frame, and the receiver, unless
it is dropping all frames, gets back the bytes behind the clear text. -/
theorem dec_inverts_enc (g : Gcm) (mask : GcmKey → BitVec 96) (a b : Host) (ta tb : BitVec 64) (sa sb : TxSd)
    (ha : secInit a ta = some sa) (hb : secInit b tb = some sb) (hp : Peers a b) (v6 : Bool)
    (pkt room : List Byte) (hpkt : Packet a b v6 pkt) (hroom : room.length = tagLen) (counter rot : BitVec 64)
    (ka kb : SdKeys) (fails : Nat) (t1 t2 t3 tr : BitVec 64) (sd : TxSd) (hdr : SecHdr)
    (hbuild : secBuildHdr a { sa with txCounter := counter, txRot := rot, keys := ka } t1 t2 = (sd, some hdr))
    (hkey : (sdKey ka t3 (famOf (etherOf v6 pkt)) hdr.an).2 = (sdKey kb tr (famOf (etherOf v6 pkt)) hdr.an).2) :
    ∃ frame tag, (encFrame g mask a sd v6 (injectHdr v6 hdr pkt room) t3).2 = some frame ∧
      frame.take (clearLen v6 hdr.sp) = pkt.take (secOff v6) ++ hdr.bytes ∧ tag.length = tagLen ∧
      (decFrame g mask b ⟨{ sb with keys := kb }, false, fails⟩ frame tr).2 =
        .opened (frame.take (clearLen v6 hdr.sp) ++ (pkt.drop (secOff v6) ++ tag)) := by
  have hbuilt := secBuildHdr_built ((setup_init ha).state counter rot ka) hbuild
  have hrx : Setup b { sb with keys := kb } := (setup_init hb).state sb.txCounter sb.txRot kb
  have hkey' : (sdKey sd.keys t3 (famOf (etherOf v6 pkt)) hdr.an).2 =
      (sdKey kb tr (famOf (etherOf v6 pkt)) hdr.an).2 := by
    rw [hbuilt.keys]
    exact hkey
  exact hbuilt.round_trip hp hrx rfl hpkt hroom hkey' g mask

/-! ## Hosts that are not set up alike -/

def ivTagGcm : Gcm where
  encrypt _ iv _ t := (t, toBytes 12 iv.toNat ++ toBytes 4 0)
  decrypt _ iv _ t tag := if tag = toBytes 12 iv.toNat ++ toBytes 4 0 then some t else none
  length_text _ _ _ _ := rfl
  length_tag _ iv _ _ := by simp [tagLen]
  inverts _ _ _ _ := if_pos rfl

def contextMask : GcmKey → BitVec 96
  | .kdf _ _ (.small c) => c.setWidth 96
  | _ => 0

def smallPkt : List Byte :=
  List.replicate 12 0 ++ [8, 0, 0x45] ++ List.replicate 8 0 ++ [253, 0, 0] ++ toBytes 4 1 ++ toBytes 4 2 ++
    List.replicate 4 0 ++ [0x10, 0x20, 0x30]

def directPeer (ssi : Option (BitVec 32)) (addr : BitVec 32) : Host :=
  { mode := .direct, ssi, server := false, clientSsi := none, rotation := false, v4 := some addr, v6 := none }

/-- A server at the address 1 that takes its client to have the given SSI, and a client at the address 2. -/
def servingPeer (client : BitVec 32) : Host :=
  { mode := .server, ssi := some 8, server := true, clientSsi := some client, rotation := false, v4 := some 1
    v6 := none }

def servedPeer : Host :=
  { mode := .server, ssi := some 7, server := false, clientSsi := none, rotation := false, v4 := some 2, v6 := none }

def firstFrame (a b : Host) (pkt : List Byte) : Option Decrypted := do
  let sa ← secInit a 0
  let sb ← secInit b 0
  let (sd, hdr) := secBuildHdr a sa 0 0
  let hdr ← hdr
  let frame ← (encFrame ivTagGcm contextMask a sd false (injectHdr false hdr pkt (List.replicate 16 0)) 0).2
  return (decFrame ivTagGcm contextMask b ⟨sb, false, 0⟩ frame 0).2

/-- Hosts of which only one uses an SSI drop each other's frames, in both directions; and so does a client the
frames of a server that takes it to have another SSI. -/
theorem unlike_peers_dropped :
    firstFrame (directPeer (some 7) 1) (directPeer none 2) smallPkt = some .dropped ∧
    firstFrame (directPeer none 1) (directPeer (some 7) 2) smallPkt = some .dropped ∧
    firstFrame (servingPeer 9) servedPeer smallPkt = some .dropped := by
  decide +kernel

theorem smallPkt_served : Packet (servingPeer 7) servedPeer false smallPkt := by
  have haddr : etherOf false smallPkt = .ip 1 2 := by decide +kernel
  refine ⟨by decide +kernel, by decide +kernel, ?_, ?_⟩
  · rw [haddr]
    exact rfl
  · rw [haddr]
    exact rfl

/-- A server and the client whose SSI it writes. -/
theorem dec_inverts_enc_served :
    ∃ sa sb sd hdr frame tag, secInit (servingPeer 7) 0 = some sa ∧ secInit servedPeer 0 = some sb ∧
      secBuildHdr (servingPeer 7) { sa with txCounter := 0x1234, txRot := 0, keys := .init false } 0 0 =
        (sd, some hdr) ∧
      (encFrame ivTagGcm contextMask (servingPeer 7) sd false
        (injectHdr false hdr smallPkt (List.replicate 16 0)) 0).2 = some frame ∧
      (decFrame ivTagGcm contextMask servedPeer ⟨{ sb with keys := .init false }, false, 0⟩ frame 0).2 =
        .opened (frame.take (clearLen false hdr.sp) ++ ([0x10, 0x20, 0x30] ++ tag)) := by
  obtain ⟨frame, tag, hframe, -, -, hopened⟩ := dec_inverts_enc ivTagGcm contextMask (servingPeer 7) servedPeer 0 0
    _ _ rfl rfl ⟨rfl, rfl, fun _ => .inl ⟨rfl, rfl, rfl⟩⟩ false smallPkt (replicate 16 0) smallPkt_served rfl
    0x1234 0 (.init false) (.init false) 0 0 0 0 0 _ _ rfl rfl
  exact ⟨_, _, _, _, frame, tag, rfl, rfl, rfl, hframe, hopened⟩

end Uet.Sec
