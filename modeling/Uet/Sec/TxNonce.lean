import Uet.Sec.KeyRotation
import Uet.Pds.Secure

/-!
# Keys and nonces of sent frames

The sending side of `uet_sec.c`: stamping the security header of a first transmission or a
retransmission, and the key and the IV a frame is encrypted with, together with the set-up
of the secure domain. A transmit reads the clock three times: for the association number,
for the reset of the counter, and for the choice of the key.

A GCM key is named by its derivation, so that equal keys are equal derivations: the key
derivation function is taken as injective. The IV mask is any function of that name.
Room in the packet buffer is taken as given.
-/

namespace Uet.Sec

open List Option

open Uet.Pds (SecMode Ether)

/-- `uet_sec_label1` and `uet_sec_label2`. -/
inductive KdfLabel where
  | u1 | u2
  deriving DecidableEq, Repr

/-- The context of the key derivation: `UET_SEC_SMALL_CTX_SIZE` or `UET_SEC_LARGE_CTX_SIZE`
bytes, the first byte in the highest bits. -/
inductive KdfCtx where
  | small (c : BitVec 80)
  | large (c : BitVec 208)
  deriving DecidableEq

/-- `small_context`: epoch, rekey count and an SSI or IPv4 address. -/
def smallContext (epoch : BitVec 16) (rekey id : BitVec 32) : KdfCtx := .small (epoch ++ rekey ++ id)

/-- `large_context`: four zero bytes, epoch, rekey count and an IPv6 address. -/
def largeContext (epoch : BitVec 16) (rekey : BitVec 32) (addr : BitVec 128) : KdfCtx :=
  .large ((0 : BitVec 32) ++ epoch ++ rekey ++ addr)

inductive GcmKey where
  | bytes (k : Fin 32 → Byte)
  | kdf (base : GcmKey) (label : KdfLabel) (ctx : KdfCtx)

abbrev Nonce := GcmKey × BitVec 96

/-- `struct uet_sec_sd` as the sending side uses it. In server mode a client's keys are
derived when the domain is set up, under the context `client`. -/
structure TxSd where
  mode : SecMode
  useSsi : Bool
  rekey : Bool
  rekeyMask : BitVec 64
  rekeyShift : Nat
  sdi : BitVec 24
  epoch : BitVec 16
  an : Bool
  txCounter : BitVec 64
  invokeFatalThreshold : BitVec 64
  txRot : BitVec 64
  keys : SdKeys
  client : Fam → Option KdfCtx

/-- `struct uet_sec` or `struct uet_sec_ssi`. -/
structure SecHdr where
  sp : Bool
  an : Bool
  sdi : BitVec 24
  ssi : BitVec 32
  epochTsc : BitVec 64
  deriving DecidableEq, Repr

/-! ## Setting the domain up -/

/-- The environment variables and the addresses of a host: `UET_SEC_MODE`, `UET_SEC_SSI`,
`UET_SEC_SERVER`, `UET_SEC_CLIENT_SSI`, `UET_SEC_KEY_ROTATION`, `struct uet_nic`. -/
structure Host where
  mode : SecMode
  ssi : Option (BitVec 32)
  server : Bool
  clientSsi : Option (BitVec 32)
  rotation : Bool
  v4 : Option (BitVec 32)
  v6 : Option (BitVec 128)

/-- `DEF_INVOKE_FATAL_THRESHOLD`, the largest 48-bit counter. -/
def invokeFatal : BitVec 64 := 0x0000ffffffffffff

/-- The contexts under which a client of server mode derives its keys
(`uet_sec_derive_family_keys`): the SSI, else the IPv4 address, for one family and the IPv6
address for the other. -/
def clientContext (h : Host) : Fam → Option KdfCtx
  | .v4 => h.v4.map fun a => smallContext 0 0 (h.ssi.getD a)
  | .v6 => if h.ssi.isSome then h.v6.map (largeContext 0 0) else none

/-- `uet_sec_init_sd`. -/
def secInitSd (h : Host) (rekey : Bool) (now : BitVec 64) : Option TxSd :=
  if h.rotation && h.mode == .server then none
  else some
    { mode := h.mode, useSsi := h.ssi.isSome, rekey, rekeyMask := 0xff00, rekeyShift := 8,
      sdi := 1, epoch := 0, an := false, txCounter := 0, invokeFatalThreshold := invokeFatal
      txRot := if h.rotation then rotNow now else 0
      keys := .init h.rotation
      client := fun fam => if h.mode = .server ∧ !h.server then clientContext h fam else none }

/-- `uet_sec_init`; `none` where there is no secure domain or the configuration is refused. -/
def secInit (h : Host) (now : BitVec 64) : Option TxSd :=
  match h.mode with
  | .none => none
  | .direct => secInitSd h false now
  | .cluster => secInitSd h true now
  | .server =>
    if h.ssi.isNone then none
    else if h.server && h.clientSsi.isNone then none
    else secInitSd h false now

/-! ## Stamping a header -/

/-- `uet_sec_sd_tx_an`. -/
def sdTxAn (sd : TxSd) (now : BitVec 64) : Bool :=
  if sd.keys.rotationEnabled then txAn now else sd.an

/-- `uet_sec_sd_tx_rotate`: a new index resets the counter and the epoch. -/
def sdTxRotate (sd : TxSd) (now : BitVec 64) : TxSd :=
  if sd.keys.rotationEnabled && rotNow now != sd.txRot then
    { sd with txRot := rotNow now, txCounter := 0, epoch := 0 }
  else sd

/-- The `epoch_tsc` field: epoch above a 48-bit counter. -/
def epochTsc (epoch : BitVec 16) (tsc : BitVec 64) : BitVec 64 :=
  epoch.setWidth 64 <<< 48 ||| tsc &&& 0x0000ffffffffffff

def takeTsc (sd : TxSd) : TxSd × Option (BitVec 64) :=
  if sd.invokeFatalThreshold ≤ sd.txCounter then (sd, none)
  else ({ sd with txCounter := sd.txCounter + 1 }, some (epochTsc sd.epoch sd.txCounter))

def Host.hdrSsi (h : Host) : BitVec 32 :=
  if h.mode = .server ∧ h.server then h.clientSsi.getD 0 else h.ssi.getD 0

/-- `uet_sec_build_hdr`; the clock is read for the association number, then for the
rotation. -/
def secBuildHdr (h : Host) (sd : TxSd) (t1 t2 : BitVec 64) : TxSd × Option SecHdr :=
  let an := sdTxAn sd t1
  match takeTsc (sdTxRotate sd t2) with
  | (sd, none) => (sd, none)
  | (sd, some tsc) =>
    (sd, some { sp := sd.useSsi, an, sdi := sd.sdi, ssi := if sd.useSsi then h.hdrSsi else 0,
                epochTsc := tsc })

/-- `uet_sec_update_hdr_tsc`: the header is stamped again, and sent if a counter value is
left. -/
def secUpdateHdrTsc (sd : TxSd) (hdr : SecHdr) (t1 t2 : BitVec 64) : TxSd × SecHdr × Bool :=
  let hdr := if sd.keys.rotationEnabled then { hdr with an := txAn t1 } else hdr
  match takeTsc (sdTxRotate sd t2) with
  | (sd, none) => (sd, hdr, false)
  | (sd, some tsc) => (sd, { hdr with epochTsc := tsc }, true)

/-! ## Encrypting a frame -/

def famOf (e : Ether) : Fam := if e.isIpv6 then .v6 else .v4

/-- `uet_sec_sd_key` with the name of the key. -/
def secSdKey (sd : TxSd) (now : BitVec 64) (fam : Fam) (an : Bool) : TxSd × GcmKey :=
  let k := sdKey sd.keys now fam an
  ({ sd with keys := k.1 },
    match sd.client fam with
    | none => .bytes (gcmPart k.2)
    | some ctx => .kdf (.bytes (gcmPart k.2)) .u2 ctx)

def rekeyOf (sd : TxSd) (hdr : SecHdr) : BitVec 32 :=
  if sd.rekey then
    ((hdr.epochTsc &&& 0x0000ffffffffffff &&& sd.rekeyMask) >>> sd.rekeyShift).setWidth 32
  else 0

def SecHdr.epoch (hdr : SecHdr) : BitVec 16 := (hdr.epochTsc >>> 48).setWidth 16

def clusterContext (sd : TxSd) (hdr : SecHdr) : Ether → KdfCtx
  | .ipv6 src _ => largeContext hdr.epoch (rekeyOf sd hdr) src
  | .ip src _ => smallContext hdr.epoch (rekeyOf sd hdr) (if sd.useSsi then hdr.ssi else src)
  | .other => smallContext hdr.epoch (rekeyOf sd hdr) hdr.ssi

def serverContext (sd : TxSd) (hdr : SecHdr) : Ether → KdfCtx
  | .ipv6 _ dst => largeContext hdr.epoch 0 dst
  | .ip _ dst => smallContext hdr.epoch 0 (if sd.useSsi then hdr.ssi else dst)
  | .other => smallContext hdr.epoch 0 hdr.ssi

/-- The key generation of `uet_sec_enc_pkt`. -/
def encKey (h : Host) (sd : TxSd) (hdr : SecHdr) (e : Ether) (base : GcmKey) : Option GcmKey :=
  match sd.mode with
  | .direct => some base
  | .cluster => some (.kdf base .u1 (clusterContext sd hdr e))
  | .server => if h.server then some (.kdf base .u2 (serverContext sd hdr e)) else some base
  | .none => none

def encIvHead (sd : TxSd) (hdr : SecHdr) (e : Ether) : BitVec 32 :=
  if sd.useSsi then hdr.ssi
  else
    match e with
    | .ip src _ => src
    | _ => hdr.sdi.setWidth 32

/-- `uet_sec_enc_pkt` up to the call of GCM. Only direct mode has no IV mask. -/
def secEncPkt (mask : GcmKey → BitVec 96) (h : Host) (sd : TxSd) (hdr : SecHdr) (e : Ether)
    (t3 : BitVec 64) : TxSd × Option Nonce :=
  if sd.useSsi && !hdr.sp then (sd, none)
  else
    let base := secSdKey sd t3 (famOf e) hdr.an
    match encKey h sd hdr e base.2 with
    | none => (sd, none)
    | some key =>
      let iv := encIvHead sd hdr e ++ hdr.epochTsc
      (base.1, some (key, if sd.mode = .direct then iv else iv ^^^ mask key))

/-! ## A sending host -/

/-- What a host does with its secure domain: a first transmission of a new frame, the
retransmission of an earlier one, and a key look-up for a received frame. A transmit carries
its three clock readings. -/
inductive SecOp where
  | first (e : Ether) (t1 t2 t3 : BitVec 64)
  | retx (k : Nat) (t1 t2 t3 : BitVec 64)
  | rx (now : BitVec 64) (fam : Fam) (an : Bool)

/-- A host with the frames it keeps for retransmission and the nonces it has used, the last
one first. -/
structure Sender where
  sd : TxSd
  pkts : List (SecHdr × Ether)
  sent : List Nonce

def Sender.send (mask : GcmKey → BitVec 96) (h : Host) (s : Sender) (hdr : SecHdr) (e : Ether)
    (t3 : BitVec 64) : Sender :=
  let r := secEncPkt mask h s.sd hdr e t3
  { s with sd := r.1, sent := r.2.toList ++ s.sent }

def Sender.step (mask : GcmKey → BitVec 96) (h : Host) (s : Sender) : SecOp → Sender
  | .first e t1 t2 t3 =>
    match secBuildHdr h s.sd t1 t2 with
    | (sd, none) => { s with sd }
    | (sd, some hdr) =>
      Sender.send mask h { s with sd, pkts := s.pkts ++ [(hdr, e)] } hdr e t3
  | .retx k t1 t2 t3 =>
    match s.pkts[k]? with
    | none => s
    | some (hdr, e) =>
      match secUpdateHdrTsc s.sd hdr t1 t2 with
      | (sd, hdr, false) => { s with sd, pkts := s.pkts.set k (hdr, e) }
      | (sd, hdr, true) =>
        Sender.send mask h { s with sd, pkts := s.pkts.set k (hdr, e) } hdr e t3
  | .rx now fam an => { s with sd := (secSdKey s.sd now fam an).1 }

def Sender.run (mask : GcmKey → BitVec 96) (h : Host) (s : Sender) (ops : List SecOp) : Sender :=
  ops.foldl (Sender.step mask h) s

def Sender.start (sd : TxSd) : Sender := ⟨sd, [], []⟩

/-! ## Frames of one host -/

theorem append_inj {n m : Nat} {a a' : BitVec n} {b b' : BitVec m} (h : a ++ b = a' ++ b') :
    a = a' ∧ b = b' := by
  constructor
  · apply BitVec.eq_of_getLsbD_eq
    intro i _
    have hi := congrArg (fun x => x.getLsbD (i + m)) h
    simpa [BitVec.getLsbD_append] using hi
  · have hb := congrArg (BitVec.setWidth m) h
    rwa [BitVec.setWidth_append_eq_right, BitVec.setWidth_append_eq_right] at hb

def GcmKey.root : GcmKey → Fin 32 → Byte
  | .bytes k => k
  | .kdf base _ _ => base.root

/-- The IV of a frame with first word `head` and counter `c`. -/
def ivOf (mask : GcmKey → BitVec 96) (direct : Bool) (key : GcmKey) (head : BitVec 32)
    (tsc : BitVec 64) : BitVec 96 :=
  if direct then head ++ tsc else (head ++ tsc) ^^^ mask key

variable {c : BitVec 64} {sd' : TxSd} {o : Option (BitVec 64)} {hdr : SecHdr} {s : Sender} {h : Host}
  {P : Ether → Prop} {t : BitVec 64}

theorem ivOf_inj {mask : GcmKey → BitVec 96} {direct : Bool} {key : GcmKey} {a b : BitVec 32} {d : BitVec 64}
    (h : ivOf mask direct key a c = ivOf mask direct key b d) : a = b ∧ c = d := by
  unfold ivOf at h
  split at h
  · exact append_inj h
  · rw [BitVec.xor_left_inj] at h
    exact append_inj h

/-- The frame was stamped with counter `c` in rotation `r` and encrypted with the key of
that rotation. -/
structure Stamped (mask : GcmKey → BitVec 96) (direct : Bool) (f : Nonce) (r : Nat)
    (c : BitVec 64) : Prop where
  index : r < 2 ^ 51
  key : f.1.root = gcmPart (genKey defKey r)
  iv : ∃ head, f.2 = ivOf mask direct f.1 head c

theorem Stamped.unique {mask : GcmKey → BitVec 96} {direct : Bool} {f : Nonce} {r s : Nat} {d : BitVec 64}
    (h : Stamped mask direct f r c) (h' : Stamped mask direct f s d) : r = s ∧ c = d := by
  obtain ⟨a, ha⟩ := h.iv
  obtain ⟨b, hb⟩ := h'.iv
  exact ⟨genKey_inj h.index h'.index (h.key.symm.trans h'.key), (ivOf_inj (ha.symm.trans hb)).2⟩

/-- The domain rotates the default keys, and every frame sent so far was stamped before the
present counter value. -/
structure Fresh (mask : GcmKey → BitVec 96) (direct : Bool) (last : Nat) (sd : TxSd)
    (sent : List Nonce) : Prop where
  mode : sd.mode = if direct then .direct else .cluster
  client : ∀ fam, sd.client fam = none
  enabled : sd.keys.rotationEnabled = true
  keys : sd.keys.FromTwo
  pool : ∀ fam, sd.keys.pool fam = defKey
  epoch : sd.epoch = 0
  threshold : sd.invokeFatalThreshold = invokeFatal
  rot : sd.txRot.toNat ≤ last / 10000
  before : ∀ f ∈ sent, ∃ r c, Stamped mask direct f r c ∧
    (r < sd.txRot.toNat ∨ r = sd.txRot.toNat ∧ c.toNat < sd.txCounter.toNat)
  nodup : sent.Nodup

variable {mask : GcmKey → BitVec 96} {direct : Bool} {last : Nat} {sd : TxSd} {sent : List Nonce}

theorem Fresh.rotate (h : Fresh mask direct last sd sent) {t2 : BitVec 64} (ht : last ≤ t2.toNat) :
    Fresh mask direct t2.toNat (sdTxRotate sd t2) sent ∧ (sdTxRotate sd t2).txRot = rotNow t2 := by
  have hrot := h.rot
  have hidx := toNat_rotNow t2
  unfold sdTxRotate
  by_cases heq : rotNow t2 = sd.txRot
  · rw [if_neg (by simp [heq])]
    exact ⟨{ h with rot := by rw [← heq, hidx] }, heq.symm⟩
  rw [if_pos (by simp [h.enabled, heq])]
  have hlt : sd.txRot.toNat < (rotNow t2).toNat := by
    have hne : (rotNow t2).toNat ≠ sd.txRot.toNat := fun hn => heq (BitVec.eq_of_toNat_eq hn)
    rw [hidx] at hne ⊢
    omega
  refine ⟨{ h with rot := by rw [hidx], epoch := rfl, before := fun f hf => ?_ }, rfl⟩
  obtain ⟨r, c, hs, hb⟩ := h.before f hf
  exact ⟨r, c, hs, Or.inl (by dsimp only; omega)⟩

theorem epochTsc_zero (hc : c.toNat < 2 ^ 48) : epochTsc 0 c = c := by
  have hm : (0x0000ffffffffffff : BitVec 64).toNat = 2 ^ 48 - 1 := by decide
  have hand : c &&& 0x0000ffffffffffff = c := by
    apply BitVec.eq_of_toNat_eq
    rw [BitVec.toNat_and, hm, Nat.and_two_pow_sub_one_eq_mod, Nat.mod_eq_of_lt hc]
  rw [epochTsc, hand]
  simp

theorem Fresh.take (h : Fresh mask direct last sd sent) (htake : takeTsc sd = (sd', o)) :
    Fresh mask direct last sd' sent ∧ sd'.txRot = sd.txRot ∧
      ∀ tsc, o = some tsc → sd'.txCounter.toNat = tsc.toNat + 1 ∧
        ∀ f ∈ sent, ∃ r c, Stamped mask direct f r c ∧
          (r < sd.txRot.toNat ∨ r = sd.txRot.toNat ∧ c.toNat < tsc.toNat) := by
  unfold takeTsc at htake
  split at htake
  · cases htake
    exact ⟨h, rfl, fun _ ho => by cases ho⟩
  rename_i hlt
  cases htake
  have hc : sd.txCounter.toNat < 2 ^ 48 - 1 := by
    rw [h.threshold, BitVec.le_def, show invokeFatal.toNat = 2 ^ 48 - 1 by decide] at hlt
    omega
  have hsucc : (sd.txCounter + 1).toNat = sd.txCounter.toNat + 1 := by
    rw [BitVec.toNat_add]
    exact Nat.mod_eq_of_lt (show sd.txCounter.toNat + 1 < 2 ^ 64 by omega)
  have htsc : epochTsc sd.epoch sd.txCounter = sd.txCounter := by
    rw [h.epoch]
    exact epochTsc_zero (by omega)
  refine ⟨{ h with before := fun f hf => ?_ }, rfl, fun tsc ho => ?_⟩
  · obtain ⟨r, c, hs, hb⟩ := h.before f hf
    exact ⟨r, c, hs, by dsimp only; rw [hsucc]; omega⟩
  · cases ho
    rw [htsc]
    exact ⟨hsucc, h.before⟩

theorem Fresh.lookup (h : Fresh mask direct last sd sent) (now : BitVec 64) (fam : Fam) (an : Bool)
    (hle : last ≤ now.toNat) : Fresh mask direct now.toNat (secSdKey sd now fam an).1 sent := by
  have hk : (secSdKey sd now fam an).1 = { sd with keys := sdKeyCache sd.keys now } := by
    rw [secSdKey, sdKey_fst h.enabled]
  rw [hk]
  exact
    { h with
      enabled := by dsimp only; rw [rotationEnabled_sdKeyCache]; exact h.enabled
      keys := fromTwo_sdKeyCache h.keys now
      pool := fun f => by dsimp only; rw [pool_sdKeyCache]; exact h.pool f
      rot := by have := h.rot; dsimp only; omega }

theorem Fresh.enc (h : Fresh mask direct last sd sent) (host : Host) {e : Ether} {t1 t3 : BitVec 64}
    (hle : last ≤ t3.toNat) (h13 : t1.toNat ≤ t3.toNat) (hguard : t3.toNat < t1.toNat + 2000)
    (htwo : 2 ≤ (rotNow t1).toNat) (hrot : sd.txRot = rotNow t1) (han : hdr.an = txAn t1)
    (hcnt : sd.txCounter.toNat = hdr.epochTsc.toNat + 1) (hbefore : ∀ f ∈ sent, ∃ r c, Stamped mask direct f r c ∧
      (r < sd.txRot.toNat ∨ r = sd.txRot.toNat ∧ c.toNat < hdr.epochTsc.toNat)) :
    Fresh mask direct t3.toNat (secEncPkt mask host sd hdr e t3).1
      ((secEncPkt mask host sd hdr e t3).2.toList ++ sent) := by
  have hlook := h.lookup t3 (famOf e) hdr.an hle
  have hbase : (secSdKey sd t3 (famOf e) hdr.an).2 = .bytes (gcmPart (genKey defKey (rotNow t1).toNat)) := by
    rw [secSdKey, h.client, han]
    rw [sdKey_eq h.enabled h.keys (by omega) hguard htwo, h.pool, toInt_rotNow]
  have hstay : Fresh mask direct t3.toNat sd sent := { h with rot := by have := h.rot; omega }
  unfold secEncPkt
  split
  · exact hstay
  dsimp only
  cases hkey : encKey host sd hdr e (secSdKey sd t3 (famOf e) hdr.an).2 with
  | none => exact hstay
  | some key =>
    dsimp only
    have hroot : key.root = gcmPart (genKey defKey (rotNow t1).toNat) := by
      rw [hbase, encKey, h.mode] at hkey
      cases direct <;> cases hkey <;> rfl
    have hmode : (sd.mode = .direct) ↔ direct = true := by
      rw [h.mode]
      cases direct <;> simp
    generalize hiv : (if sd.mode = .direct then encIvHead sd hdr e ++ hdr.epochTsc
      else (encIvHead sd hdr e ++ hdr.epochTsc) ^^^ mask key) = iv
    have hstamped : Stamped mask direct (key, iv) (rotNow t1).toNat hdr.epochTsc := by
      refine ⟨rotNow_lt t1, hroot, encIvHead sd hdr e, ?_⟩
      simp only [ivOf, ← hmode, ← hiv]
    have hsame : (secSdKey sd t3 (famOf e) hdr.an).1.txRot = sd.txRot ∧
        (secSdKey sd t3 (famOf e) hdr.an).1.txCounter = sd.txCounter := ⟨rfl, rfl⟩
    refine { hlook with before := fun f hf => ?_, nodup := ?_ }
    · rcases mem_cons.1 hf with rfl | hf
      · exact ⟨_, _, hstamped, Or.inr ⟨by rw [hsame.1, hrot], by rw [hsame.2]; omega⟩⟩
      · obtain ⟨r, c, hs, hb⟩ := hbefore f hf
        exact ⟨r, c, hs, by rw [hsame.1, hsame.2]; omega⟩
    · refine nodup_cons.2 ⟨fun hin => ?_, h.nodup⟩
      obtain ⟨r, c, hs, hb⟩ := hbefore _ hin
      obtain ⟨hr, hc⟩ := hs.unique hstamped
      rw [hrot, hr, hc] at hb
      omega

/-- The readings of an operation: none before the last one, in order, and less than the
guard from the stamp to the encryption. -/
def SecOp.After (last : Nat) : SecOp → Prop
  | .first _ t1 t2 t3 | .retx _ t1 t2 t3 =>
    last ≤ t1.toNat ∧ t1.toNat ≤ t2.toNat ∧ t2.toNat ≤ t3.toNat ∧ t3.toNat < t1.toNat + 2000
  | .rx now _ _ => last ≤ now.toNat

def SecOp.lastReading : SecOp → Nat
  | .first _ _ _ t3 | .retx _ _ _ t3 => t3.toNat
  | .rx now _ _ => now.toNat

def Clocked (last : Nat) : List SecOp → Prop
  | [] => True
  | op :: ops => op.After last ∧ Clocked op.lastReading ops

/-- No boundary falls between the reading for the association number and the one for the
rotation, and the index is one for which the key cache is right. -/
def SecOp.OneIndex : SecOp → Prop
  | .first _ t1 t2 _ | .retx _ t1 t2 _ => rotNow t1 = rotNow t2 ∧ 2 ≤ (rotNow t1).toNat
  | .rx _ _ _ => True

instance (op : SecOp) : Decidable op.OneIndex := by
  unfold SecOp.OneIndex
  split <;> infer_instance

/-- What stamping at `t1`, `t2` hands to the encryption. -/
theorem Fresh.stamp (h : Fresh mask direct last sd sent) {t1 t2 : BitVec 64} (h1 : last ≤ t1.toNat)
    (h2 : t1.toNat ≤ t2.toNat) (hone : rotNow t1 = rotNow t2) (htake : takeTsc (sdTxRotate sd t2) = (sd', o)) :
    Fresh mask direct t2.toNat sd' sent ∧ sd'.txRot = rotNow t1 ∧
      ∀ tsc, o = some tsc → sd'.txCounter.toNat = tsc.toNat + 1 ∧
        ∀ f ∈ sent, ∃ r c, Stamped mask direct f r c ∧
          (r < sd'.txRot.toNat ∨ r = sd'.txRot.toNat ∧ c.toNat < tsc.toNat) := by
  have hlast : last ≤ t2.toNat := le_trans h1 h2
  obtain ⟨hf, hrot⟩ := h.rotate hlast
  obtain ⟨hf', hrot', htsc⟩ := hf.take htake
  refine ⟨hf', by rw [hrot', hrot, hone], fun tsc ho => ?_⟩
  rw [hrot']
  exact htsc tsc ho

theorem Fresh.step (host : Host) (h : Fresh mask direct last s.sd s.sent) {op : SecOp} (hclock : op.After last)
    (hone : op.OneIndex) : Fresh mask direct op.lastReading (s.step mask host op).sd (s.step mask host op).sent := by
  cases op with
  | first e t1 t2 t3 =>
    obtain ⟨h1, h2, h3, hguard⟩ := hclock
    simp only [Sender.step, secBuildHdr]
    cases htake : takeTsc (sdTxRotate s.sd t2) with
    | mk sd' o =>
      obtain ⟨hf, hrot, htsc⟩ := h.stamp h1 h2 hone.1 htake
      cases o with
      | none => exact { hf with rot := by have := hf.rot; simp only [SecOp.lastReading]; omega }
      | some tsc =>
        obtain ⟨hcnt, hbefore⟩ := htsc tsc rfl
        refine hf.enc host h3 (by omega) hguard hone.2 hrot ?_ hcnt hbefore
        simp only [sdTxAn, h.enabled, if_true]
  | retx k t1 t2 t3 =>
    obtain ⟨h1, h2, h3, hguard⟩ := hclock
    simp only [Sender.step, secUpdateHdrTsc]
    cases hk : s.pkts[k]? with
    | none =>
      exact { h with rot := by have := h.rot; simp only [SecOp.lastReading]; omega }
    | some pkt =>
      cases htake : takeTsc (sdTxRotate s.sd t2) with
      | mk sd' o =>
        obtain ⟨hf, hrot, htsc⟩ := h.stamp h1 h2 hone.1 htake
        cases o with
        | none => exact { hf with rot := by have := hf.rot; simp only [SecOp.lastReading]; omega }
        | some tsc =>
          obtain ⟨hcnt, hbefore⟩ := htsc tsc rfl
          refine hf.enc host h3 (by omega) hguard hone.2 hrot ?_ hcnt hbefore
          simp only [h.enabled, if_true]
  | rx now fam an => exact h.lookup now fam an hclock

theorem Fresh.run (host : Host) (h : Fresh mask direct last s.sd s.sent) {ops : List SecOp}
    (hclock : Clocked last ops) (hone : ∀ op ∈ ops, op.OneIndex) : (s.run mask host ops).sent.Nodup := by
  induction ops generalizing s last with
  | nil => exact h.nodup
  | cons op ops ih =>
    exact ih (h.step host hclock.1 (hone op mem_cons_self)) hclock.2
      fun o ho => hone o (mem_cons_of_mem op ho)

theorem fresh_start {host : Host} {t0 : BitVec 64} {sd : TxSd} (hrot : host.rotation = true)
    (hmode : host.mode = if direct then .direct else .cluster) (hinit : secInit host t0 = some sd) :
    Fresh mask direct t0.toNat sd [] := by
  have hnot : host.mode ≠ .server := by rw [hmode]; cases direct <;> simp
  obtain ⟨rekey, hsd⟩ : ∃ rekey, secInitSd host rekey t0 = some sd := by
    unfold secInit at hinit
    rw [hmode] at hinit
    cases direct <;> exact ⟨_, hinit⟩
  unfold secInitSd at hsd
  rw [if_neg (by simp [hnot])] at hsd
  cases hsd
  refine ⟨hmode, fun fam => ?_, hrot, fromTwo_init _, fun _ => rfl, rfl, rfl, ?_, ?_, nodup_nil⟩
  · exact if_neg fun hc => hnot hc.1
  · rw [if_pos hrot, toNat_rotNow]
  · exact fun f hf => absurd hf not_mem_nil

/-- With rotating keys in direct or cluster mode, where no rotation boundary falls between
the two readings that stamp a frame, no two frames of a host are encrypted under one key and
one IV: first transmissions and retransmissions in any order, under any clock that does not
go back. -/
theorem nonce_fresh (mask : GcmKey → BitVec 96) (host : Host) (t0 : BitVec 64) (sd : TxSd)
    (ops : List SecOp) (hmode : host.mode = .direct ∨ host.mode = .cluster)
    (hrot : host.rotation = true) (hinit : secInit host t0 = some sd)
    (hclock : Clocked t0.toNat ops) (hone : ∀ op ∈ ops, op.OneIndex) :
    ((Sender.start sd).run mask host ops).sent.Nodup := by
  have hfresh : ∃ direct, Fresh mask direct t0.toNat sd [] := by
    rcases hmode with hm | hm
    · exact ⟨true, fresh_start hrot hm hinit⟩
    · exact ⟨false, fresh_start hrot hm hinit⟩
  obtain ⟨direct, h⟩ := hfresh
  exact Fresh.run host (s := Sender.start sd) h hclock hone

def directHost : Host :=
  { mode := .direct, ssi := some 7, server := false, clientSsi := none, rotation := true
    v4 := some 1, v6 := none }

def directSd : TxSd :=
  { mode := .direct, useSsi := true, rekey := false, rekeyMask := 0xff00, rekeyShift := 8, sdi := 1
    epoch := 0, an := false, txCounter := 0, invokeFatalThreshold := invokeFatal, txRot := 2
    keys := .init true, client := fun _ => none }

/-- A boundary between the two readings of the second frame: it is stamped for index 2 and
its counter starts again at 0, as that of the first frame, and both have the key of
index 2. -/
theorem counter_reset_under_old_key :
    let ops : List SecOp := [.first (.ip 1 2) 25000 25000 25000, .first (.ip 1 2) 29999 30000 30000]
    secInit directHost 25000 = some directSd ∧ Clocked 25000 ops ∧
      ∃ f, ((Sender.start directSd).run (fun _ => 0) directHost ops).sent = [f, f] := by
  refine ⟨?_, ?_, ?_⟩
  · rfl
  · simp only [Clocked, SecOp.After, SecOp.lastReading]
    decide
  · exact ⟨_, rfl⟩

/-- Two frames, the second encrypted after a boundary, and a retransmission of the first in
the next rotation. -/
theorem nonce_fresh_across_boundary :
    let ops : List SecOp := [.first (.ip 1 2) 25000 25000 25000, .first (.ip 1 2) 29999 29999 30001,
      .retx 0 31000 31000 31000]
    let sent := ((Sender.start directSd).run (fun _ => 0) directHost ops).sent
    sent.length = 3 ∧ sent.Nodup := by
  refine ⟨rfl, ?_⟩
  apply nonce_fresh (fun _ => 0) directHost 25000 directSd _ (Or.inl rfl) rfl rfl
  · simp only [Clocked, SecOp.After, SecOp.lastReading]
    decide
  · decide

/-! ## Frames of two hosts -/

def Host.Owns (h : Host) : Ether → Prop
  | .ip src _ => h.v4 = some src
  | .ipv6 src _ => h.v6 = some src
  | .other => False

structure Config (h : Host) (sd : TxSd) : Prop where
  mode : sd.mode = h.mode
  useSsi : sd.useSsi = h.ssi.isSome
  sdi : sd.sdi = 1

structure HdrOf (h : Host) (hdr : SecHdr) : Prop where
  ssi : hdr.ssi = if h.ssi.isSome then h.hdrSsi else 0
  sdi : hdr.sdi = 1

def SentBy (mask : GcmKey → BitVec 96) (h : Host) (P : Ether → Prop) (f : Nonce) : Prop :=
  ∃ sd hdr e t, Config h sd ∧ HdrOf h hdr ∧ P e ∧ (secEncPkt mask h sd hdr e t).2 = some f

theorem config_init {t0 : BitVec 64} {sd : TxSd} (hinit : secInit h t0 = some sd) : Config h sd := by
  obtain ⟨rekey, hsd⟩ : ∃ rekey, secInitSd h rekey t0 = some sd := by
    unfold secInit at hinit
    cases hm : h.mode with
    | none => rw [hm] at hinit; cases hinit
    | direct => rw [hm] at hinit; exact ⟨_, hinit⟩
    | cluster => rw [hm] at hinit; exact ⟨_, hinit⟩
    | server =>
      rw [hm] at hinit
      simp only at hinit
      split at hinit
      · cases hinit
      split at hinit
      · cases hinit
      · exact ⟨_, hinit⟩
  unfold secInitSd at hsd
  split at hsd
  · cases hsd
  · cases hsd
    exact ⟨rfl, rfl, rfl⟩

theorem Config.rotate (hc : Config h sd) (t : BitVec 64) : Config h (sdTxRotate sd t) := by
  unfold sdTxRotate
  split
  · exact ⟨hc.mode, hc.useSsi, hc.sdi⟩
  · exact hc

theorem Config.take (hc : Config h sd) (htake : takeTsc sd = (sd', o)) : Config h sd' := by
  unfold takeTsc at htake
  split at htake
  · cases htake
    exact hc
  · cases htake
    exact ⟨hc.mode, hc.useSsi, hc.sdi⟩

theorem Config.enc (hc : Config h sd) (hdr : SecHdr) (e : Ether) (t : BitVec 64) :
    Config h (secEncPkt mask h sd hdr e t).1 := by
  unfold secEncPkt
  split
  · exact hc
  dsimp only
  split
  · exact hc
  · exact ⟨hc.mode, hc.useSsi, hc.sdi⟩

/-- The state of a host whose frames all satisfy `P`. -/
structure Sends (mask : GcmKey → BitVec 96) (h : Host) (P : Ether → Prop) (s : Sender) : Prop where
  config : Config h s.sd
  pkts : ∀ pkt ∈ s.pkts, HdrOf h pkt.1 ∧ P pkt.2
  sent : ∀ f ∈ s.sent, SentBy mask h P f

theorem Sends.send (hs : Sends mask h P s) {e : Ether} (hhdr : HdrOf h hdr) (he : P e) (t : BitVec 64) :
    Sends mask h P (s.send mask h hdr e t) := by
  refine ⟨hs.config.enc hdr e t, hs.pkts, fun f hf => ?_⟩
  rcases mem_append.1 hf with hf | hf
  · exact ⟨s.sd, hdr, e, t, hs.config, hhdr, he, mem_toList.1 hf⟩
  · exact hs.sent f hf

theorem Sends.step (hs : Sends mask h P s) {op : SecOp} (hop : ∀ e t1 t2 t3, op = .first e t1 t2 t3 → P e) :
    Sends mask h P (s.step mask h op) := by
  cases op with
  | first e t1 t2 t3 =>
    simp only [Sender.step, secBuildHdr]
    cases htake : takeTsc (sdTxRotate s.sd t2) with
    | mk sd' o =>
      have hc := (hs.config.rotate t2).take htake
      cases o with
      | none => exact ⟨hc, hs.pkts, hs.sent⟩
      | some tsc =>
        dsimp only
        have he := hop e t1 t2 t3 rfl
        have hhdr : HdrOf h ⟨sd'.useSsi, sdTxAn s.sd t1, sd'.sdi,
            if sd'.useSsi then h.hdrSsi else 0, tsc⟩ := ⟨by rw [hc.useSsi], hc.sdi⟩
        generalize (⟨sd'.useSsi, sdTxAn s.sd t1, sd'.sdi,
            if sd'.useSsi then h.hdrSsi else 0, tsc⟩ : SecHdr) = hdr at hhdr
        have hkept : Sends mask h P ⟨sd', s.pkts ++ [(hdr, e)], s.sent⟩ := by
          refine ⟨hc, fun pkt hpkt => ?_, hs.sent⟩
          rcases mem_append.1 hpkt with hpkt | hpkt
          · exact hs.pkts pkt hpkt
          · obtain rfl := mem_singleton.1 hpkt
            exact ⟨hhdr, he⟩
        exact hkept.send hhdr he t3
  | retx k t1 t2 t3 =>
    simp only [Sender.step, secUpdateHdrTsc]
    cases hk : s.pkts[k]? with
    | none => exact hs
    | some pkt =>
      obtain ⟨hdr, e⟩ := pkt
      obtain ⟨hhdr, he⟩ := hs.pkts (hdr, e) (mem_of_getElem? hk)
      dsimp only
      generalize hnew : (if s.sd.keys.rotationEnabled then { hdr with an := txAn t1 } else hdr) = hdr'
      have hhdr' : HdrOf h hdr' := by
        rw [← hnew]
        split
        · exact ⟨hhdr.ssi, hhdr.sdi⟩
        · exact hhdr
      cases htake : takeTsc (sdTxRotate s.sd t2) with
      | mk sd' o =>
        have hc := (hs.config.rotate t2).take htake
        have hset : ∀ g, HdrOf h g → ∀ pkt ∈ s.pkts.set k (g, e), HdrOf h pkt.1 ∧ P pkt.2 :=
          fun g hg pkt hpkt => by
            rcases mem_or_eq_of_mem_set hpkt with hpkt | rfl
            · exact hs.pkts pkt hpkt
            · exact ⟨hg, he⟩
        cases o with
        | none => exact ⟨hc, hset hdr' hhdr', hs.sent⟩
        | some tsc =>
          have htsc : HdrOf h { hdr' with epochTsc := tsc } := ⟨hhdr'.ssi, hhdr'.sdi⟩
          have hkept : Sends mask h P ⟨sd', s.pkts.set k ({ hdr' with epochTsc := tsc }, e), s.sent⟩ :=
            ⟨hc, hset _ htsc, hs.sent⟩
          exact hkept.send htsc he t3
  | rx now fam an => exact ⟨⟨hs.config.mode, hs.config.useSsi, hs.config.sdi⟩, hs.pkts, hs.sent⟩

theorem Sends.run (hs : Sends mask h P s) {ops : List SecOp}
    (hops : ∀ op ∈ ops, ∀ e t1 t2 t3, op = .first e t1 t2 t3 → P e) : Sends mask h P (s.run mask h ops) := by
  induction ops generalizing s with
  | nil => exact hs
  | cons op ops ih =>
    exact ih (hs.step (hops op mem_cons_self)) fun o ho => hops o (mem_cons_of_mem op ho)

theorem largeContext_inj {ep ep' : BitVec 16} {rk rk' : BitVec 32} {a b : BitVec 128}
    (h : largeContext ep rk a = largeContext ep' rk' b) : a = b := by
  simp only [largeContext, KdfCtx.large.injEq] at h
  exact (append_inj h).2

/-- Two hosts with one secure domain: one configuration, at most one of them the server, and
addresses and SSIs of their own. -/
structure SharedSd (a b : Host) : Prop where
  mode : a.mode = b.mode
  useSsi : a.ssi.isSome = b.ssi.isSome
  oneServer : ¬ (a.server = true ∧ b.server = true)
  v4 : ∀ x, a.v4 = some x → b.v4 ≠ some x
  v6 : ∀ x, a.v6 = some x → b.v6 ≠ some x
  ssi : ∀ x, a.ssi = some x → b.ssi ≠ some x

/-- The frame has something of its sender in the key or the IV: only direct mode without
SSI over IPv6 does not. -/
def Host.Identified (h : Host) (e : Ether) : Prop :=
  h.mode = .direct → h.ssi = none → e.isIpv6 = false

def Host.NotServing (h client : Host) : Prop :=
  h.mode = .server → h.server = true → h.clientSsi ≠ client.ssi

theorem secEncPkt_eq {e : Ether} {f : Nonce} (hf : (secEncPkt mask h sd hdr e t).2 = some f) :
    encKey h sd hdr e (secSdKey sd t (famOf e) hdr.an).2 = some f.1 ∧
      f.2 = ivOf mask (sd.mode = .direct) f.1 (encIvHead sd hdr e) hdr.epochTsc := by
  unfold secEncPkt at hf
  split at hf
  · cases hf
  dsimp only at hf
  split at hf
  · cases hf
  rename_i key hkey
  cases hf
  exact ⟨hkey, by simp only [ivOf, decide_eq_true_eq]⟩

theorem clientSsi_of_secInit (hinit : secInit h t = some sd) (hmode : h.mode = .server) (hs : h.server = true) :
    ∃ c, h.clientSsi = some c := by
  cases hc : h.clientSsi with
  | some c => exact ⟨c, rfl⟩
  | none =>
    simp only [secInit, hmode, hs, hc, isNone_none, Bool.and_self, if_true] at hinit
    split at hinit <;> cases hinit

theorem hdrSsi_of_serving {c : BitVec 32} (hmode : h.mode = .server) (hs : h.server = true)
    (hc : h.clientSsi = some c) : h.hdrSsi = c := by
  simp [Host.hdrSsi, hmode, hs, hc]

theorem hdrSsi_of_not_serving {x : BitVec 32} (hn : ¬ (h.mode = .server ∧ h.server = true)) (hx : h.ssi = some x) :
    h.hdrSsi = x := by
  rw [Host.hdrSsi, if_neg hn, hx, getD_some]

theorem SharedSd.hdrSsi_ne {a b : Host} (hsd : SharedSd a b) {t' : BitVec 64} {sa sb : TxSd}
    (ha : secInit a t = some sa) (hb : secInit b t' = some sb) (hssi : a.ssi.isSome = true) (hab : a.NotServing b)
    (hba : b.NotServing a) : a.hdrSsi ≠ b.hdrSsi := by
  obtain ⟨x, hx⟩ := isSome_iff_exists.1 hssi
  obtain ⟨y, hy⟩ := isSome_iff_exists.1 (hsd.useSsi ▸ hssi)
  by_cases hsa : a.mode = .server ∧ a.server = true
  · obtain ⟨c, hc⟩ := clientSsi_of_secInit ha hsa.1 hsa.2
    have hsb : ¬ (b.mode = .server ∧ b.server = true) := fun h => hsd.oneServer ⟨hsa.2, h.2⟩
    rw [hdrSsi_of_serving hsa.1 hsa.2 hc, hdrSsi_of_not_serving hsb hy]
    exact fun heq => hab hsa.1 hsa.2 (by rw [hc, hy, heq])
  · rw [hdrSsi_of_not_serving hsa hx]
    by_cases hsb : b.mode = .server ∧ b.server = true
    · obtain ⟨c, hc⟩ := clientSsi_of_secInit hb hsb.1 hsb.2
      rw [hdrSsi_of_serving hsb.1 hsb.2 hc]
      exact fun heq => hba hsb.1 hsb.2 (by rw [hc, hx, heq])
    · rw [hdrSsi_of_not_serving hsb hy]
      exact fun heq => hsd.ssi x hx (by rw [hy, heq])

theorem SharedSd.ne_without_ssi {a b : Host} (hsd : SharedSd a b) (hssi : a.ssi = none)
    (hserver : a.mode ≠ .server) {sa sb : TxSd} (hca : Config a sa) (hcb : Config b sb)
    {hdrA hdrB : SecHdr} {eA eB : Ether} {tA tB : BitVec 64} {f : Nonce}
    (hA : (secEncPkt mask a sa hdrA eA tA).2 = some f) (hB : (secEncPkt mask b sb hdrB eB tB).2 = some f)
    (ownA : a.Owns eA ∧ a.Identified eA) (ownB : b.Owns eB ∧ b.Identified eB) : False := by
  have hssiB : b.ssi = none := by
    have := hsd.useSsi
    rw [hssi] at this
    exact isNone_iff_eq_none.1 (by simpa using this.symm)
  have huA : sa.useSsi = false := by rw [hca.useSsi, hssi]; rfl
  have huB : sb.useSsi = false := by rw [hcb.useSsi, hssiB]; rfl
  obtain ⟨hkA, hivA⟩ := secEncPkt_eq hA
  obtain ⟨hkB, hivB⟩ := secEncPkt_eq hB
  have hmode : sb.mode = sa.mode := by rw [hca.mode, hcb.mode, hsd.mode]
  have hhead : encIvHead sa hdrA eA = encIvHead sb hdrB eB := by
    rw [hmode] at hivB
    exact (ivOf_inj (hivA.symm.trans hivB)).1
  -- in a cluster the contexts are equal
  have hctx : a.mode = .cluster → clusterContext sa hdrA eA = clusterContext sb hdrB eB := by
    intro hcl
    rw [encKey, hca.mode, hcl] at hkA
    rw [encKey, hcb.mode, ← hsd.mode, hcl] at hkB
    have hk := hkA.trans hkB.symm
    simp only [some.injEq, GcmKey.kdf.injEq] at hk
    exact hk.2.2
  have hmodes : a.mode = .direct ∨ a.mode = .cluster := by
    cases hm : a.mode with
    | none => rw [encKey, hca.mode, hm] at hkA; cases hkA
    | direct => exact Or.inl rfl
    | cluster => exact Or.inr rfl
    | server => exact absurd hm hserver
  cases eA with
  | other => exact ownA.1
  | ip srcA dstA =>
    cases eB with
    | other => exact ownB.1
    | ip srcB dstB =>
      simp only [encIvHead, huA, huB, Bool.false_eq_true, if_false] at hhead
      exact hsd.v4 srcA ownA.1 (by rw [hhead]; exact ownB.1)
    | ipv6 srcB dstB =>
      rcases hmodes with hm | hm
      · exact absurd (ownB.2 (hsd.mode ▸ hm) hssiB) (by simp [Ether.isIpv6])
      · exact absurd (hctx hm) (by simp [clusterContext, smallContext, largeContext])
  | ipv6 srcA dstA =>
    rcases hmodes with hm | hm
    · exact absurd (ownA.2 hm hssi) (by simp [Ether.isIpv6])
    cases eB with
    | other => exact ownB.1
    | ip srcB dstB => exact absurd (hctx hm) (by simp [clusterContext, smallContext, largeContext])
    | ipv6 srcB dstB =>
      have hsrc : srcA = srcB := largeContext_inj (hctx hm)
      exact hsd.v6 srcA ownA.1 (by rw [hsrc]; exact ownB.1)

/-- No frame of one host shares key and IV with a frame of another host of the domain, in
every configuration that is accepted, except between a server and the client whose SSI it
writes and over IPv6 in direct mode without SSI. -/
theorem nonce_separated (mask : GcmKey → BitVec 96) (a b : Host) (hsd : SharedSd a b)
    (ta tb : BitVec 64) (sa sb : TxSd) (ha : secInit a ta = some sa) (hb : secInit b tb = some sb)
    (opsA opsB : List SecOp)
    (ownA : ∀ op ∈ opsA, ∀ e t1 t2 t3, op = .first e t1 t2 t3 → a.Owns e ∧ a.Identified e)
    (ownB : ∀ op ∈ opsB, ∀ e t1 t2 t3, op = .first e t1 t2 t3 → b.Owns e ∧ b.Identified e)
    (hab : a.NotServing b) (hba : b.NotServing a) :
    ∀ f ∈ ((Sender.start sa).run mask a opsA).sent, f ∉ ((Sender.start sb).run mask b opsB).sent := by
  intro f hfA hfB
  have hnone : ∀ f : Nonce, f ∉ ([] : List Nonce) := fun _ => not_mem_nil
  have hstart : ∀ {h : Host} {t : BitVec 64} {sd : TxSd} {P : Ether → Prop}, secInit h t = some sd →
      Sends mask h P (Sender.start sd) := fun hi =>
    ⟨config_init hi, fun _ hp => absurd hp not_mem_nil, fun f hf => absurd hf (hnone f)⟩
  obtain ⟨sdA, hdrA, eA, tA, hcA, hhA, hoA, hA⟩ := ((hstart ha).run ownA).sent f hfA
  obtain ⟨sdB, hdrB, eB, tB, hcB, hhB, hoB, hB⟩ := ((hstart hb).run ownB).sent f hfB
  cases hssi : a.ssi with
  | none =>
    refine hsd.ne_without_ssi hssi (fun hm => ?_) hcA hcB hA hB hoA hoB
    simp only [secInit, hm, hssi, isNone_none, if_true] at ha
    cases ha
  | some x =>
    have hsomeA : a.ssi.isSome = true := by rw [hssi]; rfl
    have hsomeB : b.ssi.isSome = true := by rw [← hsd.useSsi]; exact hsomeA
    have hivA := (secEncPkt_eq hA).2
    have hivB := (secEncPkt_eq hB).2
    rw [hcB.mode, ← hsd.mode, ← hcA.mode] at hivB
    have hhead := (ivOf_inj (hivA.symm.trans hivB)).1
    simp only [encIvHead, hcA.useSsi, hcB.useSsi, hhA.ssi, hhB.ssi, hsomeA, hsomeB, if_true] at hhead
    exact hsd.hdrSsi_ne ha hb hsomeA hab hba hhead

def plainHost (mode : SecMode) (addr : BitVec 128) : Host :=
  { mode, ssi := none, server := false, clientSsi := none, rotation := false, v4 := none
    v6 := some addr }

def plainSd (mode : SecMode) (rekey : Bool) : TxSd :=
  { mode, useSsi := false, rekey, rekeyMask := 0xff00, rekeyShift := 8, sdi := 1, epoch := 0
    an := false, txCounter := 0, invokeFatalThreshold := invokeFatal, txRot := 0
    keys := .init false, client := fun _ => none }

def clientHost : Host :=
  { mode := .server, ssi := some 7, server := false, clientSsi := none, rotation := false
    v4 := some 1, v6 := none }

def serverHost : Host :=
  { mode := .server, ssi := some 8, server := true, clientSsi := some 7, rotation := false
    v4 := some 2, v6 := none }

theorem sharedSd_plain (mode : SecMode) : SharedSd (plainHost mode 1) (plainHost mode 2) :=
  ⟨rfl, rfl, by simp [plainHost], by simp [plainHost], by simp [plainHost], by simp [plainHost]⟩

theorem sharedSd_served : SharedSd clientHost serverHost :=
  ⟨rfl, rfl, by simp [clientHost], by simp [clientHost, serverHost], by simp [clientHost],
    by simp [clientHost, serverHost]⟩

/-- The first frames of two hosts share key and IV: over IPv6 in direct mode without SSI,
where the IV has nothing of the host, and between a server and its client, where the server
writes the client's SSI. -/
theorem first_nonces_shared :
    SharedSd (plainHost .direct 1) (plainHost .direct 2) ∧ SharedSd clientHost serverHost ∧
    (∃ f, ((Sender.start (plainSd .direct false)).run (fun _ => 0) (plainHost .direct 1)
        [.first (.ipv6 1 2) 0 0 0]).sent = [f] ∧
      ((Sender.start (plainSd .direct false)).run (fun _ => 0) (plainHost .direct 2)
        [.first (.ipv6 2 1) 0 0 0]).sent = [f]) ∧
    (secInit (plainHost .direct 1) 0 = some (plainSd .direct false) ∧
      secInit (plainHost .direct 2) 0 = some (plainSd .direct false)) ∧
    ∃ client server f, secInit clientHost 0 = some client ∧ secInit serverHost 0 = some server ∧
      ((Sender.start client).run (fun _ => 0) clientHost [.first (.ip 1 2) 0 0 0]).sent = [f] ∧
      ((Sender.start server).run (fun _ => 0) serverHost [.first (.ip 2 1) 0 0 0]).sent = [f] := by
  exact ⟨sharedSd_plain .direct, sharedSd_served, ⟨_, rfl, rfl⟩, ⟨rfl, rfl⟩, _, _, _, rfl, rfl, rfl, rfl⟩

/-- Two hosts of a cluster over IPv6 without SSI: their first frames have the same IV words
and different keys. -/
theorem nonce_separated_cluster :
    ∃ f g, ((Sender.start (plainSd .cluster true)).run (fun _ => 0) (plainHost .cluster 1)
        [.first (.ipv6 1 2) 0 0 0]).sent = [f] ∧
      ((Sender.start (plainSd .cluster true)).run (fun _ => 0) (plainHost .cluster 2)
        [.first (.ipv6 2 1) 0 0 0]).sent = [g] ∧ f.2 = g.2 ∧ f ≠ g := by
  refine ⟨_, _, rfl, rfl, rfl, fun heq => ?_⟩
  have hops : ∀ (h : Host) (e : Ether), h.Owns e ∧ h.Identified e →
      ∀ op ∈ [SecOp.first e 0 0 0], ∀ e' t1 t2 t3, op = .first e' t1 t2 t3 →
        h.Owns e' ∧ h.Identified e' := by
    intro h e he op hop e' t1 t2 t3 heq
    obtain rfl := mem_singleton.1 hop
    cases heq
    exact he
  refine nonce_separated (fun _ => 0) (plainHost .cluster 1) (plainHost .cluster 2)
    (sharedSd_plain .cluster) 0 0 (plainSd .cluster true) (plainSd .cluster true) rfl rfl
    [.first (.ipv6 1 2) 0 0 0] [.first (.ipv6 2 1) 0 0 0] (hops _ _ ⟨rfl, nofun⟩)
    (hops _ _ ⟨rfl, nofun⟩) nofun nofun _ (mem_singleton.2 rfl) ?_
  rw [heq]
  exact mem_singleton.2 rfl

end Uet.Sec
