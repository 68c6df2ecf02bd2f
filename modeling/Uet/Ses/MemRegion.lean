import Uet.Ses.Buffer

/-!
# Memory regions and their keys

The memory-region descriptors of a domain with every operation on them (registration,
access class, binding, enable, disable, close), and `uet_get_mr_desc`, which resolves the
key of a request. Provider-assigned keys name a descriptor index, user-assigned ones are
looked up in a hash table of the endpoint, then in one of the domain. A hash table is
the list of its entries, the last insertion first.

A descriptor keeps the number of the registration that made it (`reg`), which the source
does not store: it tells apart the regions that used one descriptor one after the other.
-/

namespace Uet.Ses

open Function

abbrev MrKey := BitVec 64
abbrev MrIdx := Nat
abbrev EpId := Nat
abbrev JobId := BitVec 32

/-- `UET_MR_KEY_IDEMPOTENT_SAFE`. -/
def keyIdempotentSafe : MrKey := 0x8000000000000000
/-- `UET_MR_KEY_OPTIMIZED`. -/
def keyOptimized : MrKey := 0x4000000000000000
/-- `UET_MR_KEY_VENDOR`. -/
def keyVendor : MrKey := 0x00ff000000000000
/-- `UET_MR_KEY_VENDOR_PROV_SPACE`. -/
def keyProvSpace : MrKey := 0x0001000000000000
/-- `UET_MR_KEY_RKEY_MASK`. -/
def keyRkeyMask : MrKey := 0x0000ffffffffffff
/-- `UET_MR_KEY_OPTIMIZED_RKEY_MASK`. -/
def keyOptRkeyMask : MrKey := 0x0000000000000fff
/-- `UET_MR_KEY_OPTIMIZED_MAX_RKEY`. -/
def keyOptMaxRkey : Nat := 4095

/-- `uet_mr_desc_state_t`. -/
inductive MrState where
  | inactive | disabledReg | disabledBind | enabled
  deriving DecidableEq, Repr

/-- `uet_mr_access_class_t`. -/
inductive AccessClass where
  | unrestricted | riRestricted | jobRestricted | riJobRestricted
  deriving DecidableEq, Repr

structure Access where
  remoteRead : Bool
  remoteWrite : Bool
  atomic : Bool
  deriving DecidableEq, Repr

/-- `struct uet_mr_desc`. -/
structure MrDesc where
  state : MrState
  ep : Option EpId
  region : Region
  fullKey : MrKey
  access : Access
  jobId : JobId
  jobRestricted : Bool
  accessClass : AccessClass
  userKey : Bool
  rkey : MrKey
  context : Nat
  reg : Nat

def MrDesc.zero : MrDesc :=
  { state := .inactive, ep := none, region := ⟨⟨.contig 0, 0, by decide⟩, 0⟩, fullKey := 0,
    access := ⟨false, false, false⟩, jobId := 0, jobRestricted := false,
    accessClass := .unrestricted, userKey := false, rkey := 0, context := 0, reg := 0 }

/-- `uet_mr_domain_scoped`. -/
def MrDesc.domainScoped (r : MrDesc) : Bool :=
  r.accessClass == .unrestricted || r.accessClass == .jobRestricted

/-- `struct uet_domain`, the memory-region part. An index fits the RKEY field of a key. -/
structure Domain where
  numMr : Nat
  pos : 0 < numMr
  small : numMr ≤ 2 ^ 48
  mr : MrIdx → MrDesc
  allocated : MrIdx → Bool
  nextMrIndex : Nat
  nextOptMrIndex : Nat
  epHash : EpId → List MrIdx
  domHash : List MrIdx
  regs : Nat

/-- A domain as `uet_domain` makes it. -/
def Domain.init (numMr : Nat) (pos : 0 < numMr) (small : numMr ≤ 2 ^ 48) : Domain :=
  { numMr, pos, small, mr := fun _ => .zero, allocated := fun _ => false, nextMrIndex := 0,
    nextOptMrIndex := 0, epHash := fun _ => [], domHash := [], regs := 0 }

def Domain.setMr (d : Domain) (i : MrIdx) (r : MrDesc) : Domain :=
  { d with mr := update d.mr i r }

/-! ## Keys and registration -/

/-- The search for an available descriptor among the first `n`, from `start` round. -/
def scanFree (allocated : MrIdx → Bool) (n start : Nat) : Option MrIdx :=
  ((List.range n).map fun k => (start + k) % n).find? fun i => !allocated i

/-- `uet_alloc_mr_desc`. -/
def allocMrDesc (d : Domain) : Option (MrIdx × Domain) :=
  (scanFree d.allocated d.numMr d.nextMrIndex).map fun i =>
    (i, { d with
      allocated := update d.allocated i true
      nextMrIndex := if i + 1 = d.numMr then 0 else i + 1 })

/-- `uet_alloc_opt_mr_desc`: an index in the range of the optimized format. -/
def allocOptMrDesc (d : Domain) : Option (MrIdx × Domain) :=
  let maxIndex := if d.numMr ≤ keyOptMaxRkey then d.numMr - 1 else keyOptMaxRkey
  (scanFree d.allocated (maxIndex + 1) d.nextOptMrIndex).map fun i =>
    (i, { d with
      allocated := update d.allocated i true
      nextOptMrIndex := if i = maxIndex then 0 else i + 1 })

/-- `uet_mr_alloc_key`: the full key, the RKEY, the descriptor and the domain. -/
def mrAllocKey (d : Domain) (requested : MrKey) (userKey : Bool) :
    Option (MrKey × MrKey × MrIdx × Domain) :=
  let key := requested &&& keyIdempotentSafe
  let idx (i : MrIdx) : MrKey := BitVec.ofNat 64 i
  if !userKey then
    let opt := if requested &&& keyOptimized ≠ 0 then allocOptMrDesc d else none
    match opt with
    | some (i, d) => some (key ||| (keyOptimized ||| idx i) ||| keyProvSpace, idx i, i, d)
    | none =>
      match allocMrDesc d with
      | some (i, d) => some (key ||| idx i ||| keyProvSpace, idx i, i, d)
      | none => none
  else if requested &&& keyVendor ≠ 0 then none
  else
    let rkey := if requested &&& keyOptimized ≠ 0 then requested &&& keyOptRkeyMask
      else requested &&& keyRkeyMask
    let full := if requested &&& keyOptimized ≠ 0 then key ||| (keyOptimized ||| rkey)
      else key ||| rkey
    match allocMrDesc d with
    | some (i, d) => some (full, rkey, i, d)
    | none => none

/-- How a region is registered: `uet_mr_regv`, `uet_mr_reg_pbl`, and with a job
`uet_mr_reg_job`. -/
structure RegReq where
  region : Region
  access : Access
  requestedKey : MrKey
  userKey : Bool
  job : Option JobId
  context : Nat

def mrReg (d : Domain) (q : RegReq) : Option MrIdx × Domain :=
  match mrAllocKey d q.requestedKey q.userKey with
  | none => (none, d)
  | some (key, rkey, i, d) =>
    (some i,
      { d.setMr i
          { state := .disabledReg, ep := none, region := q.region, fullKey := key,
            access := q.access, jobId := q.job.getD 0, jobRestricted := q.job.isSome,
            accessClass := if q.job.isSome then .jobRestricted else .unrestricted,
            userKey := q.userKey, rkey, context := q.context, reg := d.regs } with
        regs := d.regs + 1 })

/-! ## The other operations -/

/-- `uet_mr_set_access`. -/
def mrSetAccess (d : Domain) (i : MrIdx) (c : AccessClass) (job : JobId) : Domain :=
  let r := d.mr i
  if r.state ≠ .disabledReg then d
  else
    let restricted := c == .jobRestricted || c == .riJobRestricted
    d.setMr i { r with
      jobRestricted := restricted
      jobId := if restricted then job else 0
      accessClass := c }

/-- `uet_ep_bind_mr`; endpoint and region belong to the same domain. -/
def epBindMr (d : Domain) (e : EpId) (i : MrIdx) : Domain :=
  let r := d.mr i
  if r.state ≠ .disabledReg then d
  else d.setMr i { r with
      accessClass := match r.accessClass with
        | .unrestricted => .riRestricted
        | .jobRestricted => .riJobRestricted
        | c => c
      state := .disabledBind
      ep := some e }

/-- `uet_mr_hash_insert`. -/
def mrHashInsert (d : Domain) (i : MrIdx) : Domain :=
  let r := d.mr i
  if r.domainScoped then { d with domHash := i :: d.domHash }
  else
    match r.ep with
    | some e => { d with epHash := update d.epHash e (i :: d.epHash e) }
    | none => d

/-- `uet_mr_hash_remove`. -/
def mrHashRemove (d : Domain) (i : MrIdx) : Domain :=
  let r := d.mr i
  if r.domainScoped then { d with domHash := d.domHash.filter (· ≠ i) }
  else
    match r.ep with
    | some e => { d with epHash := update d.epHash e ((d.epHash e).filter (· ≠ i)) }
    | none => d

/-- `uet_mr_enable`. -/
def mrEnable (d : Domain) (i : MrIdx) : Domain :=
  let r := d.mr i
  if r.state ≠ (if r.domainScoped then .disabledReg else .disabledBind) then d
  else
    let d := if r.userKey then mrHashInsert d i else d
    d.setMr i { r with state := .enabled }

/-- `uet_mr_disable`. -/
def mrDisable (d : Domain) (i : MrIdx) : Domain :=
  let r := d.mr i
  if r.state ≠ .enabled then d
  else
    let d := if r.userKey then mrHashRemove d i else d
    d.setMr i { r with state := .disabledReg, ep := none }

/-- `uet_mr_close` with `uet_dealloc_mr_desc`. -/
def mrClose (d : Domain) (i : MrIdx) : Domain :=
  let r := d.mr i
  if r.state = .inactive ∨ r.state = .enabled then d
  else { d.setMr i .zero with allocated := update d.allocated i false }

inductive MrOp where
  | reg (q : RegReq)
  | setAccess (i : MrIdx) (c : AccessClass) (job : JobId)
  | bind (e : EpId) (i : MrIdx)
  | enable (i : MrIdx)
  | disable (i : MrIdx)
  | close (i : MrIdx)

def MrOp.apply (d : Domain) : MrOp → Domain
  | .reg q => (mrReg d q).2
  | .setAccess i c job => mrSetAccess d i c job
  | .bind e i => epBindMr d e i
  | .enable i => mrEnable d i
  | .disable i => mrDisable d i
  | .close i => mrClose d i

/-! ## The lookup -/

/-- `uet_mr_hash_lookup`: the endpoint's own regions first. -/
def mrHashLookup (d : Domain) (e : EpId) (rkey : MrKey) : Option MrIdx :=
  match (d.epHash e).find? fun i => (d.mr i).rkey == rkey with
  | some i => some i
  | none => d.domHash.find? fun i => (d.mr i).rkey == rkey

def mrLookup (d : Domain) (e : EpId) (key : MrKey) : Option MrIdx :=
  let rkey := key &&& keyRkeyMask
  if key &&& keyProvSpace ≠ 0 then
    if d.numMr ≤ rkey.toNat then none
    else if (d.mr rkey.toNat).state ≠ .enabled ∨ (d.mr rkey.toNat).userKey then none
    else some rkey.toNat
  else mrHashLookup d e rkey

def MrDesc.reachable (r : MrDesc) (e : EpId) : Bool := r.domainScoped || r.ep == some e

def MrDesc.allowsJob (r : MrDesc) (job : JobId) : Bool := !r.jobRestricted || r.jobId == job

/-- `uet_get_mr_desc`. -/
def getMrDesc (d : Domain) (e : EpId) (key : MrKey) (job : JobId) : Option MrIdx :=
  match mrLookup d e key with
  | none => none
  | some i => if (d.mr i).reachable e && (d.mr i).allowsJob job then some i else none

/-! ## Key bits -/

private theorem ofNat_and_mask {i : Nat} (h : i < 2 ^ 48) :
    (BitVec.ofNat 64 i &&& keyRkeyMask) = BitVec.ofNat 64 i := by
  apply BitVec.eq_of_toNat_eq
  have hm : keyRkeyMask.toNat = 2 ^ 48 - 1 := by decide
  rw [BitVec.toNat_and, hm, Nat.and_two_pow_sub_one_eq_mod, BitVec.toNat_ofNat,
    Nat.mod_eq_of_lt (show i < 2 ^ 64 by omega), Nat.mod_eq_of_lt h]

/-- What the key of a registered region says: a provider key names its descriptor, a
user key is in the other space with its RKEY in the lookup bits. -/
structure MrDesc.Keyed (r : MrDesc) (i : MrIdx) : Prop where
  prov : r.userKey = false →
    r.fullKey &&& keyProvSpace = keyProvSpace ∧ r.fullKey &&& keyRkeyMask = BitVec.ofNat 64 i
  user : r.userKey = true → r.fullKey &&& keyProvSpace = 0 ∧ r.fullKey &&& keyRkeyMask = r.rkey

theorem scanFree_some {allocated : MrIdx → Bool} {n start i : Nat}
    (h : scanFree allocated n start = some i) : i < n ∧ allocated i = false := by
  have hf := List.find?_some h
  obtain ⟨k, hk, rfl⟩ := List.mem_map.1 (List.mem_of_find?_eq_some h)
  have hn : 0 < n := Nat.lt_of_le_of_lt (Nat.zero_le k) (List.mem_range.1 hk)
  exact ⟨Nat.mod_lt _ hn, by simpa using hf⟩

structure Allocated (d : Domain) (i : Nat) (d' : Domain) : Prop where
  lt : i < d.numMr
  free : d.allocated i = false
  allocated : d'.allocated = update d.allocated i true
  numMr : d'.numMr = d.numMr
  mr : d'.mr = d.mr
  epHash : d'.epHash = d.epHash
  domHash : d'.domHash = d.domHash
  regs : d'.regs = d.regs

variable {d d' : Domain} {i : MrIdx} {key : MrKey} {r : MrDesc} {e : EpId}

theorem allocMrDesc_spec (h : allocMrDesc d = some (i, d')) : Allocated d i d' := by
  simp only [allocMrDesc, Option.map_eq_some_iff] at h
  obtain ⟨j, hj, he⟩ := h
  cases he
  obtain ⟨h1, h2⟩ := scanFree_some hj
  exact ⟨h1, h2, rfl, rfl, rfl, rfl, rfl, rfl⟩

theorem allocOptMrDesc_spec (h : allocOptMrDesc d = some (i, d')) : Allocated d i d' := by
  simp only [allocOptMrDesc, Option.map_eq_some_iff] at h
  obtain ⟨j, hj, he⟩ := h
  cases he
  obtain ⟨h1, h2⟩ := scanFree_some hj
  have hpos := d.pos
  refine ⟨?_, h2, rfl, rfl, rfl, rfl, rfl, rfl⟩
  split at h1 <;> omega

private theorem idx_and_prov {i : Nat} (h : i < 2 ^ 48) : BitVec.ofNat 64 i &&& keyProvSpace = 0 := by
  have hz : keyRkeyMask &&& keyProvSpace = 0#64 := by decide
  rw [← ofNat_and_mask h, BitVec.and_assoc, hz, BitVec.and_zero]
  rfl

private theorem provKey_bits {i : Nat} (h : i < 2 ^ 48) (q flags : MrKey)
    (hf : flags &&& keyProvSpace = 0#64) (hm : flags &&& keyRkeyMask = 0#64) :
    ((q &&& keyIdempotentSafe) ||| (flags ||| BitVec.ofNat 64 i) ||| keyProvSpace) &&& keyProvSpace
        = keyProvSpace ∧
      ((q &&& keyIdempotentSafe) ||| (flags ||| BitVec.ofNat 64 i) ||| keyProvSpace) &&& keyRkeyMask
        = BitVec.ofNat 64 i := by
  have h1 : keyIdempotentSafe &&& keyRkeyMask = 0#64 := by decide
  have h2 : keyProvSpace &&& keyRkeyMask = 0#64 := by decide
  have h3 : keyIdempotentSafe &&& keyProvSpace = 0#64 := by decide
  constructor
  · rw [BitVec.and_or_distrib_right, BitVec.and_or_distrib_right, BitVec.and_or_distrib_right,
      idx_and_prov h, hf, BitVec.and_assoc, h3]
    simp
  · rw [BitVec.and_or_distrib_right, BitVec.and_or_distrib_right, BitVec.and_or_distrib_right,
      ofNat_and_mask h, hm, h2, BitVec.and_assoc, h1]
    simp

/-- The lookup bits of a user key; `m` is the RKEY mask of its format. -/
private theorem userKey_bits (q flags m : MrKey) (hf : flags &&& keyProvSpace = 0#64)
    (hm : flags &&& keyRkeyMask = 0#64) (hmp : m &&& keyProvSpace = 0#64) (hmm : m &&& keyRkeyMask = m) :
    ((q &&& keyIdempotentSafe) ||| (flags ||| (q &&& m))) &&& keyProvSpace = 0 ∧
      ((q &&& keyIdempotentSafe) ||| (flags ||| (q &&& m))) &&& keyRkeyMask = q &&& m := by
  have h1 : keyIdempotentSafe &&& keyRkeyMask = 0#64 := by decide
  have h3 : keyIdempotentSafe &&& keyProvSpace = 0#64 := by decide
  constructor
  · rw [BitVec.and_or_distrib_right, BitVec.and_or_distrib_right, hf, BitVec.and_assoc, h3,
      BitVec.and_assoc, hmp]
    simp
  · rw [BitVec.and_or_distrib_right, BitVec.and_or_distrib_right, hm, BitVec.and_assoc, h1,
      BitVec.and_assoc, hmm]
    simp

theorem mrAllocKey_spec {q rkey : MrKey} {user : Bool} (h : mrAllocKey d q user = some (key, rkey, i, d')) :
    Allocated d i d' ∧
      (user = false → key &&& keyProvSpace = keyProvSpace ∧
        key &&& keyRkeyMask = BitVec.ofNat 64 i) ∧
      (user = true → key &&& keyProvSpace = 0 ∧ key &&& keyRkeyMask = rkey) := by
  have hz : (0 : MrKey) &&& keyProvSpace = 0#64 := by decide
  have hz' : (0 : MrKey) &&& keyRkeyMask = 0#64 := by decide
  have ho : keyOptimized &&& keyProvSpace = 0#64 := by decide
  have ho' : keyOptimized &&& keyRkeyMask = 0#64 := by decide
  cases user with
  | false =>
    refine ⟨?_, fun _ => ?_, fun hu => by cases hu⟩ <;>
    · simp only [mrAllocKey, Bool.not_false, if_true] at h
      split at h
      · rename_i j d1 hopt
        have hs : Allocated d j d1 := by
          split at hopt
          · exact allocOptMrDesc_spec hopt
          · cases hopt
        cases h
        first
          | exact hs
          | exact provKey_bits (Nat.lt_of_lt_of_le hs.lt d.small) q keyOptimized ho ho'
      · split at h
        · rename_i j d1 hall
          have hs := allocMrDesc_spec hall
          cases h
          first
            | exact hs
            | simpa using provKey_bits (Nat.lt_of_lt_of_le hs.lt d.small) q 0 hz hz'
        · cases h
  | true =>
    simp only [mrAllocKey, Bool.not_true, Bool.false_eq_true, if_false] at h
    split at h
    · cases h
    split at h
    · rename_i j d1 hall
      have hs := allocMrDesc_spec hall
      cases h
      refine ⟨hs, nofun, fun _ => ?_⟩
      split
      · exact userKey_bits q keyOptimized keyOptRkeyMask ho ho' (by decide) (by decide)
      · simpa using userKey_bits q 0 keyRkeyMask hz hz' (by decide) (by decide)
    · cases h

/-! ## What every history of operations keeps -/

/-- The region is in the hash table of endpoint `e`. -/
def MrDesc.inEpHash (r : MrDesc) (e : EpId) : Prop :=
  r.state = .enabled ∧ r.userKey = true ∧ r.domainScoped = false ∧ r.ep = some e

def MrDesc.inDomHash (r : MrDesc) : Prop :=
  r.state = .enabled ∧ r.userKey = true ∧ r.domainScoped = true

/-- A descriptor in use is allocated and keyed, one that waits for its enabling or is
enabled has the endpoint its class asks for, and the hash tables hold the enabled regions
with user keys. -/
structure DomainOk (d : Domain) : Prop where
  inUse : ∀ i, (d.mr i).state ≠ .inactive → d.allocated i = true ∧ i < d.numMr ∧ (d.mr i).Keyed i
  bound : ∀ i, (d.mr i).state = .disabledBind ∨ (d.mr i).state = .enabled →
    (d.mr i).domainScoped = false → (d.mr i).ep ≠ none
  epHash : ∀ e i, i ∈ d.epHash e ↔ (d.mr i).inEpHash e
  domHash : ∀ i, i ∈ d.domHash ↔ (d.mr i).inDomHash

theorem domainOk_init (n : Nat) (pos : 0 < n) (small : n ≤ 2 ^ 48) : DomainOk (Domain.init n pos small) := by
  refine ⟨?_, ?_, ?_, ?_⟩ <;>
    simp [Domain.init, MrDesc.zero, MrDesc.inEpHash, MrDesc.inDomHash]

section

variable (h : DomainOk d)
include h

theorem DomainOk.write (hmr : d'.mr = update d.mr i r) (hnum : d'.numMr = d.numMr)
    (hall : ∀ j, j ≠ i → d'.allocated j = d.allocated j)
    (huse : r.state ≠ .inactive → d'.allocated i = true ∧ i < d.numMr ∧ r.Keyed i)
    (hbound : r.state = .disabledBind ∨ r.state = .enabled → r.domainScoped = false → r.ep ≠ none)
    (hep : ∀ e j, j ∈ d'.epHash e ↔ if j = i then r.inEpHash e else j ∈ d.epHash e)
    (hdom : ∀ j, j ∈ d'.domHash ↔ if j = i then r.inDomHash else j ∈ d.domHash) : DomainOk d' := by
  have hsame : ∀ j, j ≠ i → d'.mr j = d.mr j := fun j hj => by
    rw [hmr, update_of_ne hj]
  have hat : d'.mr i = r := by rw [hmr, update_self]
  refine ⟨fun j => ?_, fun j => ?_, fun e j => ?_, fun j => ?_⟩ <;>
    by_cases hj : j = i
  · subst hj; rw [hat, hnum]; exact huse
  · rw [hsame j hj, hnum, hall j hj]; exact h.inUse j
  · subst hj; rw [hat]; exact hbound
  · rw [hsame j hj]; exact h.bound j
  · rw [hep, if_pos hj, hj, hat]
  · rw [hep, if_neg hj, hsame j hj]; exact h.epHash e j
  · rw [hdom, if_pos hj, hj, hat]
  · rw [hdom, if_neg hj, hsame j hj]; exact h.domHash j

theorem DomainOk.writeDisabled (hmr : d'.mr = update d.mr i r)
    (hold : (d.mr i).state ≠ .enabled) (hnew : r.state ≠ .enabled) (hep : d'.epHash = d.epHash)
    (hdom : d'.domHash = d.domHash) (hnum : d'.numMr = d.numMr) (hall : ∀ j, j ≠ i → d'.allocated j = d.allocated j)
    (huse : r.state ≠ .inactive → d'.allocated i = true ∧ i < d.numMr ∧ r.Keyed i)
    (hbound : r.state = .disabledBind → r.ep ≠ none) : DomainOk d' := by
  refine h.write hmr hnum hall huse ?_ (fun e j => ?_) (fun j => ?_)
  · rintro (hs | hs) _
    · exact hbound hs
    · exact absurd hs hnew
  · rw [hep]
    split
    · rename_i hj
      rw [hj, h.epHash]
      exact ⟨fun hm => absurd hm.1 hold, fun hm => absurd hm.1 hnew⟩
    · rfl
  · rw [hdom]
    split
    · rename_i hj
      rw [hj, h.domHash]
      exact ⟨fun hm => absurd hm.1 hold, fun hm => absurd hm.1 hnew⟩
    · rfl

theorem DomainOk.reg (q : RegReq) : DomainOk (mrReg d q).2 := by
  unfold mrReg
  split
  · exact h
  rename_i key rkey i d1 hk
  obtain ⟨ha, hprov, huser⟩ := mrAllocKey_spec hk
  have hfree : (d.mr i).state = .inactive := by
    by_contra hs
    exact absurd (h.inUse i hs).1 (by rw [ha.free]; decide)
  refine h.writeDisabled (by rw [Domain.setMr, ha.mr]) (by rw [hfree]; decide) (by simp)
    ha.epHash ha.domHash ha.numMr (fun j hj => ?_) (fun _ => ⟨?_, ha.lt, hprov, huser⟩) (by simp)
  · exact (congrFun ha.allocated j).trans (update_of_ne hj _ _)
  · exact (congrFun ha.allocated i).trans (update_self _ _ _)

theorem DomainOk.setAccess (i : MrIdx) (c : AccessClass) (job : JobId) :
    DomainOk (mrSetAccess d i c job) := by
  by_cases hs : (d.mr i).state = .disabledReg
  · obtain ⟨h1, h2, h3⟩ := h.inUse i (by rw [hs]; decide)
    rw [mrSetAccess, if_neg (by simp [hs])]
    exact h.writeDisabled rfl (by rw [hs]; decide) (by simp [hs]) rfl rfl rfl (fun _ _ => rfl)
      (fun _ => ⟨h1, h2, h3.1, h3.2⟩) (by simp [hs])
  · rw [mrSetAccess, if_pos hs]
    exact h

theorem DomainOk.bind (e : EpId) (i : MrIdx) : DomainOk (epBindMr d e i) := by
  by_cases hs : (d.mr i).state = .disabledReg
  · obtain ⟨h1, h2, h3⟩ := h.inUse i (by rw [hs]; decide)
    rw [epBindMr, if_neg (by simp [hs])]
    exact h.writeDisabled rfl (by rw [hs]; decide) (by simp) rfl rfl rfl (fun _ _ => rfl)
      (fun _ => ⟨h1, h2, h3.1, h3.2⟩) (by simp)
  · rw [epBindMr, if_pos hs]
    exact h

theorem DomainOk.close (i : MrIdx) : DomainOk (mrClose d i) := by
  unfold mrClose
  dsimp only
  split
  · exact h
  rename_i hs
  push Not at hs
  exact h.writeDisabled rfl hs.2 (by decide) rfl rfl rfl
    (fun j hj => update_of_ne hj _ _) (by simp [MrDesc.zero]) nofun

end

structure SameRegions (d d' : Domain) : Prop where
  numMr : d'.numMr = d.numMr
  allocated : d'.allocated = d.allocated
  mr : d'.mr = d.mr
  regs : d'.regs = d.regs

theorem mrHashInsert_same (d : Domain) (i : MrIdx) : SameRegions d (mrHashInsert d i) := by
  unfold mrHashInsert
  dsimp only
  split
  · exact ⟨rfl, rfl, rfl, rfl⟩
  · split <;> exact ⟨rfl, rfl, rfl, rfl⟩

theorem mrHashRemove_same (d : Domain) (i : MrIdx) : SameRegions d (mrHashRemove d i) := by
  unfold mrHashRemove
  dsimp only
  split
  · exact ⟨rfl, rfl, rfl, rfl⟩
  · split <;> exact ⟨rfl, rfl, rfl, rfl⟩

section

variable (d) (i j)

theorem mem_epHash_insert (e : EpId) :
    j ∈ (mrHashInsert d i).epHash e ↔
      j ∈ d.epHash e ∨ (j = i ∧ (d.mr i).domainScoped = false ∧ (d.mr i).ep = some e) := by
  unfold mrHashInsert
  dsimp only
  split
  · simp_all
  split
  · rename_i e' he
    by_cases hee : e = e'
    · subst hee; simp_all [or_comm]
    · simp_all [Ne.symm hee]
  · simp_all

theorem mem_domHash_insert :
    j ∈ (mrHashInsert d i).domHash ↔ j ∈ d.domHash ∨ (j = i ∧ (d.mr i).domainScoped = true) := by
  unfold mrHashInsert
  dsimp only
  split
  · simp_all [or_comm]
  · split <;> simp_all

theorem mem_epHash_remove (e : EpId) :
    j ∈ (mrHashRemove d i).epHash e ↔
      j ∈ d.epHash e ∧ ¬ (j = i ∧ (d.mr i).domainScoped = false ∧ (d.mr i).ep = some e) := by
  unfold mrHashRemove
  dsimp only
  split
  · simp_all
  split
  · rename_i e' he
    by_cases hee : e = e'
    · subst hee; simp_all
    · simp_all [Ne.symm hee]
  · simp_all

theorem mem_domHash_remove :
    j ∈ (mrHashRemove d i).domHash ↔ j ∈ d.domHash ∧ ¬ (j = i ∧ (d.mr i).domainScoped = true) := by
  unfold mrHashRemove
  dsimp only
  split
  · simp_all
  · split <;> simp_all

end

section

variable (h : DomainOk d)
include h

theorem DomainOk.enable (i : MrIdx) : DomainOk (mrEnable d i) := by
  by_cases hs : (d.mr i).state = if (d.mr i).domainScoped then .disabledReg else .disabledBind
  · have hactive : (d.mr i).state ≠ .inactive := by rw [hs]; split <;> decide
    have hold : (d.mr i).state ≠ .enabled := by rw [hs]; split <;> decide
    have hE : ∀ e, i ∉ d.epHash e := fun e hm => hold ((h.epHash e i).1 hm).1
    have hD : i ∉ d.domHash := fun hm => hold ((h.domHash i).1 hm).1
    have hbound : (d.mr i).domainScoped = false → (d.mr i).ep ≠ none := fun hd =>
      h.bound i (Or.inl (by rw [hs, hd]; rfl)) hd
    obtain ⟨h1, h2, h3⟩ := h.inUse i hactive
    have hsame : SameRegions d (if (d.mr i).userKey then mrHashInsert d i else d) := by
      split
      · exact mrHashInsert_same d i
      · exact ⟨rfl, rfl, rfl, rfl⟩
    have hrE : ∀ e, MrDesc.inEpHash { d.mr i with state := .enabled } e ↔
        (d.mr i).userKey = true ∧ (d.mr i).domainScoped = false ∧ (d.mr i).ep = some e :=
      fun e => and_iff_right rfl
    have hrD : MrDesc.inDomHash { d.mr i with state := .enabled } ↔
        (d.mr i).userKey = true ∧ (d.mr i).domainScoped = true := and_iff_right rfl
    rw [mrEnable, if_neg (by simpa using hs)]
    refine h.write (congrArg (update · i _) hsame.mr) hsame.numMr
      (fun j _ => congrFun hsame.allocated j)
      (fun _ => ⟨(congrFun hsame.allocated i).trans h1, h2, h3.1, h3.2⟩)
      (fun _ => hbound) (fun e j => ?_) (fun j => ?_)
    · show j ∈ (if (d.mr i).userKey then mrHashInsert d i else d).epHash e ↔ _
      rw [hrE]
      have := mem_epHash_insert d i j e
      grind
    · show j ∈ (if (d.mr i).userKey then mrHashInsert d i else d).domHash ↔ _
      rw [hrD]
      have := mem_domHash_insert d i j
      grind
  · rw [mrEnable, if_pos hs]
    exact h

theorem DomainOk.disable (i : MrIdx) : DomainOk (mrDisable d i) := by
  by_cases hs : (d.mr i).state = .enabled
  · obtain ⟨h1, h2, h3⟩ := h.inUse i (by rw [hs]; decide)
    have hsame : SameRegions d (if (d.mr i).userKey then mrHashRemove d i else d) := by
      split
      · exact mrHashRemove_same d i
      · exact ⟨rfl, rfl, rfl, rfl⟩
    have hE : ∀ e, i ∈ d.epHash e ↔
        (d.mr i).userKey = true ∧ (d.mr i).domainScoped = false ∧ (d.mr i).ep = some e :=
      fun e => (h.epHash e i).trans (and_iff_right hs)
    have hD : i ∈ d.domHash ↔ (d.mr i).userKey = true ∧ (d.mr i).domainScoped = true :=
      (h.domHash i).trans (and_iff_right hs)
    have hrE : ∀ e, ¬ MrDesc.inEpHash { d.mr i with state := .disabledReg, ep := none } e :=
      fun e hm => nomatch hm.1
    have hrD : ¬ MrDesc.inDomHash { d.mr i with state := .disabledReg, ep := none } := fun hm => nomatch hm.1
    rw [mrDisable, if_neg (by simpa using hs)]
    refine h.write (congrArg (update · i _) hsame.mr) hsame.numMr
      (fun j _ => congrFun hsame.allocated j)
      (fun _ => ⟨(congrFun hsame.allocated i).trans h1, h2, h3.1, h3.2⟩)
      (by simp) (fun e j => ?_) (fun j => ?_)
    · show j ∈ (if (d.mr i).userKey then mrHashRemove d i else d).epHash e ↔ _
      have := mem_epHash_remove d i j e
      grind
    · show j ∈ (if (d.mr i).userKey then mrHashRemove d i else d).domHash ↔ _
      have := mem_domHash_remove d i j
      grind
  · rw [mrDisable, if_pos hs]
    exact h

theorem DomainOk.step (o : MrOp) : DomainOk (o.apply d) := by
  cases o with
  | reg => exact h.reg ..
  | setAccess => exact h.setAccess ..
  | bind => exact h.bind ..
  | enable => exact h.enable ..
  | disable => exact h.disable ..
  | close => exact h.close ..

theorem DomainOk.run (ops : List MrOp) : DomainOk (ops.foldl MrOp.apply d) := by
  induction ops generalizing d with
  | nil => exact h
  | cons _ _ ih => exact ih (h.step ..)

/-- A call leaves a live region as it is, or only `uet_mr_disable` meets it enabled and only
`uet_mr_close` takes it away. -/
theorem DomainOk.region_step (o : MrOp) (hi : (d.mr i).state ≠ .inactive) :
    (o.apply d).mr i = d.mr i ∨ ((d.mr i).state = .enabled → o = .disable i) ∧
      (o ≠ .close i → ((o.apply d).mr i).state ≠ .inactive ∧ ((o.apply d).mr i).region = (d.mr i).region) := by
  -- one descriptor is written, and the rest holds if it is this one
  have hset : ∀ (o : MrOp) (d' : Domain) (j : MrIdx) (r : MrDesc), d'.mr = update d.mr j r →
      (i = j → ((d.mr i).state = .enabled → o = .disable i) ∧
        (o ≠ .close i → r.state ≠ .inactive ∧ r.region = (d.mr i).region)) →
      d'.mr i = d.mr i ∨ ((d.mr i).state = .enabled → o = .disable i) ∧
        (o ≠ .close i → (d'.mr i).state ≠ .inactive ∧ (d'.mr i).region = (d.mr i).region) := by
    intro o d' j r hd hr
    rw [hd]
    by_cases hij : i = j
    · subst hij
      rw [update_self]
      exact .inr (hr rfl)
    · exact .inl (update_of_ne hij _ _)
  cases o with
  | reg q =>
    simp only [MrOp.apply, mrReg]
    split
    · exact .inl rfl
    rename_i key rkey j d1 hk
    obtain ⟨ha, -, -⟩ := mrAllocKey_spec hk
    refine hset _ _ j _ (congrArg (update · j _) ha.mr) fun hij => ?_
    have hfree := (h.inUse i hi).1
    rw [hij, ha.free] at hfree
    cases hfree
  | setAccess j c job =>
    simp only [MrOp.apply, mrSetAccess]
    split
    · exact .inl rfl
    rename_i hs
    exact hset _ _ j _ rfl fun hij => by subst hij; exact ⟨fun he => (hs (by rw [he]; decide)).elim, fun _ => ⟨hi, rfl⟩⟩
  | bind e j =>
    simp only [MrOp.apply, epBindMr]
    split
    · exact .inl rfl
    rename_i hs
    exact hset _ _ j _ rfl fun hij => by subst hij; exact ⟨fun he => (hs (by rw [he]; decide)).elim, fun _ => ⟨by simp, rfl⟩⟩
  | enable j =>
    simp only [MrOp.apply, mrEnable]
    generalize hready : (if (d.mr j).domainScoped then MrState.disabledReg else .disabledBind) = ready
    split
    · exact .inl rfl
    rename_i hs
    refine hset _ _ j _ (congrArg (update · j _) ?_) fun hij => ?_
    · split
      · exact (mrHashInsert_same d j).mr
      · rfl
    · subst hij
      refine ⟨fun he => (hs ?_).elim, fun _ => ⟨by simp, rfl⟩⟩
      rw [he, ← hready]
      split <;> decide
  | disable j =>
    simp only [MrOp.apply, mrDisable]
    split
    · exact .inl rfl
    refine hset _ _ j _ (congrArg (update · j _) ?_) fun hij => by
      subst hij; exact ⟨fun _ => rfl, fun _ => ⟨by simp, rfl⟩⟩
    split
    · exact (mrHashRemove_same d j).mr
    · rfl
  | close j =>
    simp only [MrOp.apply, mrClose]
    split
    · exact .inl rfl
    rename_i hs
    exact hset _ _ j _ rfl fun hij => by subst hij; exact ⟨fun he => absurd (.inr he) hs, fun hne => absurd rfl hne⟩

theorem DomainOk.region_kept (o : MrOp) (hi : (d.mr i).state ≠ .inactive)
    (hclose : ∀ j, o = .close j → j ≠ i) :
    ((o.apply d).mr i).state ≠ .inactive ∧ ((o.apply d).mr i).region = (d.mr i).region := by
  obtain heq | ⟨-, hkept⟩ := h.region_step o hi
  · rw [heq]
    exact ⟨hi, rfl⟩
  · exact hkept fun ho => hclose i ho rfl

end

/-! ## What a key resolves to -/

def lookupBits (key : MrKey) : MrKey := key &&& (keyProvSpace ||| keyRkeyMask)

theorem lookupBits_eq_iff {a b : MrKey} :
    lookupBits a = lookupBits b ↔
      a &&& keyProvSpace = b &&& keyProvSpace ∧ a &&& keyRkeyMask = b &&& keyRkeyMask := by
  have hp : (keyProvSpace ||| keyRkeyMask) &&& keyProvSpace = keyProvSpace := by decide
  have hm : (keyProvSpace ||| keyRkeyMask) &&& keyRkeyMask = keyRkeyMask := by decide
  constructor
  · intro h
    constructor
    · rw [← hp, ← BitVec.and_assoc, ← BitVec.and_assoc]
      exact congrArg (· &&& keyProvSpace) h
    · rw [← hm, ← BitVec.and_assoc, ← BitVec.and_assoc]
      exact congrArg (· &&& keyRkeyMask) h
  · rintro ⟨h1, h2⟩
    rw [lookupBits, lookupBits, BitVec.and_or_distrib_left, BitVec.and_or_distrib_left, h1, h2]

private theorem prov_bit (key : MrKey) : key &&& keyProvSpace = 0 ∨ key &&& keyProvSpace = keyProvSpace := by
  have : keyProvSpace = BitVec.twoPow 64 48 := by decide
  rw [this, BitVec.and_twoPow]
  split
  · exact Or.inr rfl
  · exact Or.inl rfl

/-- Descriptor `i` is enabled, endpoint `e` may use it and its key agrees with `key` in
the bits the lookup reads. -/
def Domain.matches (d : Domain) (e : EpId) (key : MrKey) (i : MrIdx) : Prop :=
  (d.mr i).state = .enabled ∧ (d.mr i).reachable e = true ∧
    lookupBits (d.mr i).fullKey = lookupBits key

theorem reachable_of_inEpHash (h : r.inEpHash e) : r.reachable e = true := by
  simp [MrDesc.reachable, h.2.2.2]

theorem reachable_of_inDomHash (e : EpId) (h : r.inDomHash) : r.reachable e = true := by
  simp [MrDesc.reachable, h.2.2]

theorem DomainOk.matches_user (h : DomainOk d) (hkey : key &&& keyProvSpace = 0) (hs : (d.mr i).state = .enabled)
    (hu : (d.mr i).userKey = true) (hr : (d.mr i).reachable e = true) :
    (d.mr i).rkey = key &&& keyRkeyMask ↔ d.matches e key i := by
  obtain ⟨hp, hm⟩ := (h.inUse i (by rw [hs]; decide)).2.2.user hu
  rw [Domain.matches, lookupBits_eq_iff, hp, hm, hkey]
  exact ⟨fun hb => ⟨hs, hr, rfl, hb⟩, fun hb => hb.2.2.2⟩

theorem DomainOk.mrLookup_some (h : DomainOk d) (hl : mrLookup d e key = some i) (hr : (d.mr i).reachable e = true) :
    d.matches e key i := by
  simp only [mrLookup] at hl
  rcases prov_bit key with hkey | hkey
  · rw [if_neg (by simp [hkey]), mrHashLookup] at hl
    split at hl
    · rename_i j hj
      cases hl
      have hin := (h.epHash e _).1 (List.mem_of_find?_eq_some hj)
      exact (h.matches_user hkey hin.1 hin.2.1 hr).1 (by simpa using List.find?_some hj)
    · have hin := (h.domHash _).1 (List.mem_of_find?_eq_some hl)
      exact (h.matches_user hkey hin.1 hin.2.1 hr).1 (by simpa using List.find?_some hl)
  · rw [if_pos (by rw [hkey]; decide)] at hl
    split at hl
    · cases hl
    split at hl
    · cases hl
    rename_i hlt hstate
    push Not at hstate
    cases hl
    obtain ⟨hs, hu⟩ := hstate
    obtain ⟨hp, hm⟩ := (h.inUse _ (by rw [hs]; decide)).2.2.prov (by simpa using hu)
    exact ⟨hs, hr, lookupBits_eq_iff.2 ⟨by rw [hp, hkey], by rw [hm, BitVec.ofNat_toNat]; simp⟩⟩

theorem DomainOk.getMrDesc_some (h : DomainOk d) {job : JobId} (hg : getMrDesc d e key job = some i) :
    d.matches e key i ∧ (d.mr i).allowsJob job = true := by
  unfold getMrDesc at hg
  split at hg
  · cases hg
  rename_i j hj
  split at hg
  · rename_i hc
    cases hg
    rw [Bool.and_eq_true] at hc
    exact ⟨h.mrLookup_some hj hc.1, hc.2⟩
  · cases hg

theorem DomainOk.mrLookup_of_matches (h : DomainOk d) (hm : d.matches e key i) :
    ∃ j, mrLookup d e key = some j ∧ d.matches e key j := by
  obtain ⟨hs, hr, hb⟩ := hm
  obtain ⟨-, hlt, hk⟩ := h.inUse i (by rw [hs]; decide)
  obtain ⟨hbp, hbm⟩ := lookupBits_eq_iff.1 hb
  suffices ∃ j, mrLookup d e key = some j ∧ (d.mr j).reachable e = true by
    obtain ⟨j, hj, hrj⟩ := this
    exact ⟨j, hj, h.mrLookup_some hj hrj⟩
  cases hu : (d.mr i).userKey
  · -- a provider key: the index is the region's own
    obtain ⟨hp, hmask⟩ := hk.prov hu
    have hidx : (key &&& keyRkeyMask).toNat = i := by
      rw [← hbm, hmask, BitVec.toNat_ofNat]
      exact Nat.mod_eq_of_lt (Nat.lt_of_lt_of_le hlt (Nat.le_trans d.small (by decide)))
    refine ⟨i, ?_, hr⟩
    simp only [mrLookup]
    rw [if_pos (by rw [← hbp, hp]; decide), hidx, if_neg (Nat.not_le_of_lt hlt), if_neg (by simp [hs, hu])]
  · obtain ⟨hp, -⟩ := hk.user hu
    have hkey : key &&& keyProvSpace = 0 := by rw [← hbp, hp]
    have hrk : (d.mr i).rkey = key &&& keyRkeyMask := (h.matches_user hkey hs hu hr).2 ⟨hs, hr, hb⟩
    simp only [mrLookup]
    rw [if_neg (by simp [hkey]), mrHashLookup]
    split
    · rename_i j hj
      exact ⟨j, rfl, reachable_of_inEpHash ((h.epHash e j).1 (List.mem_of_find?_eq_some hj))⟩
    rename_i hnone
    -- not in the endpoint's table, so scoped to the domain and in its table
    have hscope : (d.mr i).domainScoped = true := by
      by_contra hd
      have hep : (d.mr i).ep = some e := by simpa [MrDesc.reachable, hd] using hr
      have hin : i ∈ d.epHash e := (h.epHash e i).2 ⟨hs, hu, by simpa using hd, hep⟩
      simpa [hrk] using List.find?_eq_none.1 hnone i hin
    have hin : i ∈ d.domHash := (h.domHash i).2 ⟨hs, hu, hscope⟩
    cases hf : d.domHash.find? fun j => (d.mr j).rkey == key &&& keyRkeyMask with
    | none => simpa [hrk] using List.find?_eq_none.1 hf i hin
    | some j => exact ⟨j, rfl, reachable_of_inDomHash e ((h.domHash ..).1 (List.mem_of_find?_eq_some hf))⟩

/-- The bits the lookup reads tell the enabled regions that endpoint `e` may use from
`key`, unless it is their key, and from each other. -/
def unambiguous (d : Domain) (e : EpId) (key : MrKey) : Prop :=
  ∀ i, d.matches e key i → (d.mr i).fullKey = key ∧ ∀ j, d.matches e key j → j = i

/-- After every history of operations, a request whose key is unambiguous resolves to the
enabled region with that full key (to none where the region is restricted to another job),
and to none where no enabled region has it. -/
theorem key_resolves (n : Nat) (pos : 0 < n) (small : n ≤ 2 ^ 48) (ops : List MrOp) (e : EpId)
    (key : MrKey) (job : JobId) (hun : unambiguous (ops.foldl MrOp.apply (Domain.init n pos small)) e key) :
    let d := ops.foldl MrOp.apply (Domain.init n pos small)
    (∀ i, (d.mr i).state = .enabled → (d.mr i).reachable e = true → (d.mr i).fullKey = key →
      getMrDesc d e key job = if (d.mr i).allowsJob job then some i else none) ∧
    ((∀ i, (d.mr i).state = .enabled → (d.mr i).fullKey ≠ key) → getMrDesc d e key job = none) := by
  intro d
  have h : DomainOk d := (domainOk_init n pos small).run ops
  constructor
  · intro i hs hr hk
    have hm : d.matches e key i := ⟨hs, hr, by rw [hk]⟩
    obtain ⟨j, hj, hmj⟩ := h.mrLookup_of_matches hm
    have hji : j = i := (hun i hm).2 j hmj
    subst hji
    simp only [getMrDesc, hj, hr, Bool.true_and]
  · intro hno
    cases hg : getMrDesc d e key job with
    | none => rfl
    | some i =>
      have hm := (h.getMrDesc_some hg).1
      exact absurd (hun i hm).1 (hno i hm.1)

def userReg (key : MrKey) : RegReq :=
  { region := ⟨⟨.contig 1000, 64, by decide⟩, 0⟩, access := ⟨true, true, true⟩,
    requestedKey := key, userKey := true, job := none, context := 0 }

def eightRegions : Domain := .init 8 (by decide) (by decide)

/-- A region of the domain, then one bound to endpoint 0, under user key 5. -/
def twoFives : List MrOp :=
  [.reg (userReg 5), .enable 0, .reg (userReg 5), .bind 0 1, .enable 1]

/-- The key is compared in its lookup bits only and nothing keeps them apart: a key that no
region has resolves to the one with key 5, and the key of a region to another region. -/
theorem key_aliased :
    let d1 := (twoFives.take 2).foldl MrOp.apply (Domain.init 8 (by decide) (by decide))
    let d2 := twoFives.foldl MrOp.apply (Domain.init 8 (by decide) (by decide))
    ((∀ i, (d1.mr i).state = .enabled → (d1.mr i).fullKey ≠ 0x4000000000000005) ∧
      getMrDesc d1 0 0x4000000000000005 0 = some 0) ∧
    ((d2.mr 0).state = .enabled ∧ (d2.mr 0).reachable 0 = true ∧ (d2.mr 0).fullKey = 5 ∧
      getMrDesc d2 0 5 0 = some 1) := by
  intro d1 d2
  refine ⟨⟨fun i hs => ?_, by decide +kernel⟩, by decide +kernel, by decide +kernel,
    by decide +kernel, by decide +kernel⟩
  cases i with
  | zero => decide +kernel
  | succ i => exact nomatch (show MrState.inactive = .enabled from hs)

/-- With the region of the domain alone, its key resolves to it. -/
theorem key_resolves_five :
    let d := (twoFives.take 2).foldl MrOp.apply (Domain.init 8 (by decide) (by decide))
    getMrDesc d 0 5 0 = some 0 := by
  intro d
  have hone : ∀ i, d.matches 0 5 i → i = 0 := fun i hi => by
    cases i with
    | zero => rfl
    | succ i => exact nomatch (show MrState.inactive = .enabled from hi.1)
  have hun : unambiguous d 0 5 := fun i hi => by
    obtain rfl := hone i hi
    exact ⟨by decide +kernel, hone⟩
  exact (key_resolves 8 (by decide) (by decide) (twoFives.take 2) 0 5 0 hun).1 0
    (by decide +kernel) (by decide +kernel) (by decide +kernel)

/-- Whatever has been called and whatever the key, a request only gets a region that is enabled, that its endpoint and its
job may use, and that has the bits of the key. -/
theorem found_region_allowed (n : {n // 0 < n ∧ n ≤ 2 ^ 48}) (ops : List MrOp) (e : EpId) (key : MrKey) (job : JobId) :
    let d := ops.foldl MrOp.apply (.init n.1 n.2.1 n.2.2)
    match getMrDesc d e key job with
    | none => True
    | some i => d.matches e key i ∧ (d.mr i).allowsJob job = true := by
  intro d
  split
  · trivial
  · rename_i hg
    exact ((domainOk_init n.1 n.2.1 n.2.2).run ops).getMrDesc_some hg

end Uet.Ses
