import Uet.Guarded
import Uet.Sng.Endpoint

/-!
# Stop-and-go between two endpoints

A sending and a receiving endpoint, and a network that keeps the order of packets and may lose any of
them. Requests of other sources reach the receiving endpoint too. The contents of a packet
carry a tag, which the layer does not read: who was submitted, in which turn of the sender
and when. A turn of the sender ends when it takes an ACK.

The sender's turn and what is left of its packets are one line: the ACKs on their way back, the saved
ACK, the requests on their way. Along it turns only grow, and they are never more than one behind
the sender. So 32 bits of PSN are enough to tell them apart. They do not tell apart two
packets of the same turn: a packet that is given up leaves its PSN to the next one. If the target has
taken it, the next packet passes for a duplicate.
-/

namespace Uet.Sng

open List Option

structure Tag where
  no : Nat
  turn : Nat
  sentAt : Nat
  deriving DecidableEq, Repr

structure Tagged (α : Type) where
  tag : Tag
  val : α
  deriving DecidableEq, Repr

/-- Two endpoints, the packets between them, and the clock. The rest is history: how many packets were
submitted, the turns of the sender, the accepted `rx_req` upcalls with the response of each, and
the `rx_rsp` upcalls with the packet and the response. -/
structure Sys (α ρ : Type) where
  ini : Ini (Tagged α)
  tgt : Tgt (Tagged ρ) := {}
  toTgt : List (Req (Tagged α)) := []
  toIni : List (Ack (Tagged ρ)) := []
  now : Nat := 0
  subs : Nat := 0
  turn : Nat := 0
  delivered : List (Tagged ρ) := []
  answered : List (Tag × Tagged ρ) := []
  deriving DecidableEq, Repr

inductive Ev (α ρ : Type) where
  | submit (p : Pkt α) (mem nic : Bool)
  | progress (mem nic : Bool)
  | drop (handle : Option Nat)
  | recvReq (env : RxEnv ρ)
  | recvAck (ok : Bool)
  | other (f : Req (Tagged α)) (env : RxEnv (Tagged ρ))
  | loseReq (i : Nat)
  | loseAck (i : Nat)
  | wait (ms : Nat)
  | closeIni
  | closeTgt
  deriving DecidableEq, Repr

variable {α ρ : Type}

def Pkt.tagged (p : Pkt α) (tag : Tag) : Pkt (Tagged α) := { p with data := ⟨tag, p.data⟩ }

def SesOut.tagged (o : SesOut ρ) (tag : Tag) : SesOut (Tagged ρ) := { o with rsp := ⟨tag, o.rsp⟩ }

def RxEnv.tagged (env : RxEnv ρ) (tag : Tag) : RxEnv (Tagged ρ) :=
  { noEp := env.noEp.map (⟨tag, ·⟩), ses := env.ses.tagged tag, mem := env.mem, nic := env.nic }

def Sys.nextTag (s : Sys α ρ) : Tag := ⟨s.subs, s.turn, s.now⟩

def Sys.rxReq (c : Cfg) (s : Sys α ρ) (f : Req (Tagged α)) (env : RxEnv ρ) : RxRes (Tagged ρ) :=
  rxReqPkt c s.now s.tgt f (env.tagged f.data.tag)

def step (c : Cfg) (s : Sys α ρ) : Ev α ρ → Sys α ρ
  | .submit p mem nic =>
    let r := txPkt s.ini s.now false (p.tagged s.nextTag) mem nic
    { s with ini := r.2.1, toTgt := s.toTgt ++ r.2.2.toList, subs := s.subs + 1 }
  | .progress mem nic =>
    let r := progressTx c s.ini s.now mem nic
    { s with ini := r.2.1, toTgt := s.toTgt ++ r.2.2.toList }
  | .drop handle => { s with ini := dropTxPkts s.ini handle }
  | .recvReq env =>
    match s.toTgt with
    | [] => s
    | f :: rest =>
      let r := s.rxReq c f env
      { s with
        tgt := r.tgt
        toTgt := rest
        toIni := s.toIni ++ r.sent.toList
        delivered := s.delivered ++ ((r.upcall.filter SesOut.accepts).map SesOut.rsp).toList }
  | .recvAck ok =>
    match s.toIni with
    | [] => s
    | a :: rest =>
      let r := rxAckPkt s.ini a ok
      { s with
        ini := r.1
        toIni := rest
        turn := if r.2.isSome && ok then s.turn + 1 else s.turn
        answered := s.answered ++ (r.2.map fun u => (u.1.data.tag, u.2)).toList }
  | .other f env => { s with tgt := (rxReqPkt c s.now s.tgt f env).tgt }
  | .loseReq i => { s with toTgt := s.toTgt.eraseIdx i }
  | .loseAck i => { s with toIni := s.toIni.eraseIdx i }
  | .wait ms => { s with now := s.now + ms }
  | .closeIni => { s with ini := { s.ini with closeWait := true } }
  | .closeTgt => { s with tgt := { s.tgt with closeWait := true } }

/-! ## What is left of a packet -/

structure Trace where
  tag : Tag
  psn : BitVec 32
  msgId : Nat
  deriving DecidableEq, Repr

def Req.trace (f : Req (Tagged α)) : Trace := ⟨f.data.tag, f.psn, f.msgId⟩

def Ack.trace (a : Ack (Tagged ρ)) : Trace := ⟨a.rsp.tag, a.cackPsn, a.msgId⟩

def AckState.trace (a : AckState (Tagged ρ)) : Trace := a.ack.trace

def Sys.saved (s : Sys α ρ) : List (AckState (Tagged ρ)) := savedFor s.ini.src s.tgt.ackStateList

def Sys.traces (s : Sys α ρ) : List Trace :=
  s.toIni.map Ack.trace ++ s.saved.map AckState.trace ++ s.toTgt.map Req.trace

/-! ## Conditions -/

/-- The setting: requests find the endpoint, they arrive within the lifetime of a segment, and other
sources are others. -/
def InScope (c : Cfg) (s : Sys α ρ) : Ev α ρ → Prop
  | .recvReq env => env.noEp = none ∧ ∀ f ∈ s.toTgt.head?, s.now ≤ f.data.tag.sentAt + c.msl
  | .other f _ => f.src ≠ s.ini.src
  | _ => True

/-- A packet that gets a PSN is not of a message of which an earlier packet had the PSN and has not
vanished; and the ACK of an accepted packet is allocated and taken by the NIC. -/
def Careful (c : Cfg) (s : Sys α ρ) : Ev α ρ → Prop
  | .submit p _ _ =>
    s.ini.tx.txActive = false → ∀ t ∈ s.traces, t.psn = s.ini.tx.psn → t.msgId ≠ p.msgId
  | .recvReq env =>
    ∀ f ∈ s.toTgt.head?, ∀ o ∈ (s.rxReq c f env).upcall, o.accepts = true →
      env.mem = true ∧ env.nic = true
  | _ => True

def Met (c : Cfg) (s : Sys α ρ) (ev : Ev α ρ) : Prop := InScope c s ev ∧ Careful c s ev

instance (c : Cfg) (s : Sys α ρ) (ev : Ev α ρ) : Decidable (InScope c s ev) := by
  unfold InScope
  split <;> infer_instance

instance (c : Cfg) (s : Sys α ρ) (ev : Ev α ρ) : Decidable (Careful c s ev) := by
  unfold Careful
  split <;> infer_instance

instance (c : Cfg) (s : Sys α ρ) (ev : Ev α ρ) : Decidable (Met c s ev) :=
  inferInstanceAs (Decidable (InScope c s ev ∧ Careful c s ev))

/-! ## One line of turns -/

theorem turn_eq_of_psn {i j n : Nat} (hi : i ≤ n ∧ n ≤ i + 1) (hj : j ≤ n ∧ n ≤ j + 1)
    (h : BitVec.ofNat 32 i = BitVec.ofNat 32 j) : i = j := by
  have h' := congrArg BitVec.toNat h
  rw [BitVec.toNat_ofNat, BitVec.toNat_ofNat] at h'
  omega

structure Flow (n : Nat) (l : List Trace) : Prop where
  psn : ∀ t ∈ l, t.psn = .ofNat 32 t.tag.turn
  order : l.Pairwise fun t u => t.tag.turn ≤ u.tag.turn
  near : ∀ t ∈ l, t.tag.turn ≤ n ∧ n ≤ t.tag.turn + 1

namespace Flow

variable {n : Nat} {l r : List Trace} {t u : Trace}

theorem nil : Flow n [] := ⟨by simp, .nil, by simp⟩

theorem sublist (h : Flow n l) (hs : r.Sublist l) : Flow n r where
  psn t ht := h.psn t (hs.subset ht)
  order := h.order.sublist hs
  near t ht := h.near t (hs.subset ht)

theorem turn_eq (h : Flow n l) (ht : t ∈ l) (hu : u ∈ l) (hpsn : t.psn = u.psn) :
    t.tag.turn = u.tag.turn := by
  rw [h.psn t ht, h.psn u hu] at hpsn
  exact turn_eq_of_psn (h.near t ht) (h.near u hu) hpsn

theorem turn_eq_now (h : Flow n l) (ht : t ∈ l) (hpsn : t.psn = .ofNat 32 n) : t.tag.turn = n := by
  rw [h.psn t ht] at hpsn
  exact turn_eq_of_psn (h.near t ht) ⟨Nat.le_refl n, Nat.le_succ n⟩ hpsn

theorem snoc (h : Flow n l) (ht : t.tag.turn = n) (hpsn : t.psn = .ofNat 32 n) : Flow n (l ++ [t]) where
  psn u hu := by
    rcases mem_append.1 hu with hu | hu
    · exact h.psn u hu
    · rw [mem_singleton.1 hu, hpsn, ht]
  order := by
    refine pairwise_append.2 ⟨h.order, pairwise_singleton _ _, fun u hu v hv => ?_⟩
    rw [mem_singleton.1 hv, ht]
    exact (h.near u hu).1
  near u hu := by
    rcases mem_append.1 hu with hu | hu
    · exact h.near u hu
    · rw [mem_singleton.1 hu, ht]
      exact ⟨Nat.le_refl n, Nat.le_succ n⟩

theorem swap (h : Flow n (l ++ t :: r)) (hturn : u.tag.turn = t.tag.turn) (hpsn : u.psn = t.psn) :
    Flow n (l ++ u :: r) := by
  have hmem : t ∈ l ++ t :: r := mem_append_right _ mem_cons_self
  have hother : ∀ v ∈ l ++ u :: r, v = u ∨ v ∈ l ++ t :: r := by
    intro v hv
    rcases mem_append.1 hv with hv | hv
    · exact .inr (mem_append_left _ hv)
    · exact (mem_cons.1 hv).imp id fun hv => mem_append_right _ (mem_cons_of_mem _ hv)
  refine ⟨fun v hv => ?_, ?_, fun v hv => ?_⟩
  · rcases hother v hv with rfl | hv
    · rw [hpsn, hturn]
      exact h.psn t hmem
    · exact h.psn v hv
  · obtain ⟨hl, hr, hlr⟩ := pairwise_append.1 h.order
    obtain ⟨htr, hr⟩ := pairwise_cons.1 hr
    refine pairwise_append.2 ⟨hl, pairwise_cons.2 ⟨fun v hv => ?_, hr⟩, fun v hv w hw => ?_⟩
    · rw [hturn]
      exact htr v hv
    · rcases mem_cons.1 hw with rfl | hw
      · rw [hturn]
        exact hlr v hv t mem_cons_self
      · exact hlr v hv w (mem_cons_of_mem _ hw)
  · rcases hother v hv with rfl | hv
    · rw [hturn]
      exact h.near t hmem
    · exact h.near v hv

theorem double (h : Flow n (l ++ t :: r)) : Flow n (l ++ t :: t :: r) := by
  have hsub : ∀ v ∈ l ++ t :: t :: r, v ∈ l ++ t :: r := by
    intro v hv
    simp only [mem_append, mem_cons] at hv ⊢
    tauto
  refine ⟨fun v hv => h.psn v (hsub v hv), ?_, fun v hv => h.near v (hsub v hv)⟩
  obtain ⟨hl, hr, hlr⟩ := pairwise_append.1 h.order
  have htr := (pairwise_cons.1 hr).1
  refine pairwise_append.2 ⟨hl, pairwise_cons.2 ⟨fun v hv => ?_, hr⟩, fun v hv w hw => ?_⟩
  · rcases mem_cons.1 hv with rfl | hv
    · exact Nat.le_refl _
    · exact htr v hv
  · rcases mem_cons.1 hw with rfl | hw
    · exact hlr v hv w mem_cons_self
    · exact hlr v hv w hw

theorem advance (h : Flow n (t :: l)) (ht : t.tag.turn = n) : Flow (n + 1) l := by
  refine ⟨fun u hu => h.psn u (mem_cons_of_mem _ hu), (pairwise_cons.1 h.order).2, ?_⟩
  intro u hu
  have hge := (pairwise_cons.1 h.order).1 u hu
  have hle := (h.near u (mem_cons_of_mem _ hu)).1
  omega

end Flow

/-! ## The invariant -/

structure Owns (s : Sys α ρ) (p : Pkt (Tagged α)) : Prop where
  turn : p.data.tag.turn = s.turn
  past : p.data.tag.sentAt ≤ s.now
  own : ∀ t ∈ s.traces, t.tag.turn = s.turn → t.msgId = p.msgId → t.tag = p.data.tag

/-- An accepted packet will not be accepted again: an ACK of its turn is saved, or its time is over, or
the sender and all that it has on the way are in a later turn. -/
def Settled (c : Cfg) (s : Sys α ρ) (tag : Tag) : Prop :=
  (∃ a ∈ s.saved, a.trace.tag.turn = tag.turn) ∨ tag.sentAt + c.msl < s.now ∨
  (tag.turn < s.turn ∧ ∀ f ∈ s.toTgt, tag.turn < f.trace.tag.turn)

structure Inv (c : Cfg) (s : Sys α ρ) : Prop where
  psn : s.ini.tx.psn = .ofNat 32 s.turn
  src : ∀ f ∈ s.toTgt, f.src = s.ini.src
  flow : Flow s.turn s.traces
  past : ∀ f ∈ s.toTgt, f.data.tag.sentAt ≤ s.now
  before : ∀ d ∈ s.delivered, d.tag.sentAt ≤ s.now
  one : s.saved.length ≤ 1
  acks : ∀ a ∈ s.toIni, a.rsp ∈ s.delivered
  saves : ∀ a ∈ s.saved, a.ack.rsp ∈ s.delivered ∧ ∀ d ∈ s.delivered, d.tag.sentAt ≤ a.ackTime
  active : s.ini.tx.txActive = true → ∃ p, s.ini.tx.pktParms = some p ∧ Owns s p
  settled : ∀ d ∈ s.delivered, Settled c s d.tag
  once : (s.delivered.map Tagged.tag).Nodup
  answered : ∀ r ∈ s.answered, r.2 ∈ s.delivered ∧ r.2.tag = r.1

variable {p : Pkt (Tagged α)}

theorem Owns.of_subset {s s' : Sys α ρ} (h : Owns s p) (hturn : s'.turn = s.turn)
    (hnow : s.now ≤ s'.now) (hsub : ∀ t ∈ s'.traces, t ∈ s.traces ∨ t.tag = p.data.tag) : Owns s' p where
  turn := h.turn.trans hturn.symm
  past := Nat.le_trans h.past hnow
  own t ht hnow hmsg := by
    rw [hturn] at hnow
    rcases hsub t ht with ht | ht
    · exact h.own t ht hnow hmsg
    · exact ht

section

variable {c : Cfg} {s : Sys α ρ}

theorem mem_traces_saved {a : AckState (Tagged ρ)} (h : a ∈ s.saved) : a.trace ∈ s.traces :=
  mem_append_left _ (mem_append_right _ (mem_map_of_mem h))

variable {f : Req (Tagged α)} {a : Ack (Tagged ρ)} {rest : List (Req (Tagged α))}

theorem mem_traces_toTgt (h : f ∈ s.toTgt) : f.trace ∈ s.traces :=
  mem_append_right _ (mem_map_of_mem h)

theorem mem_traces_toIni (h : a ∈ s.toIni) : a.trace ∈ s.traces :=
  mem_append_left _ (mem_append_left _ (mem_map_of_mem h))

theorem Inv.sender {e : Ini (Tagged α)} (k : Nat) (h : Inv c s) (hsrc : e.src = s.ini.src)
    (hpsn : e.tx.psn = s.ini.tx.psn) (hact : e.tx.txActive = true → ∃ p, e.tx.pktParms = some p ∧ Owns s p) :
    Inv c { s with ini := e, subs := k } := by
  have hsaved : ({ s with ini := e, subs := k } : Sys α ρ).saved = s.saved := by
    unfold Sys.saved
    rw [hsrc]
  have htraces : ({ s with ini := e, subs := k } : Sys α ρ).traces = s.traces := by
    unfold Sys.traces Sys.saved
    rw [hsrc]
  exact
    { psn := hpsn.trans h.psn
      src := fun f hf => (h.src f hf).trans hsrc.symm
      flow := htraces ▸ h.flow
      past := h.past
      before := h.before
      one := hsaved ▸ h.one
      acks := h.acks
      saves := hsaved ▸ h.saves
      active := fun ha => by
        obtain ⟨p, hp, hown⟩ := hact ha
        exact ⟨p, hp, hown.turn, hown.past, htraces ▸ hown.own⟩
      settled := fun d hd => by
        refine (h.settled d hd).imp (fun ⟨a, ha, hturn⟩ => ⟨a, hsaved ▸ ha, hturn⟩) id
      once := h.once
      answered := h.answered }

section

variable (h : Inv c s)
include h

theorem Inv.send (hparms : s.ini.tx.pktParms = some p) (hown : Owns s p)
    (hsrc : f.src = s.ini.src) (hpsn : f.psn = s.ini.tx.psn) (hdata : f.data = p.data) :
    Inv c { s with toTgt := s.toTgt ++ [f] } := by
  have htraces : ({ s with toTgt := s.toTgt ++ [f] } : Sys α ρ).traces = s.traces ++ [f.trace] := by
    unfold Sys.traces
    rw [map_append, ← append_assoc]
    rfl
  have htag : f.trace.tag = p.data.tag := congrArg Tagged.tag hdata
  have hturn : f.trace.tag.turn = s.turn := by rw [htag]; exact hown.turn
  have hmem : ∀ g ∈ s.toTgt ++ [f], g ∈ s.toTgt ∨ g = f := fun g hg =>
    (mem_append.1 hg).imp id mem_singleton.1
  exact
    { psn := h.psn
      src := fun g hg => by
        rcases hmem g hg with hg | rfl
        · exact h.src g hg
        · exact hsrc
      flow := htraces ▸ h.flow.snoc hturn (hpsn.trans h.psn)
      past := fun g hg => by
        rcases hmem g hg with hg | rfl
        · exact h.past g hg
        · rw [hdata]
          exact hown.past
      before := h.before
      one := h.one
      acks := h.acks
      saves := h.saves
      active := fun _ => by
        refine ⟨p, hparms, hown.of_subset rfl (Nat.le_refl _) fun t ht => ?_⟩
        rw [htraces] at ht
        rcases mem_append.1 ht with ht | ht
        · exact .inl ht
        · rw [mem_singleton.1 ht]
          exact .inr htag
      settled := fun d hd => by
        rcases h.settled d hd with hs | hs | ⟨hlt, hs⟩
        · exact .inl hs
        · exact .inr (.inl hs)
        refine .inr (.inr ⟨hlt, fun g hg => ?_⟩)
        rcases hmem g hg with hg | rfl
        · exact hs g hg
        · rw [hturn]
          exact hlt
      once := h.once
      answered := h.answered }

theorem Inv.thin {t : Tgt (Tagged ρ)} {q : List (Req (Tagged α))} {w : List (Ack (Tagged ρ))} (hq : q.Sublist s.toTgt) (hw : w.Sublist s.toIni)
    (hsub : (savedFor s.ini.src t.ackStateList).Sublist s.saved)
    (hgone : ∀ a ∈ s.saved, a ∈ savedFor s.ini.src t.ackStateList ∨ c.msl < s.now - a.ackTime ∨
      (a.trace.tag.turn < s.turn ∧ ∀ f ∈ q, a.trace.tag.turn < f.trace.tag.turn)) :
    Inv c { s with tgt := t, toTgt := q, toIni := w } := by
  have htraces : ({ s with tgt := t, toTgt := q, toIni := w } : Sys α ρ).traces.Sublist s.traces :=
    ((hw.map _).append (hsub.map _)).append (hq.map _)
  exact
    { psn := h.psn
      src := fun f hf => h.src f (hq.subset hf)
      flow := h.flow.sublist htraces
      past := fun f hf => h.past f (hq.subset hf)
      before := h.before
      one := Nat.le_trans hsub.length_le h.one
      acks := fun a ha => h.acks a (hw.subset ha)
      saves := fun a ha => h.saves a (hsub.subset ha)
      active := fun ha => by
        obtain ⟨p, hp, hown⟩ := h.active ha
        exact ⟨p, hp, hown.of_subset rfl (Nat.le_refl _) fun t ht => .inl (htraces.subset ht)⟩
      settled := fun d hd => by
        rcases h.settled d hd with ⟨a, ha, hturn⟩ | hs | ⟨hlt, hs⟩
        · rcases hgone a ha with hin | hold | ⟨hlt, hlater⟩
          · exact .inl ⟨a, hin, hturn⟩
          · have hsince := (h.saves a ha).2 d hd
            exact .inr (.inl (by dsimp only; omega))
          · rw [hturn] at hlt hlater
            exact .inr (.inr ⟨hlt, hlater⟩)
        · exact .inr (.inl hs)
        · exact .inr (.inr ⟨hlt, fun f hf => hs f (hq.subset hf)⟩)
      once := h.once
      answered := h.answered }

theorem Inv.answer {t : Tgt (Tagged ρ)} {a : AckState (Tagged ρ)} (hq : s.toTgt = f :: rest)
    (hsaved : s.saved = [a]) (hpsn : a.ack.cackPsn = f.psn) (ht : savedFor s.ini.src t.ackStateList = [a]) :
    Inv c { s with tgt := t, toTgt := rest, toIni := s.toIni ++ [a.ack] } := by
  have hmem : a ∈ s.saved := hsaved ▸ mem_singleton_self a
  have hthin : Inv c { s with tgt := t, toTgt := rest, toIni := s.toIni } := by
    refine h.thin ?_ (Sublist.refl _) ?_ fun b hb => .inl ?_
    · rw [hq]
      exact sublist_cons_self f rest
    · rw [ht, hsaved]
    · rwa [ht, ← hsaved]
  have htraces : ({ s with tgt := t, toTgt := rest, toIni := s.toIni ++ [a.ack] } : Sys α ρ).traces =
      (s.toIni.map Ack.trace ++ [a.trace]) ++ a.trace :: rest.map Req.trace := by
    unfold Sys.traces Sys.saved
    rw [ht, map_append, append_assoc _ (List.map AckState.trace [a])]
    rfl
  have hbefore : s.traces = (s.toIni.map Ack.trace ++ [a.trace]) ++ f.trace :: rest.map Req.trace := by
    unfold Sys.traces
    rw [hsaved, hq]
    rfl
  have hturn : a.trace.tag.turn = f.trace.tag.turn :=
    h.flow.turn_eq (mem_traces_saved hmem) (mem_traces_toTgt (hq ▸ mem_cons_self)) hpsn
  have hflow := h.flow
  rw [hbefore] at hflow
  exact
    { hthin with
      flow := htraces ▸ hflow.swap hturn hpsn
      acks := fun b hb => by
        rcases mem_append.1 hb with hb | hb
        · exact h.acks b hb
        · rw [mem_singleton.1 hb]
          exact (h.saves a hmem).1
      active := fun ha => by
        obtain ⟨p, hp, hown⟩ := h.active ha
        refine ⟨p, hp, hown.of_subset rfl (Nat.le_refl _) fun u hu => .inl ?_⟩
        rw [htraces] at hu
        rw [hbefore]
        simp only [mem_append, mem_cons] at hu ⊢
        tauto }

theorem Inv.accept {t : Tgt (Tagged ρ)} {rsp : Tagged ρ} (hq : s.toTgt = f :: rest)
    (hsaved : s.saved = []) (htime : s.now ≤ f.data.tag.sentAt + c.msl) (hrsp : rsp.tag = f.data.tag)
    (ht : savedFor s.ini.src t.ackStateList = [⟨s.now, buildAckPkt f rsp⟩]) :
    Inv c { s with tgt := t, toTgt := rest, toIni := s.toIni ++ [buildAckPkt f rsp]
                   delivered := s.delivered ++ [rsp] } := by
  have hf : f ∈ s.toTgt := hq ▸ mem_cons_self
  have hrest : ∀ g ∈ rest, g ∈ s.toTgt := fun g hg => hq ▸ mem_cons_of_mem f hg
  have htrace : (buildAckPkt f rsp).trace = f.trace := by
    unfold buildAckPkt Ack.trace Req.trace
    rw [hrsp]
  have htraces : ({ s with tgt := t, toTgt := rest, toIni := s.toIni ++ [buildAckPkt f rsp]
                           delivered := s.delivered ++ [rsp] } : Sys α ρ).traces =
      s.toIni.map Ack.trace ++ f.trace :: f.trace :: rest.map Req.trace := by
    unfold Sys.traces Sys.saved
    rw [ht, map_append, map_singleton, map_singleton, htrace]
    unfold AckState.trace
    rw [htrace, append_assoc, append_assoc]
    rfl
  have hbefore : s.traces = s.toIni.map Ack.trace ++ f.trace :: rest.map Req.trace := by
    unfold Sys.traces
    rw [hsaved, hq, map_nil, append_nil]
    rfl
  have hflow := h.flow
  rw [hbefore] at hflow
  -- it was not accepted before: nothing is saved, and the request is there, in time
  have hnew : f.data.tag ∉ s.delivered.map Tagged.tag := by
    intro hin
    obtain ⟨d, hd, hdt⟩ := mem_map.1 hin
    have hset := h.settled d hd
    rw [hdt] at hset
    rcases hset with ⟨a, ha, -⟩ | hold | ⟨-, hlater⟩
    · rw [hsaved] at ha
      cases ha
    · omega
    · exact Nat.lt_irrefl _ (hlater f hf)
  have hmem : ∀ d ∈ s.delivered ++ [rsp], d ∈ s.delivered ∨ d = rsp := fun d hd =>
    (mem_append.1 hd).imp id mem_singleton.1
  have hlater : rsp.tag.sentAt ≤ s.now := by
    rw [hrsp]
    exact h.past f hf
  exact
    { psn := h.psn
      src := fun g hg => h.src g (hrest g hg)
      flow := htraces ▸ hflow.double
      past := fun g hg => h.past g (hrest g hg)
      before := fun d hd => by
        rcases hmem d hd with hd | rfl
        · exact h.before d hd
        · exact hlater
      one := by
        unfold Sys.saved
        rw [ht]
        exact Nat.le_refl 1
      acks := fun a ha => by
        rcases mem_append.1 ha with ha | ha
        · exact mem_append_left _ (h.acks a ha)
        · rw [mem_singleton.1 ha]
          exact mem_append_right _ (mem_singleton_self rsp)
      saves := fun a ha => by
        unfold Sys.saved at ha
        rw [ht] at ha
        rw [mem_singleton.1 ha]
        refine ⟨mem_append_right _ (mem_singleton_self rsp), fun d hd => ?_⟩
        rcases hmem d hd with hd | rfl
        · exact h.before d hd
        · exact hlater
      active := fun ha => by
        obtain ⟨p, hp, hown⟩ := h.active ha
        refine ⟨p, hp, hown.of_subset rfl (Nat.le_refl _) fun u hu => .inl ?_⟩
        rw [htraces] at hu
        rw [hbefore]
        simp only [mem_append, mem_cons] at hu ⊢
        tauto
      settled := fun d hd => by
        rcases hmem d hd with hd | rfl
        · rcases h.settled d hd with ⟨a, ha, -⟩ | hold | ⟨hlt, hlater⟩
          · rw [hsaved] at ha
            cases ha
          · exact .inr (.inl hold)
          · exact .inr (.inr ⟨hlt, fun g hg => hlater g (hrest g hg)⟩)
        · refine .inl ⟨⟨s.now, buildAckPkt f d⟩, ?_, rfl⟩
          unfold Sys.saved
          rw [ht]
          exact mem_singleton_self _
      once := by
        rw [map_append, map_singleton]
        refine nodup_append.2 ⟨h.once, nodup_singleton _, fun x hx y hy => ?_⟩
        rw [mem_singleton.1 hy, hrsp]
        exact fun hxy => hnew (hxy ▸ hx)
      answered := fun r hr => (h.answered r hr).imp (mem_append_left _) id }

theorem Inv.taken (ha : a ∈ s.toIni) (hact : s.ini.tx.txActive = true)
    (hparms : s.ini.tx.pktParms = some p) (hmsg : a.msgId = p.msgId) (hpsn : a.cackPsn = s.ini.tx.psn) :
    a.trace.tag.turn = s.turn ∧ a.rsp ∈ s.delivered ∧ a.rsp.tag = p.data.tag := by
  have hmem := mem_traces_toIni ha
  have hturn : a.trace.tag.turn = s.turn := h.flow.turn_eq_now hmem (hpsn.trans h.psn)
  obtain ⟨p', hp', hown⟩ := h.active hact
  rw [hparms] at hp'
  cases hp'
  exact ⟨hturn, h.acks a ha, hown.own a.trace hmem hturn hmsg⟩

theorem Inv.next {rest : List (Ack (Tagged ρ))} (hq : s.toIni = a :: rest)
    (hturn : a.trace.tag.turn = s.turn) :
    Inv c { s with ini := { s.ini with tx := { s.ini.tx with psn := s.ini.tx.psn + 1, txActive := false } }
                   toIni := rest, turn := s.turn + 1 } := by
  have hbefore : s.traces = a.trace ::
      (rest.map Ack.trace ++ s.saved.map AckState.trace ++ s.toTgt.map Req.trace) := by
    unfold Sys.traces
    rw [hq]
    rfl
  have hflow := h.flow
  rw [hbefore] at hflow
  exact
    { psn := by
        rw [h.psn, BitVec.ofNat_add]
        rfl
      src := h.src
      flow := hflow.advance hturn
      past := h.past
      before := h.before
      one := h.one
      acks := fun b hb => h.acks b (hq ▸ mem_cons_of_mem a hb)
      saves := h.saves
      active := fun hact => by cases hact
      settled := fun d hd => by
        rcases h.settled d hd with hs | hold | ⟨hlt, hlater⟩
        · exact .inl hs
        · exact .inr (.inl hold)
        · exact .inr (.inr ⟨Nat.lt_succ_of_lt hlt, hlater⟩)
      once := h.once
      answered := h.answered }

theorem Inv.note {r : Tag × Tagged ρ} (hin : r.2 ∈ s.delivered) (htag : r.2.tag = r.1) :
    Inv c { s with answered := s.answered ++ [r] } := { h with
    active := fun ha => by
      obtain ⟨p, hp, hown⟩ := h.active ha
      exact ⟨p, hp, hown.turn, hown.past, hown.own⟩
    answered := fun r' hr' => by
      rcases mem_append.1 hr' with hr' | hr'
      · exact h.answered r' hr'
      · rw [mem_singleton.1 hr']
        exact ⟨hin, htag⟩ }

theorem Inv.wait (ms : Nat) : Inv c { s with now := s.now + ms } := { h with
    past := fun f hf => Nat.le_trans (h.past f hf) (Nat.le_add_right _ _)
    before := fun d hd => Nat.le_trans (h.before d hd) (Nat.le_add_right _ _)
    active := fun ha => by
      obtain ⟨p, hp, hown⟩ := h.active ha
      exact ⟨p, hp, hown.turn, Nat.le_trans hown.past (Nat.le_add_right _ _), hown.own⟩
    settled := fun d hd => by
      rcases h.settled d hd with hs | hold | hs
      · exact .inl hs
      · exact .inr (.inl (Nat.lt_of_lt_of_le hold (Nat.le_add_right _ _)))
      · exact .inr (.inr hs) }

/-! ## Every step -/

theorem Inv.txPkt (retx : Bool) (p : Pkt (Tagged α)) (mem nic : Bool) (k : Nat)
    (hown : (s.ini.tx.txActive = true → retx = true) → Owns s p) :
    Inv c { s with ini := (txPkt s.ini s.now retx p mem nic).2.1
                   toTgt := s.toTgt ++ (txPkt s.ini s.now retx p mem nic).2.2.toList, subs := k } := by
  obtain ⟨hsrc, hpsn, hcases⟩ := txPkt_cases s.ini s.now retx p mem nic
  rcases hcases with ⟨hnone, hact, hparms⟩ | ⟨hfree, hact, hparms, f, hf, hfsrc, hfpsn, -, hdata⟩
  · rw [hnone, toList_none, append_nil]
    refine h.sender k hsrc hpsn fun ha => ?_
    rw [hact] at ha
    rcases hparms with hparms | ⟨hfree, hparms⟩
    · rw [hparms]
      exact h.active ha
    · exact ⟨p, hparms, hown hfree⟩
  · have hs := h.sender k hsrc hpsn fun _ => ⟨p, hparms, hown hfree⟩
    obtain ⟨p', hp', hown'⟩ := hs.active hact
    have hpp : p' = p := some.inj (hp'.symm.trans hparms)
    rw [hf]
    exact hs.send hparms (hpp ▸ hown') (hfsrc.trans hsrc.symm) (hfpsn.trans hpsn.symm) hdata

theorem Inv.progressTx (mem nic : Bool) :
    Inv c { s with ini := (progressTx c s.ini s.now mem nic).2.1
                   toTgt := s.toTgt ++ (progressTx c s.ini s.now mem nic).2.2.toList } := by
  unfold Sng.progressTx
  split
  · rename_i p hact hparms
    obtain ⟨p', hp', hown⟩ := h.active hact
    obtain rfl : p' = p := some.inj (hp'.symm.trans hparms)
    split
    · rw [toList_none, append_nil]
      exact h
    split
    · rw [toList_none, append_nil]
      exact h.sender s.subs rfl rfl fun ha => by cases ha
    · let e := { s.ini with tx := { s.ini.tx with retryCnt := s.ini.tx.retryCnt + 1, startTime := s.now } }
      have he : Inv c { s with ini := e } := h.sender s.subs rfl rfl fun _ => ⟨p', hparms, hown⟩
      exact he.txPkt true p' mem nic s.subs fun _ => ⟨hown.turn, hown.past, hown.own⟩
  · rw [toList_none, append_nil]
    exact h

theorem Inv.owns_next {p : Pkt α} (hfresh : ∀ t ∈ s.traces, t.psn = s.ini.tx.psn → t.msgId ≠ p.msgId) :
    Owns s (p.tagged s.nextTag) where
  turn := rfl
  past := Nat.le_refl _
  own t ht hturn hmsg := by
    have hpsn : t.psn = s.ini.tx.psn := by rw [h.flow.psn t ht, hturn, h.psn]
    exact (hfresh t ht hpsn hmsg).elim

theorem Inv.recvReq {env : RxEnv ρ} (hq : s.toTgt = f :: rest) (hno : env.noEp = none)
    (htime : s.now ≤ f.data.tag.sentAt + c.msl)
    (hsent : ∀ o ∈ (s.rxReq c f env).upcall, o.accepts = true → env.mem = true ∧ env.nic = true) : Inv c { s with
      tgt := (s.rxReq c f env).tgt
      toTgt := rest
      toIni := s.toIni ++ (s.rxReq c f env).sent.toList
      delivered := s.delivered ++
        (((s.rxReq c f env).upcall.filter SesOut.accepts).map SesOut.rsp).toList } := by
  have hf : f ∈ s.toTgt := hq ▸ mem_cons_self
  have hsrc : f.src = s.ini.src := h.src f hf
  have hno' : (env.tagged f.data.tag).noEp = none := by
    unfold RxEnv.tagged
    rw [hno]
    rfl
  have hone : (savedFor f.src s.tgt.ackStateList).length ≤ 1 := hsrc ▸ h.one
  have hcases : RxCase s.now s.tgt f (env.tagged f.data.tag) (s.rxReq c f env) :=
    rxReqPkt_cases hno' hone hsent
  -- an ACK with another PSN is of an earlier turn
  have hearlier : (∀ a ∈ s.saved, a.ack.cackPsn ≠ f.psn) →
      ∀ a ∈ s.saved, a.trace.tag.turn < s.turn ∧ ∀ g ∈ s.toTgt, a.trace.tag.turn < g.trace.tag.turn := by
    intro hne a ha
    have hle : ∀ g ∈ s.toTgt, a.trace.tag.turn ≤ g.trace.tag.turn := fun g hg =>
      (pairwise_append.1 h.flow.order).2.2 _
        (mem_append_right _ (mem_map_of_mem ha)) _ (mem_map_of_mem hg)
    have hlt : a.trace.tag.turn < f.trace.tag.turn := by
      refine Nat.lt_of_le_of_ne (hle f hf) fun heq => hne a ha ?_
      change a.trace.psn = f.trace.psn
      rw [h.flow.psn _ (mem_traces_saved ha), h.flow.psn _ (mem_traces_toTgt hf), heq]
    have hmin : ∀ g ∈ s.toTgt, f.trace.tag.turn ≤ g.trace.tag.turn := by
      have horder := (pairwise_append.1 h.flow.order).2.1
      rw [hq, map_cons] at horder
      intro g hg
      rw [hq] at hg
      rcases mem_cons.1 hg with rfl | hg
      · exact Nat.le_refl _
      · exact (pairwise_cons.1 horder).1 _ (mem_map_of_mem hg)
    exact ⟨Nat.lt_of_lt_of_le hlt (h.flow.near _ (mem_traces_toTgt hf)).1, fun g hg =>
      Nat.lt_of_lt_of_le hlt (hmin g hg)⟩
  have hrest : rest.Sublist s.toTgt := by
    rw [hq]
    exact sublist_cons_self f rest
  generalize s.rxReq c f env = r at hcases
  cases hcases with
  | again a found psn stays quiet sent =>
    rw [hsrc] at found stays
    rw [quiet]
    change Inv c { s with tgt := r.tgt, toTgt := rest, toIni := _, delivered := s.delivered ++ [] }
    rw [append_nil]
    rcases hsn : r.sent with _ | b
    · rw [toList_none, append_nil]
      refine h.thin hrest (Sublist.refl _) ?_ fun b hb => .inl ?_
      · rw [stays]
        exact found ▸ Sublist.refl _
      · rw [stays]
        exact found ▸ hb
    · rw [sent b hsn]
      exact h.answer hq found psn stays
  | refused psn gone sent upcall =>
    rw [hsrc] at psn gone
    have hnone : r.upcall.filter SesOut.accepts = none := by
      rcases ho : r.upcall with _ | o
      · rfl
      · rw [filter_some, upcall o ho]
        rfl
    rw [hnone, sent]
    change Inv c { s with tgt := r.tgt, toTgt := rest, toIni := s.toIni ++ [], delivered := s.delivered ++ [] }
    rw [append_nil, append_nil]
    refine h.thin hrest (Sublist.refl _) ?_ fun a ha => .inr (.inr ?_)
    · rw [gone]
      exact nil_sublist _
    · exact (hearlier psn a ha).imp id fun hl g hg => hl g (hrest.subset hg)
  | taken psn saved sent upcall accepts =>
    rw [hsrc] at psn saved
    rw [upcall, sent, filter_some, if_pos accepts]
    have hthin : Inv c { s with tgt := {} } :=
      h.thin (Sublist.refl _) (Sublist.refl _) (nil_sublist _) fun a ha =>
        .inr (.inr (hearlier psn a ha))
    exact hthin.accept hq rfl htime rfl saved

theorem Inv.step {ev : Ev α ρ} (hmet : Met c s ev) : Inv c (step c s ev) := by
  obtain ⟨hscope, hcare⟩ := hmet
  cases ev with
  | submit p mem nic =>
    refine h.txPkt false (p.tagged s.nextTag) mem nic (s.subs + 1) fun hfree => h.owns_next (hcare ?_)
    exact Bool.eq_false_iff.2 fun hact => Bool.false_ne_true (hfree hact)
  | progress => exact h.progressTx ..
  | drop handle =>
    refine h.sender s.subs ?_ ?_ fun ha => ?_
    all_goals unfold dropTxPkts at *
    · split <;> rfl
    · split <;> rfl
    · split at ha
      · cases ha
      · rename_i hkeep
        rw [if_neg hkeep]
        exact h.active ha
  | recvReq env =>
    unfold Sng.step
    rcases hq : s.toTgt with _ | ⟨f, rest⟩
    · exact h
    · have hhead : f ∈ s.toTgt.head? := by rw [hq]; rfl
      exact h.recvReq hq hscope.1 (hscope.2 f hhead) (hcare f hhead)
  | recvAck ok =>
    unfold Sng.step
    rcases hq : s.toIni with _ | ⟨a, rest⟩
    · exact h
    have hrest : rest.Sublist s.toIni := by
      rw [hq]
      exact sublist_cons_self a rest
    have hthin : Inv c { s with toIni := rest } :=
      h.thin (Sublist.refl _) hrest (Sublist.refl _) fun b hb => .inl hb
    dsimp only
    rcases rxAckPkt_cases s.ini a ok with heq | ⟨p, hact, hparms, hmsg, hpsn, heq⟩
    · rw [heq]
      change Inv c { s with toIni := rest, answered := s.answered ++ [] }
      rw [append_nil]
      exact hthin
    · rw [heq]
      have hin : a ∈ s.toIni := hq ▸ mem_cons_self
      obtain ⟨hturn, hdel, htag⟩ := h.taken hin hact hparms hmsg hpsn
      cases ok with
      | false => exact hthin.note hdel htag
      | true => exact (h.next hq hturn).note hdel htag
  | other f env =>
    obtain ⟨hsub, hkeep⟩ := rxReqPkt_other c s.now s.tgt env hscope
    exact h.thin (Sublist.refl _) (Sublist.refl _) hsub fun a ha => (hkeep a ha).imp id .inl
  | loseReq i =>
    exact h.thin (eraseIdx_sublist _ _) (Sublist.refl _) (Sublist.refl _) fun a ha =>
      .inl ha
  | loseAck i =>
    exact h.thin (Sublist.refl _) (eraseIdx_sublist _ _) (Sublist.refl _) fun a ha =>
      .inl ha
  | wait => exact h.wait ..
  | closeIni => exact h.sender s.subs rfl rfl h.active
  | closeTgt =>
    exact h.thin (Sublist.refl _) (Sublist.refl _) (Sublist.refl _) fun a ha => .inl ha

end

theorem inv_init (ini : Ini (Tagged α)) (hini : ini.tx = {}) : Inv c ({ ini } : Sys α ρ) where
  psn := by
    rw [hini]
    rfl
  src := by simp
  flow := .nil
  past := by simp
  before := by simp
  one := Nat.zero_le _
  acks := by simp
  saves := by simp [Sys.saved, savedFor]
  active := by
    rw [hini]
    exact fun hact => by cases hact
  settled := by simp
  once := .nil
  answered := by simp

/-! ## Exactly once -/

/-- In every run that meets the conditions, no packet is accepted twice, and each `rx_rsp` upcall is for a
packet that was accepted and hands over the response that was made for it. -/
theorem exactly_once (c : Cfg) (ini : Ini (Tagged α)) (hini : ini.tx = {}) (evs : List (Ev α ρ))
    (hmet : Guarded.Meets (step c) (Met c) { ini } evs) :
    ((evs.foldl (step c) { ini }).delivered.map Tagged.tag).Nodup ∧
    ∀ r ∈ (evs.foldl (step c) { ini }).answered,
      r.2 ∈ (evs.foldl (step c) { ini }).delivered ∧ r.2.tag = r.1 := by
  have hinv : Inv c (evs.foldl (step c) { ini }) :=
    Guarded.Meets.keep (fun _ _ h hm => h.step hm) (inv_init ini hini) hmet
  exact ⟨hinv.once, hinv.answered⟩

end

section

def oneRetry : Cfg := ⟨5, 1, 2000⟩

def sender : Ini (Tagged Nat) := { src := ⟨1, 0, 0⟩, jobId := 9 }

def pktOf (msgId data : Nat) : Pkt Nat := ⟨7, msgId, 9, .rud, .reqStd, data⟩

def accepted (rsp : Nat) : RxEnv Nat := { ses := ⟨0, false, rsp⟩ }

/-- Two packets of one message. The first is accepted, both of its ACKs are lost, and it is given up. -/
def givenUp : List (Ev Nat Nat) :=
  [.submit (pktOf 5 100) true true, .recvReq (accepted 1), .loseAck 0, .wait 5, .progress true true,
    .recvReq (accepted 1), .loseAck 0, .wait 5, .progress true true,
    .submit (pktOf 5 101) true true, .recvReq (accepted 2), .recvAck true]

/-- The NIC does not take the ACK of an accepted packet. -/
def ackNotSent : List (Ev Nat Nat) :=
  [.submit (pktOf 5 100) true true, .recvReq { accepted 1 with nic := false }, .wait 5,
    .progress true true, .recvReq (accepted 1)]

/-- The second packet is answered with the response to the first and never accepted; and a packet is
accepted twice. -/
theorem passes_for_duplicate :
    (Guarded.Meets (step oneRetry) (InScope oneRetry) { ini := sender } givenUp ∧
      ∃ r ∈ (givenUp.foldl (step oneRetry) { ini := sender }).answered, r.2.tag ≠ r.1 ∧
        r.1 ∉ (givenUp.foldl (step oneRetry) { ini := sender }).delivered.map Tagged.tag) ∧
    Guarded.Meets (step oneRetry) (InScope oneRetry) { ini := sender } ackNotSent ∧
      ¬((ackNotSent.foldl (step oneRetry) { ini := sender }).delivered.map Tagged.tag).Nodup := by
  decide +kernel

/-- A packet with a lost request and a lost ACK, one that SES refuses at first, one that is given up
although it was accepted, and one of another message after it. -/
def careful : List (Ev Nat Nat) :=
  [.submit (pktOf 5 100) true true, .loseReq 0, .wait 5, .progress true true, .recvReq (accepted 1),
    .recvAck true,
    .submit (pktOf 5 101) true true, .recvReq { ses := ⟨0, true, 0⟩ }, .wait 5, .progress true true,
    .recvReq (accepted 2), .recvAck true,
    .submit (pktOf 5 102) true true, .recvReq (accepted 3), .loseAck 0, .drop (some 7),
    .submit (pktOf 6 103) true true, .recvReq (accepted 4), .recvAck true]

theorem exactly_once_careful :
    ((careful.foldl (step oneRetry) { ini := sender }).delivered.map Tagged.val = [1, 2, 3] ∧
      (careful.foldl (step oneRetry) { ini := sender }).answered.length = 2) ∧
    ((careful.foldl (step oneRetry) { ini := sender }).delivered.map Tagged.tag).Nodup ∧
    ∀ r ∈ (careful.foldl (step oneRetry) { ini := sender }).answered,
      r.2 ∈ (careful.foldl (step oneRetry) { ini := sender }).delivered ∧ r.2.tag = r.1 :=
  ⟨by decide +kernel, exactly_once oneRetry sender rfl careful (by decide +kernel)⟩

end

end Uet.Sng
