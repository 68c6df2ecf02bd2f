import Mathlib

/-!
# Runs under a condition

A system is a step function, and a run of it is a fold. `Meets` says that each step of a run is
taken in a state where a condition on the state and the event holds; what such steps preserve
holds in the state that the run reaches.
-/

namespace Uet.Guarded

variable {S E : Type*} {step : S → E → S} {C : S → E → Prop}

def Meets (step : S → E → S) (C : S → E → Prop) (s : S) : List E → Prop
  | [] => True
  | ev :: evs => C s ev ∧ Meets step C (step s ev) evs

instance instDecidableMeets [∀ s ev, Decidable (C s ev)] :
    (s : S) → (evs : List E) → Decidable (Meets step C s evs)
  | _, [] => .isTrue trivial
  | s, ev :: evs => @instDecidableAnd _ _ _ (instDecidableMeets (step s ev) evs)

theorem meets_append {s : S} {evs evs' : List E} : Meets step C s (evs ++ evs') ↔
    Meets step C s evs ∧ Meets step C (evs.foldl step s) evs' := by
  induction evs generalizing s with
  | nil => exact (iff_of_eq (true_and _)).symm
  | cons ev evs ih =>
    rw [List.cons_append, Meets, ih, Meets, and_assoc]
    rfl

theorem foldl_rel {R : S → S → Prop} (hrefl : ∀ s, R s s) (htrans : ∀ {a b c}, R a b → R b c → R a c)
    (hstep : ∀ s ev, R s (step s ev)) (evs : List E) (s : S) : R s (evs.foldl step s) := by
  induction evs generalizing s with
  | nil => exact hrefl s
  | cons _ _ ih => exact htrans (hstep ..) (ih (step ..))

theorem Meets.keep {P : S → Prop} (hstep : ∀ s ev, P s → C s ev → P (step s ev)) {s : S}
    {evs : List E} (h : P s) (hrun : Meets step C s evs) : P (evs.foldl step s) := by
  induction evs generalizing s with
  | nil => exact h
  | cons ev evs ih => exact ih (hstep s ev h hrun.1) hrun.2

end Uet.Guarded
