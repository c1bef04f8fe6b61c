import Mathlib.Data.Option.Basic
import Mathlib.Tactic.Common

/-!
# Guarded runs of a partial machine

A machine is a partial step function on labels: a label that is not enabled in
a state has no successor. A run is judged by a guard on the state before each
step, so that "every run whose steps all meet a condition" is one inductive
predicate and each invariant is proved once, for one step.
-/
namespace Interleaving

variable {σ α τ β : Type*}

/-- States reached from `s₀` by steps that all meet the guard `ok`. -/
inductive Reaches (step : σ → α → Option σ) (ok : σ → α → Prop) (s₀ : σ) : σ → Prop
  | refl : Reaches step ok s₀ s₀
  | tail {s s' : σ} {a : α} :
      Reaches step ok s₀ s → ok s a → step s a = some s' → Reaches step ok s₀ s'

/-- The guard that admits every step. -/
abbrev anyStep : σ → α → Prop := fun _ _ => True

variable {step : σ → α → Option σ} {ok ok' : σ → α → Prop} {s₀ s t : σ}

/-- The invariant rule: one step at a time. -/
theorem Reaches.invariant {I : σ → Prop} (h : Reaches step ok s₀ s) (h₀ : I s₀)
    (hstep : ∀ s a s', I s → ok s a → step s a = some s' → I s') : I s := by
  induction h with
  | refl => exact h₀
  | tail _ hok hs ih => exact hstep _ _ _ ih hok hs

theorem Reaches.mono (himp : ∀ s a, ok s a → ok' s a) (h : Reaches step ok s₀ s) :
    Reaches step ok' s₀ s := by
  induction h with
  | refl => exact .refl
  | tail _ hok hs ih => exact .tail ih (himp _ _ hok) hs

theorem Reaches.mono_of_invariant {I : σ → Prop} (h : Reaches step ok s₀ s) (h₀ : I s₀)
    (hstep : ∀ s a s', I s → ok s a → step s a = some s' → I s')
    (himp : ∀ s a, I s → ok s a → ok' s a) : Reaches step ok' s₀ s := by
  suffices hboth : I s ∧ Reaches step ok' s₀ s from hboth.2
  induction h with
  | refl => exact ⟨h₀, .refl⟩
  | tail _ hok hs ih => exact ⟨hstep _ _ _ ih.1 hok hs, .tail ih.2 (himp _ _ ih.1 hok) hs⟩

/-- Where a step keeps a property exactly when the guard admits it, the property says that
there is a run under the guard. -/
theorem Reaches.iff_guarded {I P : σ → Prop} (h : Reaches step anyStep s₀ s) (h₀ : I s₀)
    (hp₀ : P s₀) (hinv : ∀ s a s', I s → step s a = some s' → I s')
    (hstep : ∀ s a s', I s → step s a = some s' → (P s' ↔ P s ∧ ok s a)) :
    P s ↔ Reaches step ok s₀ s := by
  constructor
  · suffices hboth : I s ∧ (P s → Reaches step ok s₀ s) from hboth.2
    induction h with
    | refl => exact ⟨h₀, fun _ => .refl⟩
    | tail _ _ hs ih =>
      obtain ⟨hi, hrun⟩ := ih
      refine ⟨hinv _ _ _ hi hs, fun hp => ?_⟩
      obtain ⟨hbefore, hok⟩ := (hstep _ _ _ hi hs).mp hp
      exact .tail (hrun hbefore) hok hs
  · intro hrun
    have hboth : I s ∧ P s := by
      apply hrun.invariant (I := fun s => I s ∧ P s) ⟨h₀, hp₀⟩
      rintro s a s' ⟨hi, hp⟩ hok hs
      exact ⟨hinv _ _ _ hi hs, (hstep _ _ _ hi hs).mpr ⟨hp, hok⟩⟩
    exact hboth.2

theorem Reaches.trans (h : Reaches step ok s₀ s) (h' : Reaches step ok s t) :
    Reaches step ok s₀ t := by
  induction h' with
  | refl => exact h
  | tail _ hok hs ih => exact .tail ih hok hs

theorem Reaches.single {a : α} (hok : ok s a) (hs : step s a = some t) : Reaches step ok s t :=
  .tail .refl hok hs

theorem Reaches.head {u : σ} {a : α} (hok : ok s a) (hs : step s a = some t)
    (h : Reaches step ok t u) : Reaches step ok s u :=
  (Reaches.single hok hs).trans h

/-- Run a schedule, refusing a label that the guard rejects or that is not enabled. -/
def runChecked (step : σ → α → Option σ) (ok : σ → α → Prop) [∀ s a, Decidable (ok s a)] :
    σ → List α → Option σ
  | s, [] => some s
  | s, a :: as => if ok s a then (step s a).bind fun s' => runChecked step ok s' as else none

theorem Reaches.of_runChecked [∀ s a, Decidable (ok s a)] :
    ∀ {as : List α} {s t : σ}, runChecked step ok s as = some t → Reaches step ok s t
  | [], s, t, h => by
    obtain rfl : s = t := by simpa [runChecked] using h
    exact .refl
  | a :: as, s, t, h => by
    by_cases hok : ok s a
    · simp only [runChecked, if_pos hok, Option.bind_eq_some_iff] at h
      obtain ⟨s', hs, ht⟩ := h
      exact .head hok hs (Reaches.of_runChecked ht)
    · simp [runChecked, hok] at h

/-- A schedule whose final state satisfies `P` reaches a state that does. -/
theorem exists_reaches_of_runChecked [∀ s a, Decidable (ok s a)] {P : σ → Prop}
    [DecidablePred P] (as : List α)
    (h : ((runChecked step ok s₀ as).any fun s => decide (P s)) = true) :
    ∃ s, Reaches step ok s₀ s ∧ P s := by
  cases hs : runChecked step ok s₀ as with
  | none => simp [hs] at h
  | some s => exact ⟨s, .of_runChecked hs, by simpa [hs] using h⟩

/-- Forward simulation: if each guarded step is matched by a run of `step'` that
restores the relation `R`, every reached state is related to a reached one. -/
theorem Reaches.simulation {step' : τ → β → Option τ} {okT : τ → β → Prop} {R : σ → τ → Prop}
    {t₀ : τ} (h : Reaches step ok s₀ s) (h₀ : R s₀ t₀)
    (hstep : ∀ s a s' t, R s t → ok s a → step s a = some s' →
      ∃ t', Reaches step' okT t t' ∧ R s' t') :
    ∃ t, Reaches step' okT t₀ t ∧ R s t := by
  induction h with
  | refl => exact ⟨t₀, .refl, h₀⟩
  | tail _ hok hs ih =>
    obtain ⟨t, ht, hR⟩ := ih
    obtain ⟨t', ht', hR'⟩ := hstep _ _ _ t hR hok hs
    exact ⟨t', ht.trans ht', hR'⟩

end Interleaving
