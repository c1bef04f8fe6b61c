import MddProxy.Interleaving.Runs
import Mathlib.Order.Basic
import Mathlib.Data.Nat.Basic

/-!
# Runs that come to rest

A machine whose every step lowers a measure cannot run for ever: the measure of a state
bounds the length of every run from it, and each state leads to one in which no step is
left. The measure may rely on an invariant.
-/
namespace Interleaving

variable {σ α : Type*}

inductive Steps (step : σ → α → Option σ) (ok : σ → α → Prop) (s₀ : σ) : ℕ → σ → Prop
  | refl : Steps step ok s₀ 0 s₀
  | tail {n : ℕ} {s s' : σ} {a : α} :
      Steps step ok s₀ n s → ok s a → step s a = some s' → Steps step ok s₀ (n + 1) s'

/-- The guard admits no step. -/
def Rests (step : σ → α → Option σ) (ok : σ → α → Prop) (s : σ) : Prop :=
  ∀ a, ok s a → step s a = none

/-- Every admitted step keeps `I` and lowers `m`. -/
structure Lowers (step : σ → α → Option σ) (ok : σ → α → Prop) (I : σ → Prop)
    (m : σ → ℕ) : Prop where
  keeps : ∀ s a s', I s → ok s a → step s a = some s' → I s'
  lowers : ∀ s a s', I s → ok s a → step s a = some s' → m s' < m s

variable {step : σ → α → Option σ} {ok : σ → α → Prop} {I : σ → Prop} {m : σ → ℕ} {s t : σ}
  {n : ℕ}

theorem Lowers.length_le (hl : Lowers step ok I m) (hi : I s) (h : Steps step ok s n t) :
    n + m t ≤ m s := by
  suffices hboth : I t ∧ n + m t ≤ m s from hboth.2
  induction h with
  | refl => exact ⟨hi, Nat.le_of_eq (Nat.zero_add _)⟩
  | tail _ hok hs ih =>
    obtain ⟨hi', hle⟩ := ih
    have hlt := hl.lowers _ _ _ hi' hok hs
    exact ⟨hl.keeps _ _ _ hi' hok hs, by omega⟩

/-- Each state leads to one at rest. -/
theorem Lowers.exists_rest (hl : Lowers step ok I m) (hi : I s) :
    ∃ t, Reaches step ok s t ∧ I t ∧ Rests step ok t := by
  induction hn : m s using Nat.strong_induction_on generalizing s with
  | _ n ih =>
    by_cases hrest : Rests step ok s
    · exact ⟨s, .refl, hi, hrest⟩
    · unfold Rests at hrest
      push Not at hrest
      obtain ⟨a, hok, hne⟩ := hrest
      obtain ⟨s', hs⟩ := Option.ne_none_iff_exists'.mp hne
      have hlt := hl.lowers s a s' hi hok hs
      obtain ⟨t, ht, hI, hr⟩ := ih (m s') (hn ▸ hlt) (hl.keeps s a s' hi hok hs) rfl
      exact ⟨t, .head hok hs ht, hI, hr⟩

inductive Counted (step : σ → α → Option σ) (ok marked : σ → α → Prop) (s₀ : σ) : ℕ → σ → Prop
  | refl : Counted step ok marked s₀ 0 s₀
  | other {n : ℕ} {s s' : σ} {a : α} : Counted step ok marked s₀ n s → ok s a → ¬ marked s a →
      step s a = some s' → Counted step ok marked s₀ n s'
  | marked {n : ℕ} {s s' : σ} {a : α} : Counted step ok marked s₀ n s → ok s a → marked s a →
      step s a = some s' → Counted step ok marked s₀ (n + 1) s'

/-- No admitted step raises `m`, and the marked ones lower it. -/
structure Spends (step : σ → α → Option σ) (ok marked : σ → α → Prop) (I : σ → Prop)
    (m : σ → ℕ) : Prop where
  keeps : ∀ s a s', I s → ok s a → step s a = some s' → I s'
  le : ∀ s a s', I s → ok s a → step s a = some s' → m s' ≤ m s
  lt : ∀ s a s', I s → ok s a → marked s a → step s a = some s' → m s' < m s

variable {marked : σ → α → Prop}

/-- A run takes no more marked steps than its measure drops. -/
theorem Spends.count_le (hp : Spends step ok marked I m) (hi : I s)
    (h : Counted step ok marked s n t) : n + m t ≤ m s := by
  suffices hboth : I t ∧ n + m t ≤ m s from hboth.2
  induction h with
  | refl => exact ⟨hi, Nat.le_of_eq (Nat.zero_add _)⟩
  | other _ hok _ hs ih =>
    obtain ⟨hi', hle⟩ := ih
    have hsame := hp.le _ _ _ hi' hok hs
    exact ⟨hp.keeps _ _ _ hi' hok hs, by omega⟩
  | marked _ hok hmarked hs ih =>
    obtain ⟨hi', hle⟩ := ih
    have hlt := hp.lt _ _ _ hi' hok hmarked hs
    exact ⟨hp.keeps _ _ _ hi' hok hs, by omega⟩

theorem Spends.lowers {some : σ → α → Prop} (hp : Spends step ok marked I m)
    (hsome : ∀ s a, some s a → ok s a ∧ marked s a) : Lowers step some I m where
  keeps s a s' hi h hs := hp.keeps s a s' hi (hsome s a h).1 hs
  lowers s a s' hi h hs := hp.lt s a s' hi (hsome s a h).1 (hsome s a h).2 hs

end Interleaving
