import Mathlib.Algebra.BigOperators.Group.Finset.Basic
import Mathlib.Algebra.GroupWithZero.Nat
import Mathlib.Algebra.Order.BigOperators.Group.List
import Mathlib.Algebra.Order.Group.Nat
import Mathlib.Tactic.Common

/-!
# Weights spread over a table of slots

Invariants that count something over a growing table (threads at some program
point, tokens held somewhere) change at one slot per step. `weigh f l` is the
total weight; overwriting a slot exchanges its old weight for the new one.
-/
namespace Interleaving

variable {α : Type*}

def weigh (f : α → ℕ) (l : List α) : ℕ := (l.map f).sum

@[simp] theorem weigh_nil (f : α → ℕ) : weigh f [] = 0 := rfl

@[simp] theorem weigh_cons (f : α → ℕ) (a : α) (l : List α) :
    weigh f (a :: l) = f a + weigh f l := by simp [weigh]

@[simp] theorem weigh_append (f : α → ℕ) (l l' : List α) :
    weigh f (l ++ l') = weigh f l + weigh f l' := by simp [weigh]

/-- Overwriting slot `i` exchanges its old weight for the new one. -/
theorem weigh_set (f : α → ℕ) {l : List α} {i : ℕ} {a : α} (b : α) (h : l[i]? = some a) :
    weigh f (l.set i b) + f a = weigh f l + f b := by
  induction l generalizing i with
  | nil => simp at h
  | cons c l ih =>
    cases i with
    | zero =>
      obtain rfl : c = a := by simpa using h
      simp only [List.set_cons_zero, weigh_cons]
      omega
    | succ i =>
      have := ih (i := i) (by simpa using h)
      simp only [List.set_cons_succ, weigh_cons]
      omega

theorem sum_update {ι β : Type*} [DecidableEq ι] (f : ι → β → ℕ) {I : Finset ι} (r : ι → β)
    {i : ι} (hi : i ∈ I) (b : β) :
    ∑ j ∈ I, f j (Function.update r i b j) + f i (r i) = ∑ j ∈ I, f j (r j) + f i b := by
  have hnew := Finset.add_sum_erase I (fun j => f j (Function.update r i b j)) hi
  have hold := Finset.add_sum_erase I (fun j => f j (r j)) hi
  have hrest : ∑ j ∈ I.erase i, f j (Function.update r i b j) = ∑ j ∈ I.erase i, f j (r j) := by
    apply Finset.sum_congr rfl
    intro j hj
    rw [Function.update_of_ne (Finset.ne_of_mem_erase hj)]
  simp only [Function.update_self] at hnew
  omega

theorem le_weigh (f : α → ℕ) {l : List α} {i : ℕ} {a : α} (h : l[i]? = some a) :
    f a ≤ weigh f l := by
  apply List.le_sum_of_mem
  exact List.mem_map_of_mem (List.mem_of_getElem? h)

theorem weigh_eq_zero {f : α → ℕ} {l : List α} : weigh f l = 0 ↔ ∀ a ∈ l, f a = 0 := by
  rw [weigh, List.sum_eq_zero_iff_forall_eq_nat, List.forall_mem_map]

theorem getElem?_set_cases {l : List α} {i j : ℕ} {a b : α} (h : (l.set i b)[j]? = some a) :
    (j = i ∧ a = b) ∨ (j ≠ i ∧ l[j]? = some a) := by
  by_cases hij : j = i
  · subst hij
    have hlen := (List.getElem?_eq_some_iff.mp h).1
    rw [List.length_set] at hlen
    rw [List.getElem?_set_self hlen] at h
    exact .inl ⟨rfl, (Option.some.inj h).symm⟩
  · rw [List.getElem?_set_ne (Ne.symm hij)] at h
    exact .inr ⟨hij, h⟩

theorem mem_set_of_mem {l : List α} {i : ℕ} {a b c : α} (ha : a ∈ l) (hi : l[i]? = some c)
    (hne : c ≠ a) : a ∈ l.set i b := by
  obtain ⟨j, hj⟩ := List.getElem?_of_mem ha
  have hij : i ≠ j := by
    rintro rfl
    exact hne (Option.some.inj (hi.symm.trans hj))
  exact List.mem_of_getElem? ((List.getElem?_set_ne hij).trans hj)

theorem forall_mem_set {P : α → Prop} {l : List α} {i : ℕ} {b : α} (h : ∀ a ∈ l, P a)
    (hb : P b) : ∀ a ∈ l.set i b, P a := by
  intro a ha
  rcases List.mem_or_eq_of_mem_set ha with ha | rfl
  · exact h a ha
  · exact hb

end Interleaving
