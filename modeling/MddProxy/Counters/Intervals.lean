import Mathlib.Algebra.BigOperators.Group.List.Basic
import Mathlib.Algebra.Order.BigOperators.Group.List
import Mathlib.Algebra.Order.Group.Nat
import Mathlib.Algebra.Ring.Nat
import Mathlib.Tactic.Common

/-!
# Interval counters of bounded width

Amounts are added to a current interval, which is closed from time to time. A counter of
bounded width reads each interval modulo its size `m`. The readings add up to the amounts
exactly when every interval fits.
-/
namespace Counters

/-- The exact amounts: those of the closed intervals, and the one being counted. -/
structure Intervals where
  closed : List ℕ
  current : ℕ
  deriving DecidableEq, Repr

namespace Intervals

def empty : Intervals := ⟨[], 0⟩

def add (t : Intervals) (n : ℕ) : Intervals := { t with current := t.current + n }

def close (t : Intervals) : Intervals := ⟨t.closed ++ [t.current], 0⟩

def total (t : Intervals) : ℕ := t.closed.sum + t.current

def read (m : ℕ) (t : Intervals) : Intervals := ⟨t.closed.map (· % m), t.current % m⟩

def Fits (m : ℕ) (t : Intervals) : Prop := (∀ n ∈ t.closed, n < m) ∧ t.current < m

instance (m : ℕ) (t : Intervals) : Decidable (t.Fits m) := inferInstanceAs (Decidable (_ ∧ _))

variable {m n : ℕ} {t : Intervals}

@[simp] theorem total_empty : empty.total = 0 := rfl

@[simp] theorem total_add : (t.add n).total = t.total + n := by
  simp [total, add, Nat.add_assoc]

@[simp] theorem total_close : t.close.total = t.total := by
  simp [total, close]

@[simp] theorem read_empty : empty.read m = empty := by
  simp [read, empty]

theorem read_add : (t.add n).read m = ⟨(t.read m).closed, ((t.read m).current + n) % m⟩ := by
  simp [read, add]

theorem read_close : t.close.read m = (t.read m).close := by
  simp [read, close]

theorem sum_map_mod_le (l : List ℕ) (m : ℕ) : (l.map (· % m)).sum ≤ l.sum := by
  have h := List.sum_le_sum (l := l) (f := (· % m)) (g := id) fun n _ => Nat.mod_le n m
  rwa [List.map_id] at h

theorem read_total_le (t : Intervals) (m : ℕ) : (t.read m).total ≤ t.total :=
  Nat.add_le_add (sum_map_mod_le t.closed m) (Nat.mod_le t.current m)

theorem sum_map_mod_eq_iff (hm : 0 < m) (l : List ℕ) :
    (l.map (· % m)).sum = l.sum ↔ ∀ n ∈ l, n < m := by
  induction l with
  | nil => simp
  | cons a l ih =>
    have hle : a % m ≤ a := Nat.mod_le a m
    have hles := sum_map_mod_le l m
    rw [List.forall_mem_cons, ← ih, ← Nat.mod_eq_iff_lt hm.ne', List.map_cons, List.sum_cons,
      List.sum_cons]
    omega

/-- **Nothing is lost** exactly when every interval fits. -/
theorem read_total_eq_iff (hm : 0 < m) : (t.read m).total = t.total ↔ t.Fits m := by
  have hle : t.current % m ≤ t.current := Nat.mod_le t.current m
  have hles := sum_map_mod_le t.closed m
  rw [Fits, ← sum_map_mod_eq_iff hm, ← Nat.mod_eq_iff_lt hm.ne']
  simp only [total, read]
  omega

end Intervals
end Counters
