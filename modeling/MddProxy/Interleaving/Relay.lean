import MddProxy.Interleaving.Runs
import Mathlib.Data.List.Infix

/-!
# A relay with several outputs

The purpose of a component that copies one input to several outputs in order:
each output has passed on some number of items, and what has come out of it is
that many items from the front of the input.
-/
namespace Interleaving

variable {α : Type*}

/-- The input so far, and how many items each output has passed on. -/
structure Relay (α : Type*) where
  arrived : List α
  sent : List ℕ

namespace Relay

/-- An item arrives, or output `i` passes on its next item. -/
inductive Label (α : Type*) where
  | arrive (a : α)
  | forward (i : ℕ)

def step (r : Relay α) : Label α → Option (Relay α)
  | .arrive a => some { r with arrived := r.arrived ++ [a] }
  | .forward i => r.sent[i]?.bind fun n =>
    if n < r.arrived.length then some { r with sent := r.sent.set i (n + 1) } else none

def initial (outputs : ℕ) : Relay α where
  arrived := []
  sent := List.replicate outputs 0

def outputs (r : Relay α) : List (List α) := r.sent.map r.arrived.take

variable {r : Relay α}

theorem step_forward {i n : ℕ} (hi : r.sent[i]? = some n) (hlt : n < r.arrived.length) :
    r.step (.forward i) = some { r with sent := r.sent.set i (n + 1) } := by
  simp [step, hi, hlt]

/-- **Outputs are in order**: each one is a prefix of the input. -/
theorem outputs_prefix (r : Relay α) : ∀ t ∈ r.outputs, t <+: r.arrived := by
  intro t ht
  obtain ⟨n, -, rfl⟩ := List.mem_map.mp ht
  exact List.take_prefix n r.arrived

theorem length_sent_step {l : Label α} {r' : Relay α} (hs : r.step l = some r') :
    r'.sent.length = r.sent.length := by
  cases l with
  | arrive a =>
    obtain rfl := Option.some.inj hs
    rfl
  | forward i =>
    obtain ⟨n, -, hs⟩ := Option.bind_eq_some_iff.mp hs
    split_ifs at hs with hlt
    obtain rfl := Option.some.inj hs
    exact List.length_set

theorem length_outputs {n : ℕ} (h : Reaches step anyStep (initial n : Relay α) r) :
    r.outputs.length = n := by
  rw [outputs, List.length_map]
  exact h.invariant (I := fun r => r.sent.length = n) (by simp [initial])
    fun _ _ _ hi _ hs => (length_sent_step hs).trans hi

end Relay
end Interleaving
