import MddProxy.Dispatch.Moves

/-!
# Counting threads by program point

`threadsAt P` counts the threads of all workers whose program point satisfies
`P`. A thread that moves exchanges its old point for its new one; a store into a
control slot moves no thread.
-/
namespace MddProxy

open Interleaving

variable {P : RunPc → Bool} {wk wk' : Worker} {k w : ℕ} {pc pc' : RunPc} {heap : List Worker}

/-- How many threads of a worker are at a point satisfying `P`. -/
def Worker.threadsAt (P : RunPc → Bool) (wk : Worker) : ℕ :=
  weigh (fun pc => (P pc).toNat) wk.threads

def threadsAt (P : RunPc → Bool) (heap : List Worker) : ℕ := weigh (Worker.threadsAt P) heap

theorem Worker.threadsAt_set (hpc : wk.threads[k]? = some pc)
    (hset : wk'.threads = wk.threads.set k pc') :
    wk'.threadsAt P + (P pc).toNat = wk.threadsAt P + (P pc').toNat := by
  unfold Worker.threadsAt
  rw [hset]
  exact weigh_set _ _ hpc

theorem threadsAt_move (hw : heap[w]? = some wk) (hpc : wk.threads[k]? = some pc)
    (hset : wk'.threads = wk.threads.set k pc') :
    threadsAt P (heap.set w wk') + (P pc).toNat = threadsAt P heap + (P pc').toNat := by
  have hh := weigh_set (Worker.threadsAt P) wk' hw
  have hk := Worker.threadsAt_set (P := P) hpc hset
  unfold threadsAt
  omega

theorem threadsAt_same (hw : heap[w]? = some wk) (hpc : wk.threads[k]? = some pc)
    (hset : wk'.threads = wk.threads.set k pc') (hP : P pc' = P pc) :
    threadsAt P (heap.set w wk') = threadsAt P heap := by
  have hmove := threadsAt_move (P := P) hw hpc hset
  rw [hP] at hmove
  omega

theorem threadsAt_store (hw : heap[w]? = some wk) (hset : wk'.threads = wk.threads) :
    threadsAt P (heap.set w wk') = threadsAt P heap := by
  have hh := weigh_set (Worker.threadsAt P) wk' hw
  have hk : wk'.threadsAt P = wk.threadsAt P := by unfold Worker.threadsAt; rw [hset]
  unfold threadsAt
  omega

theorem threadsAt_create (hw : heap[w]? = some wk) :
    threadsAt P (heap.set w wk.create) = threadsAt P heap + (P .loop).toNat := by
  have hh := weigh_set (Worker.threadsAt P) wk.create hw
  have hk : wk.create.threadsAt P = wk.threadsAt P + (P .loop).toNat := by
    simp [Worker.threadsAt]
  unfold threadsAt
  omega

theorem threadsAt_newWorker (slotId : ℕ) :
    threadsAt P (heap ++ [Worker.created slotId]) = threadsAt P heap + (P .loop).toNat := by
  simp [threadsAt, Worker.threadsAt]

theorem threadsAt_pos (hw : heap[w]? = some wk) (hpc : wk.threads[k]? = some pc)
    (hP : P pc = true) : 0 < threadsAt P heap := by
  have h₁ := le_weigh (Worker.threadsAt P) hw
  have h₂ := le_weigh (fun pc => (P pc).toNat) hpc
  simp only [hP, Bool.toNat_true] at h₂
  unfold threadsAt Worker.threadsAt at *
  omega

theorem threadsAt_eq_zero :
    threadsAt P heap = 0 ↔ ∀ wk ∈ heap, ∀ pc ∈ wk.threads, P pc = false := by
  simp [threadsAt, Worker.threadsAt, weigh_eq_zero]

namespace System

variable {s s' : System}

def pcAt (s : System) (w k : ℕ) : Option RunPc := (s.heap[w]?).bind fun wk => wk.threads[k]?

theorem pcAt_eq_some : s.pcAt w k = some pc ↔
    ∃ wk, s.heap[w]? = some wk ∧ wk.threads[k]? = some pc := by
  simp [pcAt, Option.bind_eq_some_iff]

theorem pcAt_move (hw : s.heap[w]? = some wk) (hpc : wk.threads[k]? = some pc)
    (hheap : s'.heap = s.heap.set w wk') (hset : wk'.threads = wk.threads.set k pc')
    (i j : ℕ) : s'.pcAt i j = if i = w ∧ j = k then some pc' else s.pcAt i j := by
  have hlen := (List.getElem?_eq_some_iff.mp hw).1
  have hlen' := (List.getElem?_eq_some_iff.mp hpc).1
  unfold pcAt
  rw [hheap]
  by_cases hi : i = w
  · subst hi
    rw [List.getElem?_set_self hlen, hw, Option.bind_some, Option.bind_some, hset]
    by_cases hj : j = k
    · subst hj
      rw [if_pos ⟨rfl, rfl⟩, List.getElem?_set_self hlen']
    · rw [if_neg (fun h => hj h.2), List.getElem?_set_ne (Ne.symm hj)]
  · rw [if_neg (fun h => hi h.1), List.getElem?_set_ne (Ne.symm hi)]

theorem pcAt_store (hw : s.heap[w]? = some wk) (hheap : s'.heap = s.heap.set w wk')
    (hset : wk'.threads = wk.threads) (i j : ℕ) : s'.pcAt i j = s.pcAt i j := by
  have hlen := (List.getElem?_eq_some_iff.mp hw).1
  unfold pcAt
  rw [hheap]
  by_cases hi : i = w
  · subst hi
    rw [List.getElem?_set_self hlen, hw, Option.bind_some, Option.bind_some, hset]
  · rw [List.getElem?_set_ne (Ne.symm hi)]

theorem pcAt_create (hw : s.heap[w]? = some wk) (hheap : s'.heap = s.heap.set w wk.create)
    (i j : ℕ) (hne : pc ≠ .loop) : s'.pcAt i j = some pc ↔ s.pcAt i j = some pc := by
  have hlen := (List.getElem?_eq_some_iff.mp hw).1
  unfold pcAt
  rw [hheap]
  by_cases hi : i = w
  · subst hi
    rw [List.getElem?_set_self hlen, hw, Option.bind_some, Option.bind_some, Worker.create_threads,
      List.getElem?_append]
    split
    · rfl
    · next hj =>
      rw [List.getElem?_eq_none (Nat.le_of_not_lt hj)]
      cases j - wk.threads.length <;> simp [Ne.symm hne]
  · rw [List.getElem?_set_ne (Ne.symm hi)]

theorem pcAt_newWorker {slotId : ℕ} (hheap : s'.heap = s.heap ++ [Worker.created slotId])
    (i j : ℕ) (hne : pc ≠ .loop) : s'.pcAt i j = some pc ↔ s.pcAt i j = some pc := by
  unfold pcAt
  rw [hheap, List.getElem?_append]
  split
  · rfl
  · next hi =>
    rw [List.getElem?_eq_none (Nat.le_of_not_lt hi), Option.bind_none]
    cases i - s.heap.length <;> cases j <;> simp [Ne.symm hne]

end System

theorem threadsAt_start (count : ℕ) (senders : Fd → Option ℕ) (junk : Junk)
    (hP : P .loop = false) : threadsAt P (System.start count senders junk).heap = 0 := by
  rw [threadsAt_eq_zero]
  intro wk hwk
  obtain ⟨i, -, rfl⟩ := List.mem_map.mp hwk
  simpa using hP

end MddProxy
