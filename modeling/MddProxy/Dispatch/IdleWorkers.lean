import MddProxy.Dispatch.PendingQueue

/-!
# Idle workers and pending events

`ProcessData` pushes to the pending queue after a failed look at the free list,
and a worker returns itself to the free list after a failed look at the pending
queue. Neither look is repeated, and `AddWorkers` looks at nothing. An event is
stranded exactly when one of these looks has gone stale.
-/
namespace MddProxy

def DispatchPc.pushing : DispatchPc → Bool
  | .push _ _ => true
  | _ => false

/-- `AddWorkers` is about to push a worker to the free list. -/
def AddPc.freeing : AddPc → Bool
  | .pushFree _ _ => true
  | _ => false

namespace System

open Interleaving

variable {s s' : System} {w k : ℕ} {wk : Worker} {pc : RunPc}

/-- None of `ProcessData`, `AddWorkers` and `OnWorkComplete` is in progress. -/
structure Quiet (s : System) : Prop where
  dispatching : s.dispatching.betweenEvents = true
  adding : s.adding = .idle
  completing : threadsAt RunPc.completing s.heap = 0

instance (s : System) : Decidable s.Quiet :=
  decidable_of_iff (s.dispatching.betweenEvents = true ∧ s.adding = .idle ∧
    threadsAt RunPc.completing s.heap = 0) ⟨fun h => ⟨h.1, h.2.1, h.2.2⟩, fun h => ⟨h.1, h.2, h.3⟩⟩

/-- The guard: a `Push` finds the free list still empty and no worker between its
`Count() == 0` and its `ReturnFreeWorker`, and `AddWorkers` adds a free worker
only while nothing is pending. -/
def LooksAreFresh (s : System) : Action → Prop
  | .dispatch => s.dispatching.pushing = true →
      s.freeWorkers = [] ∧ threadsAt RunPc.retiring s.heap = 0
  | .add => s.adding.freeing = true → s.pendingItems = []
  | _ => True

instance (s : System) (a : Action) : Decidable (s.LooksAreFresh a) :=
  match a with
  | .dispatch => inferInstanceAs (Decidable (s.dispatching.pushing = true →
      s.freeWorkers = [] ∧ threadsAt RunPc.retiring s.heap = 0))
  | .add => inferInstanceAs (Decidable (s.adding.freeing = true → s.pendingItems = []))
  | .arrive .. | .processData _ | .addWorkers _ | .stop | .sweep | .thread .. | .sendFails .. =>
    .isTrue trivial

/-- What the guard preserves: nothing is pending while a worker retires or is free. -/
structure NoneStranded (s : System) : Prop where
  retiring : s.pendingItems ≠ [] → threadsAt RunPc.retiring s.heap = 0
  free : s.pendingItems ≠ [] → s.freeWorkers = []

theorem noneStranded_start (count : ℕ) (senders : Fd → Option ℕ) (junk : Junk) :
    (start count senders junk).NoneStranded :=
  ⟨fun h => absurd rfl h, fun h => absurd rfl h⟩

theorem NoneStranded.congr (hi : s.NoneStranded)
    (hr : threadsAt RunPc.retiring s'.heap = threadsAt RunPc.retiring s.heap)
    (hp : s'.pendingItems = s.pendingItems) (hf : s'.freeWorkers = s.freeWorkers) :
    s'.NoneStranded where
  retiring h := hr.trans (hi.retiring (hp ▸ h))
  free h := hf.trans (hi.free (hp ▸ h))

theorem NoneStranded.run (hi : s.NoneStranded) (hw : s.heap[w]? = some wk)
    (hpc : wk.threads[k]? = some pc) (hm : RunMove s w wk k pc s') : s'.NoneStranded := by
  cases hm with
  | unset | popEmpty => exact hi.congr rfl rfl rfl
  | nonePending hnil => exact ⟨fun h => absurd hnil h, fun h => absurd hnil h⟩
  | pop fd rest hp =>
    have hne : s.pendingItems ≠ [] := by simp [hp]
    exact ⟨fun _ => (threadsAt_same hw hpc rfl (by rfl)).trans (hi.retiring hne),
      fun _ => hi.free hne⟩
  | returnFree =>
    -- a worker about to return itself stands in retirement, so nothing is pending
    have hpos := threadsAt_pos (P := RunPc.retiring) hw hpc rfl
    have hnil : s.pendingItems = [] := by
      by_contra hne
      have := hi.retiring hne
      omega
    exact ⟨fun h => absurd hnil h, fun h => absurd hnil h⟩
  | _ => exact hi.congr (threadsAt_same hw hpc rfl (by rfl)) rfl rfl

theorem NoneStranded.dispatch (hi : s.NoneStranded)
    (hok : s.dispatching.pushing = true →
      s.freeWorkers = [] ∧ threadsAt RunPc.retiring s.heap = 0)
    (hm : DispatchMove s s.dispatching s') : s'.NoneStranded := by
  generalize hpc : s.dispatching = pc at hm
  cases hm with
  | getFree fd evs w ws _ hfree =>
    refine ⟨hi.retiring, fun h => ?_⟩
    have := hi.free h
    simp [hfree] at this
  | assignFree w fd evs wk hw | resumeFree w fd evs wk hw | assignNew w fd evs wk hw
  | resumeNew w fd evs wk hw => exact hi.congr (threadsAt_store hw rfl) rfl rfl
  | createNew fd evs => exact hi.congr (threadsAt_newWorker _) rfl rfl
  | createAgain w fd evs wk hw => exact hi.congr (threadsAt_create hw) rfl rfl
  | push fd evs =>
    obtain ⟨hfree, hretire⟩ := hok (by rw [hpc]; rfl)
    exact ⟨fun _ => hretire, fun _ => hfree⟩
  | _ => exact hi.congr rfl rfl rfl

theorem NoneStranded.step {a : Action} (hi : s.NoneStranded) (hok : s.LooksAreFresh a)
    (hs : s.step a = some s') : s'.NoneStranded := by
  cases (step_move hs).2 with
  | dispatch pc s' hpc hm => exact hi.dispatch hok (hpc ▸ hm)
  | add pc s' hpc hm =>
    cases hm with
    | createNew k => exact hi.congr (threadsAt_newWorker _) rfl rfl
    | pushFree w k =>
      have hnil := hok (by rw [hpc]; rfl)
      exact ⟨fun h => absurd hnil h, fun h => absurd hnil h⟩
    | _ => exact hi.congr rfl rfl rfl
  | sweep pc s' _ hm =>
    cases hm with
    | finishAndDie i n w wk _ _ hw => exact hi.congr (threadsAt_store hw rfl) rfl rfl
    | finish => exact hi.congr rfl rfl rfl
  | thread w k wk pc s' hw hpc hm => exact hi.run hw hpc hm
  | _ => exact hi.congr rfl rfl rfl

/-- A worker told to sleep is free, in the hand of `ProcessData` or `AddWorkers`, or
about to return itself. -/
def SleepersHeld (s : System) : Prop :=
  ∀ w wk, s.heap[w]? = some wk → wk.state = .sleepWait →
    w ∈ s.freeWorkers ∨ s.dispatching.worker = some w ∨ s.adding.worker = some w ∨
      .returnFree ∈ wk.threads

theorem sleepersHeld_start (count : ℕ) (senders : Fd → Option ℕ) (junk : Junk) :
    (start count senders junk).SleepersHeld := by
  intro w wk hw _
  left
  have hlen := (List.getElem?_eq_some_iff.mp hw).1
  simpa [start] using hlen

theorem SleepersHeld.jump {wk' : Worker} {pc' : RunPc} (hi : s.SleepersHeld)
    (hw : s.heap[w]? = some wk) (hpc : wk.threads[k]? = some pc) (hne : pc ≠ .returnFree)
    (hheap : s'.heap = s.heap.set w wk') (hthreads : wk'.threads = wk.threads.set k pc')
    (hstate : wk'.state = .sleepWait → wk.state = .sleepWait ∨ pc' = .returnFree)
    (hfree : s'.freeWorkers = s.freeWorkers) (hdisp : s'.dispatching = s.dispatching)
    (hadd : s'.adding = s.adding) : s'.SleepersHeld := by
  intro i wki hwi hsleep
  rw [hfree, hdisp, hadd]
  rw [hheap] at hwi
  rcases getElem?_set_cases hwi with ⟨rfl, rfl⟩ | ⟨-, hwi⟩
  · rw [hthreads]
    rcases hstate hsleep with hsleep | rfl
    · rcases hi i wk hw hsleep with h | h | h | h
      · exact .inl h
      · exact .inr (.inl h)
      · exact .inr (.inr (.inl h))
      · exact .inr (.inr (.inr (mem_set_of_mem h hpc hne)))
    · have hlen := (List.getElem?_eq_some_iff.mp hpc).1
      exact .inr (.inr (.inr (List.mem_of_getElem? (List.getElem?_set_self hlen))))
  · exact hi i wki hwi hsleep

theorem SleepersHeld.run (hi : s.SleepersHeld) (hw : s.heap[w]? = some wk)
    (hpc : wk.threads[k]? = some pc) (hm : RunMove s w wk k pc s') : s'.SleepersHeld := by
  cases hm with
  | unset | popEmpty => exact hi
  | setSleep =>
    exact hi.jump hw hpc (by simp) rfl rfl (fun _ => .inr rfl) rfl rfl rfl
  | setResume =>
    exact hi.jump hw hpc (by simp) rfl rfl (by simp) rfl rfl rfl
  | returnFree =>
    intro i wki hwi hsleep
    rcases getElem?_set_cases hwi with ⟨rfl, rfl⟩ | ⟨-, hwi⟩
    · exact .inl (by simp)
    · rcases hi i wki hwi hsleep with h | h
      · exact .inl (List.mem_append_left _ h)
      · exact .inr h
  | _ => exact hi.jump hw hpc (by simp) rfl rfl .inl rfl rfl rfl

theorem SleepersHeld.write {wk' : Worker} (hi : s.SleepersHeld) (hw : s.heap[w]? = some wk)
    (hheap : s'.heap = s.heap.set w wk') (hthreads : ∀ pc ∈ wk.threads, pc ∈ wk'.threads)
    (hstate : wk'.state = .sleepWait → wk.state = .sleepWait)
    (hfree : s'.freeWorkers = s.freeWorkers)
    (hdisp : ∀ i, s.dispatching.worker = some i →
      s'.dispatching.worker = some i ∨ i = w ∧ wk'.state ≠ .sleepWait)
    (hadd : s'.adding = s.adding) : s'.SleepersHeld := by
  intro i wki hwi hsleep
  rw [hfree, hadd]
  rw [hheap] at hwi
  obtain ⟨wk₀, hw₀, hsleep₀, hret⟩ : ∃ wk₀, s.heap[i]? = some wk₀ ∧ wk₀.state = .sleepWait ∧
      (.returnFree ∈ wk₀.threads → .returnFree ∈ wki.threads) := by
    rcases getElem?_set_cases hwi with ⟨rfl, rfl⟩ | ⟨-, hwi⟩
    · exact ⟨wk, hw, hstate hsleep, hthreads _⟩
    · exact ⟨wki, hwi, hsleep, id⟩
  rcases hi i wk₀ hw₀ hsleep₀ with h | h | h | h
  · exact .inl h
  · rcases hdisp i h with h | ⟨rfl, hawake⟩
    · exact .inr (.inl h)
    · rcases getElem?_set_cases hwi with ⟨-, rfl⟩ | ⟨hne, -⟩
      · exact absurd hsleep hawake
      · exact absurd rfl hne
  · exact .inr (.inr (.inl h))
  · exact .inr (.inr (.inr (hret h)))

theorem SleepersHeld.congr (hi : s.SleepersHeld) (hheap : s'.heap = s.heap)
    (hheld : ∀ i, i ∈ s.freeWorkers ∨ s.dispatching.worker = some i ∨
      s.adding.worker = some i → i ∈ s'.freeWorkers ∨ s'.dispatching.worker = some i ∨
      s'.adding.worker = some i) : s'.SleepersHeld := by
  intro i wki hwi hsleep
  rw [hheap] at hwi
  have h := hi i wki hwi hsleep
  have hheld := hheld i
  tauto

theorem SleepersHeld.create {slotId : ℕ} (hi : s.SleepersHeld)
    (hheap : s'.heap = s.heap ++ [Worker.created slotId])
    (hfree : s'.freeWorkers = s.freeWorkers)
    (hdisp : ∀ i, s.dispatching.worker = some i → s'.dispatching.worker = some i)
    (hadd : ∀ i, s.adding.worker = some i → s'.adding.worker = some i)
    (hnew : s'.dispatching.worker = some s.heap.length ∨
      s'.adding.worker = some s.heap.length) : s'.SleepersHeld := by
  intro i wki hwi hsleep
  rw [hheap] at hwi
  rcases Nat.lt_or_ge i s.heap.length with hlt | hge
  · rw [List.getElem?_append_left hlt] at hwi
    rw [hfree]
    rcases hi i wki hwi hsleep with h | h | h | h
    · exact .inl h
    · exact .inr (.inl (hdisp i h))
    · exact .inr (.inr (.inl (hadd i h)))
    · exact .inr (.inr (.inr h))
  · have hlen := (List.getElem?_eq_some_iff.mp hwi).1
    rw [List.length_append, List.length_singleton] at hlen
    obtain rfl : i = s.heap.length := by omega
    exact .inr (hnew.imp id .inl)

theorem SleepersHeld.dispatch (hi : s.SleepersHeld) (hm : DispatchMove s s.dispatching s') :
    s'.SleepersHeld := by
  generalize hpc : s.dispatching = pc at hm
  cases hm with
  | getFree fd evs w ws _ hfree =>
    refine hi.congr rfl fun i h => ?_
    simp only [hpc, hfree, List.mem_cons, DispatchPc.worker, Option.some.injEq] at h ⊢
    tauto
  | assignFree w fd evs wk hw | assignNew w fd evs wk hw =>
    exact hi.write hw rfl (fun _ => id) id rfl (fun i h => .inl (by rwa [hpc] at h)) rfl
  | resumeFree w fd evs wk hw | resumeNew w fd evs wk hw =>
    refine hi.write hw rfl (fun _ => id) (by simp) rfl (fun i h => .inr ?_) rfl
    simp only [hpc, DispatchPc.worker, Option.some.injEq] at h
    exact ⟨h.symm, by simp⟩
  | createNew fd evs =>
    exact hi.create rfl rfl (by simp [hpc, DispatchPc.worker]) (fun _ => id) (.inl rfl)
  | createAgain w fd evs wk hw =>
    exact hi.write hw rfl (fun pc h => List.mem_append_left _ h) id rfl
      (by simp [hpc, DispatchPc.worker]) rfl
  | _ =>
    refine hi.congr rfl fun i h => ?_
    simpa [hpc, DispatchPc.worker] using h

theorem SleepersHeld.add (hi : s.SleepersHeld) (hm : AddMove s s.adding s') :
    s'.SleepersHeld := by
  generalize hpc : s.adding = pc at hm
  cases hm with
  | createNew k =>
    exact hi.create rfl rfl (fun _ => id) (by simp [hpc, AddPc.worker]) (.inr rfl)
  | pushFree w k =>
    refine hi.congr rfl fun i h => ?_
    simp only [hpc, AddPc.worker, Option.some.injEq, List.mem_append, List.mem_singleton] at h ⊢
    rcases h with h | h | rfl
    · exact .inl (.inl h)
    · exact .inr (.inl h)
    · exact .inl (.inr rfl)
  | _ =>
    refine hi.congr rfl fun i h => ?_
    simpa [hpc, AddPc.worker] using h

theorem SleepersHeld.step {a : Action} (hi : s.SleepersHeld) (hs : s.step a = some s') :
    s'.SleepersHeld := by
  cases (step_move hs).2 with
  | processData evs hidle =>
    refine hi.congr rfl fun i h => ?_
    simpa [hidle, DispatchPc.worker] using h
  | dispatch pc s' hpc hm => exact hi.dispatch (hpc ▸ hm)
  | addWorkers count hidle =>
    refine hi.congr rfl fun i h => ?_
    simpa [hidle, AddPc.worker] using h
  | add pc s' hpc hm => exact hi.add (hpc ▸ hm)
  | sweep pc s' _ hm =>
    cases hm with
    | finishAndDie i n w wk _ _ hw =>
      exact hi.write hw rfl (fun _ => id) (by simp) rfl (fun i h => .inl h) rfl
    | finish => exact hi.congr rfl fun _ => id
  | thread w k wk pc s' hw hpc hm => exact hi.run hw hpc hm
  | _ => exact hi.congr rfl fun _ => id

/-- In a quiet state only the free list holds sleeping workers. -/
theorem SleepersHeld.mem_free (hi : s.SleepersHeld) (hq : s.Quiet)
    (hw : s.heap[w]? = some wk) (hsleep : wk.state = .sleepWait) : w ∈ s.freeWorkers := by
  rcases hi w wk hw hsleep with h | h | h | h
  · exact h
  · have hd := hq.dispatching
    cases hpc : s.dispatching <;> simp [hpc, DispatchPc.worker, DispatchPc.betweenEvents] at h hd
  · simp [hq.adding, AddPc.worker] at h
  · have := (threadsAt_eq_zero.mp hq.completing) wk (List.mem_of_getElem? hw) _ h
    simp [RunPc.completing] at this

/-- **No worker idles over pending work** in a run whose looks are all fresh: in a
quiet state with a pending event the free list is empty, and no worker sleeps. -/
theorem no_idle_worker_while_pending {count : ℕ} {senders : Fd → Option ℕ}
    {junk : Junk} (h : Reaches step LooksAreFresh (start count senders junk) s)
    (hq : s.Quiet) (hp : s.pendingItems ≠ []) :
    s.freeWorkers = [] ∧ ∀ wk ∈ s.heap, wk.state ≠ .sleepWait := by
  have hstr : s.NoneStranded :=
    h.invariant (noneStranded_start count senders junk) fun _ _ _ hi hok hs => hi.step hok hs
  have hheld : s.SleepersHeld :=
    h.invariant (sleepersHeld_start count senders junk) fun _ _ _ hi _ hs => hi.step hs
  have hfree := hstr.free hp
  refine ⟨hfree, fun wk hwk hsleep => ?_⟩
  obtain ⟨w, hw⟩ := List.getElem?_of_mem hwk
  have := hheld.mem_free hq hw hsleep
  simp [hfree] at this

theorem no_idle_worker_one_pending :
    ∃ s, Reaches step LooksAreFresh elevenReceivers s ∧ s.pendingItems ≠ [] ∧
      s.freeWorkers = [] ∧ ∀ wk ∈ s.heap, wk.state ≠ .sleepWait := by
  obtain ⟨s, hs, hq, hp⟩ : ∃ s, Reaches step LooksAreFresh elevenReceivers s ∧
      s.Quiet ∧ s.pendingItems ≠ [] :=
    exists_reaches_of_runChecked onePending (by decide)
  exact ⟨s, hs, hp, no_idle_worker_while_pending hs hq hp⟩

/-- A worker reads `Count()` as zero, `ProcessData` pushes the event for which it found
no free worker, and the worker goes to sleep on the free list. -/
theorem idle_worker_while_pending_reachable :
    ¬ ∀ s, Reaches step anyStep elevenReceivers s → s.Quiet → s.pendingItems ≠ [] →
      s.freeWorkers = [] := by
  intro hstated
  obtain ⟨s, hs, hq, hp, hfree⟩ : ∃ s, Reaches step anyStep elevenReceivers s ∧
      s.Quiet ∧ s.pendingItems ≠ [] ∧ s.freeWorkers ≠ [] :=
    exists_reaches_of_runChecked
      (.addWorkers 5 :: List.replicate 21 .add ++
        .processData (List.range 11) :: List.replicate 40 .dispatch ++
        List.replicate 5 (.thread 0 0) ++ List.replicate 4 .dispatch ++
        List.replicate 2 (.thread 0 0)) (by decide)
  exact hfree (hstated s hs hq hp)

end System
end MddProxy
