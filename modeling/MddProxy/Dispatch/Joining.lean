import MddProxy.Dispatch.Ownership

/-!
# Joining the threads

`Worker::Create` overwrites the `thread` field of its object, and `JoinThreads` joins the
thread that the field identifies before it deletes the object. A `Lifetime` is a
dispatcher together with the fields, the threads joined and the objects deleted.
-/
namespace MddProxy

/-- Where the thread that left the event loop is inside `JoinThreads`, which goes through
the first `n` entries of `workers`. -/
inductive JoinPc where
  | idle
  /-- About to `pthread_join` the thread of entry `i`. -/
  | joining (i n : ℕ)
  /-- Joined it, about to `delete` the object. -/
  | deleting (i n : ℕ)
  | done
  deriving DecidableEq, Repr

/-- `thread` holds the `thread` fields by the position of the object in `heap`: the number
of the thread that the descriptor identifies. -/
structure Lifetime extends System where
  thread : List ℕ
  joining : JoinPc
  joined : List (ℕ × ℕ)
  deleted : List ℕ

namespace Lifetime

open Interleaving MddProxy.System

inductive Label where
  | system (a : Action)
  /-- `WaitForExit` leaves its loop and calls `JoinThreads`. -/
  | joinThreads
  | join
  deriving DecidableEq, Repr

def threadAfter (s : System) (thread : List ℕ) : Action → List ℕ
  | .dispatch =>
    match s.dispatching with
    | .createNew _ _ => thread ++ [0]
    | .createAgain w _ _ =>
      match s.heap[w]? with
      | some wk => thread.set w wk.threads.length
      | none => thread
    | _ => thread
  | .add =>
    match s.adding with
    | .next (_ + 1) => thread ++ [0]
    | _ => thread
  | _ => thread

/-- One step of `JoinThreads`. `pthread_join` returns once the thread has left `Run`. -/
def joinStep (l : Lifetime) : Option Lifetime :=
  match l.joining with
  | .idle | .done => none
  | .joining i n =>
    if i < n then
      (l.workers[i]?).bind fun w => (l.thread[w]?).bind fun k =>
        if l.pcAt w k = some .exited then
          some { l with joined := l.joined ++ [(w, k)], joining := .deleting i n }
        else none
    else some { l with joining := .done }
  | .deleting i n =>
    (l.workers[i]?).map fun w =>
      { l with deleted := l.deleted ++ [w], joining := .joining (i + 1) n }

/-- The thread that calls `JoinThreads` calls `ProcessData` no more. -/
def refuses (l : Lifetime) : Action → Bool
  | .processData _ => l.joining ≠ .idle
  | _ => false

def step (l : Lifetime) : Label → Option Lifetime
  | .system a =>
    if l.refuses a then none
    else (l.toSystem.step a).map fun s' =>
      { l with toSystem := s', thread := threadAfter l.toSystem l.thread a }
  | .joinThreads =>
    if l.fault = none ∧ l.joining = .idle ∧ l.dispatching = .idle then
      some { l with joining := .joining 0 l.workers.length }
    else none
  | .join => if l.fault = none then l.joinStep else none

/-- A new dispatcher: each object has the one thread that its `thread` field identifies. -/
def start (count : ℕ) (senders : Fd → Option ℕ) (junk : Junk) : Lifetime where
  toSystem := System.start count senders junk
  thread := List.replicate count 0
  joining := .idle
  joined := []
  deleted := []

/-- The guard: `ProcessData` does not get to the `Create` that closes its created-worker
branch. -/
def CreatedOnce (l : Lifetime) : Label → Prop
  | .system .dispatch => l.dispatching.creatingAgain = false
  | _ => True

instance (l : Lifetime) (a : Label) : Decidable (l.CreatedOnce a) :=
  match a with
  | .system .dispatch => inferInstanceAs (Decidable (l.dispatching.creatingAgain = false))
  | .system (.arrive ..) | .system (.processData _) | .system (.addWorkers _) | .system .add
  | .system .stop | .system .sweep | .system (.thread ..) | .system (.sendFails ..)
  | .joinThreads | .join => .isTrue trivial

structure ThreadsJoined (l : Lifetime) : Prop where
  /-- At most one thread of each object is inside `Run`. -/
  one : ∀ w i j pc pc', l.pcAt w i = some pc → l.pcAt w j = some pc' → pc ≠ .exited →
    pc' ≠ .exited → i = j
  /-- The `thread` field identifies it. -/
  identified : ∀ w k pc, l.pcAt w k = some pc → pc ≠ .exited → l.thread[w]? = some k
  /-- Every thread of a deleted object has been joined. -/
  joined : ∀ w k pc, w ∈ l.deleted → l.pcAt w k = some pc → (w, k) ∈ l.joined
  /-- No thread of a deleted object takes a step. -/
  still : ∀ w k, w ∈ l.deleted → l.threadStep w k = none

variable {l l' : Lifetime} {s s' : System} {w k : ℕ} {wk : Worker} {pc : RunPc}

/-- A thread that has left `Run` does not come back. -/
theorem exited_step {a : Action} (hs : s.step a = some s') (he : s.pcAt w k = some .exited) :
    s'.pcAt w k = some .exited := by
  have hne : RunPc.exited ≠ .loop := by simp
  cases (step_move hs).2 with
  | dispatch pc s' _ hm =>
    cases hm with
    | assignFree v fd evs wk hv | resumeFree v fd evs wk hv | assignNew v fd evs wk hv
    | resumeNew v fd evs wk hv => rw [pcAt_store hv rfl (by rfl)]; exact he
    | createNew => exact (pcAt_newWorker rfl w k hne).mpr he
    | createAgain v fd evs wk hv => exact (pcAt_create hv rfl w k hne).mpr he
    | _ => exact he
  | add pc s' _ hm =>
    cases hm with
    | createNew => exact (pcAt_newWorker rfl w k hne).mpr he
    | _ => exact he
  | sweep pc s' _ hm =>
    cases hm with
    | finishAndDie i n v wk _ _ hv => rw [pcAt_store hv rfl (by rfl)]; exact he
    | finish => exact he
  | thread v j wk pc s' hv hpc hm =>
    have hmoved : ¬ (w = v ∧ k = j) := by
      rintro ⟨rfl, rfl⟩
      rw [pcAt_eq_some.mpr ⟨wk, hv, hpc⟩, Option.some.injEq] at he
      subst he
      cases hm
    cases hm with
    | unset | popEmpty => exact he
    | _ => rw [pcAt_move hv hpc rfl (by rfl), if_neg hmoved]; exact he
  | _ => exact he

theorem workers_step {a : Action} (hs : s.step a = some s') : s.workers <+: s'.workers := by
  cases (step_move hs).2 with
  | dispatch pc s' _ hm => cases hm <;> first | exact List.prefix_rfl | exact List.prefix_append _ _
  | add pc s' _ hm => cases hm <;> first | exact List.prefix_rfl | exact List.prefix_append _ _
  | sweep pc s' _ hm => cases hm <;> exact List.prefix_rfl
  | thread v j wk pc s' _ _ hm => cases hm <;> exact List.prefix_rfl
  | _ => exact List.prefix_rfl

/-- One thread for each object, and the field says so. -/
structure OneThread (s : System) (thread : List ℕ) : Prop where
  single : ∀ wk ∈ s.heap, wk.threads.length = 1
  length : thread.length = s.heap.length
  first : ∀ k ∈ thread, k = 0

theorem OneThread.put {thread : List ℕ} {wk' : Worker} (ho : OneThread s thread)
    (hw : s.heap[w]? = some wk) (hheap : s'.heap = s.heap.set w wk')
    (hthreads : wk'.threads.length = wk.threads.length) : OneThread s' thread where
  single := by
    rw [hheap]
    exact forall_mem_set ho.single (hthreads.trans (ho.single wk (List.mem_of_getElem? hw)))
  length := by rw [hheap, List.length_set]; exact ho.length
  first := ho.first

theorem OneThread.create {thread : List ℕ} {slotId : ℕ} (ho : OneThread s thread)
    (hheap : s'.heap = s.heap ++ [Worker.created slotId]) : OneThread s' (thread ++ [0]) where
  single wk hwk := by
    rw [hheap] at hwk
    rcases List.mem_append.mp hwk with hwk | hwk
    · exact ho.single wk hwk
    · obtain rfl := List.mem_singleton.mp hwk
      rfl
  length := by rw [hheap, List.length_append, List.length_append, ho.length]; rfl
  first k hk := by
    rcases List.mem_append.mp hk with hk | hk
    · exact ho.first k hk
    · exact List.mem_singleton.mp hk

theorem OneThread.step {thread : List ℕ} {a : Action} (ho : OneThread s thread)
    (hok : a = .dispatch → s.dispatching.creatingAgain = false) (hs : s.step a = some s') :
    OneThread s' (threadAfter s thread a) := by
  cases (step_move hs).2 with
  | dispatch pc s' hpc hm =>
    have hagain := hok rfl
    rw [hpc] at hagain
    simp only [threadAfter, hpc]
    cases hm with
    | assignFree v fd evs wk hv | resumeFree v fd evs wk hv | assignNew v fd evs wk hv
    | resumeNew v fd evs wk hv => exact ho.put hv rfl rfl
    | createNew => exact ho.create rfl
    | createAgain => simp [DispatchPc.creatingAgain] at hagain
    | _ => exact { ho with }
  | add pc s' hpc hm =>
    simp only [threadAfter, hpc]
    cases hm with
    | createNew => exact ho.create rfl
    | _ => exact { ho with }
  | sweep pc s' _ hm =>
    cases hm with
    | finishAndDie i n v wk _ _ hv => exact ho.put hv rfl rfl
    | finish => exact { ho with }
  | thread v j wk pc s' hv _ hm =>
    cases hm with
    | unset | popEmpty => exact { ho with }
    | _ => exact ho.put hv rfl (by simp)
  | _ => exact { ho with }

/-- The invariant: one thread for each object, the joined ones have left `Run`, and the
thread of an object that is deleted or about to be is joined. -/
structure Tidy (l : Lifetime) : Prop where
  one : OneThread l.toSystem l.thread
  exited : ∀ w k, (w, k) ∈ l.joined → l.pcAt w k = some .exited
  deleted : ∀ w ∈ l.deleted, (w, 0) ∈ l.joined
  deleting : ∀ i n, l.joining = .deleting i n → ∃ w ∈ l.workers[i]?, (w, 0) ∈ l.joined

theorem tidy_start (count : ℕ) (senders : Fd → Option ℕ) (junk : Junk) :
    (start count senders junk).Tidy where
  one :=
    { single := by
        intro wk hwk
        obtain ⟨i, -, rfl⟩ := List.mem_map.mp hwk
        rfl
      length := by simp [start, System.start]
      first := fun k hk => List.eq_of_mem_replicate hk }
  exited := by simp [start]
  deleted := by simp [start]
  deleting := by simp [start]

theorem Tidy.system {a : Action} (ht : l.Tidy)
    (hok : a = .dispatch → l.dispatching.creatingAgain = false)
    (hs : l.toSystem.step a = some s') :
    Tidy { l with toSystem := s', thread := threadAfter l.toSystem l.thread a } where
  one := ht.one.step hok hs
  exited w k hj := exited_step hs (ht.exited w k hj)
  deleted := ht.deleted
  deleting i n h := by
    obtain ⟨w, hw, hj⟩ := ht.deleting i n h
    obtain ⟨ws, hws⟩ := workers_step hs
    refine ⟨w, ?_, hj⟩
    rw [← hws]
    exact (List.getElem?_append_left (List.getElem?_eq_some_iff.mp hw).1).trans hw

theorem Tidy.join (ht : l.Tidy) (hs : l.joinStep = some l') : l'.Tidy := by
  unfold joinStep at hs
  cases hpc : l.joining with
  | idle | done => simp [hpc] at hs
  | joining i n =>
    by_cases hin : i < n
    · simp only [hpc, hin, if_true, Option.bind_eq_some_iff, Option.ite_none_right_eq_some,
        Option.some.injEq] at hs
      obtain ⟨w, hw, k, hk, hexited, rfl⟩ := hs
      obtain rfl := ht.one.first k (List.mem_of_getElem? hk)
      refine ⟨ht.one, fun v j hj => ?_, fun v hv => ?_, fun i' n' h => ?_⟩
      · rcases List.mem_append.mp hj with hj | hj
        · exact ht.exited v j hj
        · obtain ⟨rfl, rfl⟩ := Prod.mk.inj (List.mem_singleton.mp hj)
          exact hexited
      · exact List.mem_append_left _ (ht.deleted v hv)
      · obtain ⟨rfl, rfl⟩ : i = i' ∧ n = n' := by simpa using h
        exact ⟨w, hw, by simp⟩
    · simp only [hpc, hin, if_false, Option.some.injEq] at hs
      subst hs
      exact ⟨ht.one, ht.exited, ht.deleted, by simp⟩
  | deleting i n =>
    simp only [hpc, Option.map_eq_some_iff] at hs
    obtain ⟨w, hw, rfl⟩ := hs
    obtain ⟨v, hv, hj⟩ := ht.deleting i n hpc
    obtain rfl : w = v := Option.some.inj (hw.symm.trans hv)
    refine ⟨ht.one, ht.exited, fun v hv => ?_, by simp⟩
    rcases List.mem_append.mp hv with hv | hv
    · exact ht.deleted v hv
    · rwa [List.mem_singleton.mp hv]

theorem Tidy.step {a : Label} (ht : l.Tidy) (hok : l.CreatedOnce a)
    (hs : l.step a = some l') : l'.Tidy := by
  cases a with
  | system a =>
    simp only [Lifetime.step, Option.ite_none_left_eq_some, Option.map_eq_some_iff] at hs
    obtain ⟨-, s', hs, rfl⟩ := hs
    exact ht.system (by rintro rfl; exact hok) hs
  | joinThreads =>
    simp only [Lifetime.step, Option.ite_none_right_eq_some, Option.some.injEq] at hs
    obtain ⟨-, rfl⟩ := hs
    exact ⟨ht.one, ht.exited, ht.deleted, by simp⟩
  | join =>
    simp only [Lifetime.step, Option.ite_none_right_eq_some] at hs
    exact ht.join hs.2

theorem OneThread.eq_zero {thread : List ℕ} (ho : OneThread s thread)
    (hpc : s.pcAt w k = some pc) : k = 0 := by
  obtain ⟨wk, hw, hk⟩ := pcAt_eq_some.mp hpc
  have hlen := (List.getElem?_eq_some_iff.mp hk).1
  rw [ho.single wk (List.mem_of_getElem? hw)] at hlen
  omega

theorem OneThread.threadStep_eq_none {thread : List ℕ} (ho : OneThread s thread)
    (he : s.pcAt w 0 = some .exited) (k : ℕ) : s.threadStep w k = none := by
  obtain ⟨wk, hw, hk⟩ := pcAt_eq_some.mp he
  cases k with
  | zero => simp [System.threadStep, hw, hk, System.runStep]
  | succ k =>
    have hlen := ho.single wk (List.mem_of_getElem? hw)
    have hnone : wk.threads[k + 1]? = none := List.getElem?_eq_none (by omega)
    simp [System.threadStep, hw, hnone]

/-- **Every thread is joined before its worker is deleted** in a run in which no object
gets a second thread. -/
theorem threads_joined {count : ℕ} {senders : Fd → Option ℕ} {junk : Junk}
    (h : Reaches step CreatedOnce (start count senders junk) l) : l.ThreadsJoined := by
  have ht : l.Tidy :=
    h.invariant (tidy_start count senders junk) fun _ _ _ ht hok hs => ht.step hok hs
  refine ⟨fun w i j pc pc' hi hj _ _ => ?_, fun w k pc hk _ => ?_, fun w k pc hw hk => ?_,
    fun w k hw => ?_⟩
  · rw [ht.one.eq_zero hi, ht.one.eq_zero hj]
  · obtain rfl := ht.one.eq_zero hk
    obtain ⟨wk, hw, -⟩ := pcAt_eq_some.mp hk
    have hlt : w < l.thread.length := by
      rw [ht.one.length]
      exact (List.getElem?_eq_some_iff.mp hw).1
    have hget : l.thread[w]? = some l.thread[w] := List.getElem?_eq_getElem hlt
    rw [hget, ht.one.first _ (List.mem_of_getElem? hget)]
  · obtain rfl := ht.one.eq_zero hk
    exact ht.deleted w hw
  · exact ht.one.threadStep_eq_none (ht.exited w 0 (ht.deleted w hw)) k

def fiveWorkers : Lifetime := start 5 (fun fd => if fd < 6 then some 1 else none) .zeroed

/-- `Stop` tells every worker, each of the first `n` workers sees it, and `JoinThreads`
joins and deletes them. -/
def finishAll (n : ℕ) : List Label :=
  .system .stop :: List.replicate (n + 1) (.system .sweep) ++
    (List.range n).map (fun w => .system (.thread w 0)) ++
    .joinThreads :: List.replicate (2 * n + 1) .join

/-- Worker 0 serves an event, then all five are told, joined and deleted. -/
theorem threads_joined_five_workers :
    ∃ l, Reaches step CreatedOnce fiveWorkers l ∧ l.deleted = [0, 1, 2, 3, 4] ∧
      l.ThreadsJoined := by
  obtain ⟨l, hl, hdeleted⟩ : ∃ l, Reaches step CreatedOnce fiveWorkers l ∧
      l.deleted = [0, 1, 2, 3, 4] :=
    exists_reaches_of_runChecked
      (.system (.processData [0]) :: List.replicate 5 (.system .dispatch) ++
        List.replicate 6 (.system (.thread 0 0)) ++ finishAll 5) (by decide)
  exact ⟨l, hl, hdeleted, threads_joined hl⟩

/-- The sixth event creates worker 5 and starts two threads on it; `JoinThreads` joins the
second one and deletes the worker while the first is about to look at its control slot. -/
theorem thread_on_deleted_worker_reachable :
    ¬ ∀ l, Reaches step anyStep fiveWorkers l → l.ThreadsJoined := by
  intro hstated
  obtain ⟨l, hl, hdeleted, hsome⟩ : ∃ l, Reaches step anyStep fiveWorkers l ∧
      5 ∈ l.deleted ∧ (l.threadStep 5 0).isSome = true :=
    exists_reaches_of_runChecked
      (.system (.processData (List.range 6)) :: List.replicate 31 (.system .dispatch) ++
        .system .stop :: List.replicate 7 (.system .sweep) ++
        (List.range 5).map (fun w => .system (.thread w 0)) ++ .system (.thread 5 1) ::
        .joinThreads :: List.replicate 13 .join) (by decide)
  rw [(hstated l hl).still 5 0 hdeleted] at hsome
  exact Bool.noConfusion hsome

end Lifetime
end MddProxy
