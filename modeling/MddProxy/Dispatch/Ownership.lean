import MddProxy.Dispatch.Threads

/-!
# Who owns a worker

A worker that nobody has ordered to run belongs to exactly one place: the free
list, the hand of `ProcessData` or the hand of `AddWorkers`. It sleeps there, and
its one thread rests. This is what lets `ProcessData` store into its control slot
without overwriting anybody's work. It holds as long as each worker has one
thread, that is, until a second `Create` on the same worker.
-/
namespace MddProxy

/-- The points at which a thread waits for its control slot. -/
def RunPc.resting : RunPc → Bool
  | .loop | .paused => true
  | _ => false

/-- The control slot says what the thread's program point lets one expect, as long as
nobody terminates it. -/
def RunPc.agrees (st : WorkerState) : RunPc → Bool
  | .loop | .paused => st = .resume || st = .sleepWait
  | .returnFree => st = .sleepWait
  | .exited => false
  | .receiving | .recvfrom _ _ | .sending _ _ _ | .countPending | .setResume | .pop | .store _
  | .setSleep => st = .resume

/-- One thread, at a point that agrees with the control slot. -/
def Worker.Tended (wk : Worker) : Prop :=
  ∃ pc, wk.threads = [pc] ∧ pc.agrees wk.state = true

def Worker.Parked (wk : Worker) : Prop :=
  wk.state = .sleepWait ∧ ∀ pc ∈ wk.threads, pc.resting = true

/-- `ProcessData` has stored the socket and is about to `Resume` the worker. -/
def DispatchPc.resuming : DispatchPc → Option (ℕ × Fd)
  | .resumeFree w fd _ | .resumeNew w fd _ => some (w, fd)
  | _ => none

/-- `ProcessData` is about to call `Create` on a worker whose thread already runs. -/
def DispatchPc.creatingAgain : DispatchPc → Bool
  | .createAgain _ _ _ => true
  | _ => false

theorem Worker.tended_created (slotId : ℕ) : (Worker.created slotId).Tended := ⟨.loop, rfl, rfl⟩

theorem Worker.parked_created (slotId : ℕ) : (Worker.created slotId).Parked :=
  ⟨rfl, by simp [RunPc.resting]⟩

theorem Worker.Tended.single {wk : Worker} {k : ℕ} {pc : RunPc} (ht : wk.Tended)
    (hpc : wk.threads[k]? = some pc) :
    k = 0 ∧ wk.threads = [pc] ∧ pc.agrees wk.state = true := by
  obtain ⟨pc₀, hthreads, hagree⟩ := ht
  rw [hthreads] at hpc
  have hlen := (List.getElem?_eq_some_iff.mp hpc).1
  obtain rfl : k = 0 := by simpa using hlen
  obtain rfl : pc₀ = pc := by simpa using hpc
  exact ⟨rfl, hthreads, hagree⟩

namespace System

open Interleaving

variable {s s' : System} {w k : ℕ} {wk : Worker} {pc : RunPc}

/-- The guard: `WakeUpAllThreads` is not called, and `ProcessData` does not get to the
`Create` that closes its created-worker branch. -/
def CreatesOnce (s : System) : Action → Prop
  | .dispatch => s.dispatching.creatingAgain = false
  | .stop => False
  | _ => True

instance (s : System) (a : Action) : Decidable (s.CreatesOnce a) :=
  match a with
  | .dispatch => inferInstanceAs (Decidable (s.dispatching.creatingAgain = false))
  | .stop => .isFalse id
  | .arrive .. | .processData _ | .addWorkers _ | .add | .sweep | .thread .. | .sendFails .. =>
    .isTrue trivial

/-- The workers that nobody has ordered to run, by the place that holds them. -/
def idlers (s : System) : List ℕ :=
  s.freeWorkers ++ (s.dispatching.worker.toList ++ s.adding.worker.toList)

structure Owned (s : System) : Prop where
  tended : ∀ wk ∈ s.heap, wk.Tended
  nodup : s.idlers.Nodup
  parked : ∀ i ∈ s.idlers, ∃ wk ∈ s.heap[i]?, wk.Parked
  assigned : ∀ i fd, s.dispatching.resuming = some (i, fd) →
    ∃ wk ∈ s.heap[i]?, wk.receiverSocket = some fd
  running : s.stopping = .idle

theorem owned_start (count : ℕ) (senders : Fd → Option ℕ) (junk : Junk) :
    (start count senders junk).Owned where
  tended wk hwk := by
    obtain ⟨i, -, rfl⟩ := List.mem_map.mp hwk
    exact Worker.tended_created i
  nodup := by
    simpa [start, idlers, DispatchPc.worker, AddPc.worker] using List.nodup_range
  parked i hi := by
    have hlt : i < count := by
      simpa [start, idlers, DispatchPc.worker, AddPc.worker] using hi
    exact ⟨Worker.created i, by simp [start, hlt], Worker.parked_created i⟩
  assigned := by simp [start, DispatchPc.resuming]
  running := rfl

theorem Owned.resting (ho : s.Owned) (hw : s.heap[w]? = some wk)
    (hpc : wk.threads[k]? = some pc) (hidle : w ∈ s.idlers) :
    wk.state = .sleepWait ∧ pc.resting = true := by
  obtain ⟨wk₀, hw₀, hst, hrest⟩ := ho.parked w hidle
  obtain rfl : wk = wk₀ := Option.some.inj (hw.symm.trans hw₀)
  exact ⟨hst, hrest pc (List.mem_of_getElem? hpc)⟩

theorem resuming_mem_idlers {i : ℕ} {fd : Fd} (h : s.dispatching.resuming = some (i, fd)) :
    i ∈ s.idlers := by
  cases hpc : s.dispatching <;> simp [hpc, DispatchPc.resuming] at h
  all_goals simp [idlers, hpc, DispatchPc.worker, h.1]

theorem Owned.move {wk' : Worker} {pc' : RunPc} (ho : s.Owned) (hw : s.heap[w]? = some wk)
    (hpc : wk.threads[k]? = some pc) (hheap : s'.heap = s.heap.set w wk')
    (hthreads : wk'.threads = wk.threads.set k pc')
    (hagree : pc.agrees wk.state = true → pc'.agrees wk'.state = true)
    (hrest : pc.resting = true → wk.state = .sleepWait →
      pc'.resting = true ∧ wk'.state = .sleepWait ∧ wk'.receiverSocket = wk.receiverSocket)
    (hfree : s'.freeWorkers = s.freeWorkers) (hdisp : s'.dispatching = s.dispatching)
    (hadd : s'.adding = s.adding) (hstop : s'.stopping = s.stopping) : s'.Owned := by
  have hidlers : s'.idlers = s.idlers := by unfold idlers; rw [hfree, hdisp, hadd]
  have hlen := (List.getElem?_eq_some_iff.mp hw).1
  obtain ⟨rfl, hone, hpc₀⟩ := (ho.tended wk (List.mem_of_getElem? hw)).single hpc
  have hone' : wk'.threads = [pc'] := by rw [hthreads, hone, List.set_cons_zero]
  have hwk' : s'.heap[w]? = some wk' := by rw [hheap, List.getElem?_set_self hlen]
  have hother : ∀ i, i ≠ w → s'.heap[i]? = s.heap[i]? := fun i hne => by
    rw [hheap, List.getElem?_set_ne (Ne.symm hne)]
  refine ⟨?_, by rw [hidlers]; exact ho.nodup, ?_, ?_, hstop.trans ho.running⟩
  · rw [hheap]
    exact forall_mem_set ho.tended ⟨pc', hone', hagree hpc₀⟩
  · intro i hi
    rw [hidlers] at hi
    by_cases hiw : i = w
    · subst hiw
      obtain ⟨hst, hres⟩ := ho.resting hw hpc hi
      obtain ⟨hres', hst', -⟩ := hrest hres hst
      exact ⟨wk', hwk', hst', by simpa [hone'] using hres'⟩
    · rw [hother i hiw]
      exact ho.parked i hi
  · intro i fd h
    rw [hdisp] at h
    obtain ⟨wki, hwi, hsock⟩ := ho.assigned i fd h
    by_cases hiw : i = w
    · subst hiw
      obtain rfl : wk = wki := Option.some.inj (hw.symm.trans hwi)
      obtain ⟨hst, hres⟩ := ho.resting hw hpc (resuming_mem_idlers h)
      exact ⟨wk', hwk', (hrest hres hst).2.2.trans hsock⟩
    · rw [hother i hiw]
      exact ⟨wki, hwi, hsock⟩

theorem Owned.returnFree (ho : s.Owned) (hw : s.heap[w]? = some wk)
    (hpc : wk.threads[k]? = some .returnFree) :
    Owned { s.put w (wk.jump k .loop) with freeWorkers := s.freeWorkers ++ [w] } := by
  have hlen := (List.getElem?_eq_some_iff.mp hw).1
  obtain ⟨rfl, hone, hagree⟩ := (ho.tended wk (List.mem_of_getElem? hw)).single hpc
  have hst : wk.state = .sleepWait := by simpa [RunPc.agrees] using hagree
  have hnew : w ∉ s.idlers := fun hidle => by
    simpa [RunPc.resting] using (ho.resting hw hpc hidle).2
  have hperm : ({ s.put w (wk.jump 0 .loop) with
      freeWorkers := s.freeWorkers ++ [w] } : System).idlers.Perm (w :: s.idlers) := by
    simp only [idlers, List.append_assoc]
    exact List.perm_middle
  have hother : ∀ i, i ≠ w → (s.heap.set w (wk.jump 0 .loop))[i]? = s.heap[i]? := fun i hne =>
    List.getElem?_set_ne (Ne.symm hne)
  refine ⟨forall_mem_set ho.tended ⟨.loop, by simp [hone], by simp [hst, RunPc.agrees]⟩,
    hperm.nodup_iff.mpr (List.nodup_cons.mpr ⟨hnew, ho.nodup⟩), ?_, ?_, ho.running⟩
  · intro i hi
    rcases List.mem_cons.mp (hperm.mem_iff.mp hi) with rfl | hi
    · exact ⟨wk.jump 0 .loop, List.getElem?_set_self hlen, hst, by simp [hone, RunPc.resting]⟩
    · have hne : i ≠ w := fun h => hnew (h ▸ hi)
      simp only [heap_put, hother i hne]
      exact ho.parked i hi
  · intro i fd h
    have hne : i ≠ w := fun h' => hnew (h' ▸ resuming_mem_idlers h)
    simp only [heap_put, hother i hne]
    exact ho.assigned i fd h

theorem Owned.run (ho : s.Owned) (hw : s.heap[w]? = some wk) (hpc : wk.threads[k]? = some pc)
    (hm : RunMove s w wk k pc s') : s'.Owned := by
  cases hm with
  | unset | popEmpty => exact { ho with }
  | seeResume hst =>
    refine ho.move hw hpc rfl rfl (by simp [RunPc.agrees, hst]) ?_ rfl rfl rfl rfl
    simp [hst]
  | seeTerminate hst =>
    refine ho.move hw hpc rfl rfl (by simp [RunPc.agrees, hst]) ?_ rfl rfl rfl rfl
    simp [hst]
  | seeSleep =>
    exact ho.move hw hpc rfl rfl id (fun _ hst => ⟨rfl, hst, rfl⟩) rfl rfl rfl rfl
  | wake =>
    exact ho.move hw hpc rfl rfl id (fun _ hst => ⟨rfl, hst, rfl⟩) rfl rfl rfl rfl
  | returnFree => exact ho.returnFree hw hpc
  | _ =>
    exact ho.move hw hpc rfl rfl (by simp +contextual [RunPc.agrees]) (by simp [RunPc.resting])
      rfl rfl rfl rfl

theorem Owned.frame (ho : s.Owned) (hheap : s'.heap = s.heap)
    (hidlers : s'.idlers.Perm s.idlers)
    (hassigned : ∀ x ∈ s'.dispatching.resuming, x ∈ s.dispatching.resuming)
    (hstop : s'.stopping = s.stopping) : s'.Owned where
  tended := by rw [hheap]; exact ho.tended
  nodup := hidlers.nodup_iff.mpr ho.nodup
  parked i hi := by rw [hheap]; exact ho.parked i (hidlers.mem_iff.mp hi)
  assigned i fd h := by rw [hheap]; exact ho.assigned i fd (hassigned _ h)
  running := hstop.trans ho.running

theorem Owned.assign {v : ℕ} {fd : Fd} (ho : s.Owned) (hv : s.heap[v]? = some wk)
    (hheap : s'.heap = s.heap.set v (wk.setSocket fd)) (hidlers : s'.idlers = s.idlers)
    (hassigned : s'.dispatching.resuming = some (v, fd)) (hstop : s'.stopping = s.stopping) :
    s'.Owned := by
  have hlen := (List.getElem?_eq_some_iff.mp hv).1
  have hself : s'.heap[v]? = some (wk.setSocket fd) := by rw [hheap, List.getElem?_set_self hlen]
  refine ⟨?_, by rw [hidlers]; exact ho.nodup, ?_, ?_, hstop.trans ho.running⟩
  · rw [hheap]
    exact forall_mem_set ho.tended (ho.tended wk (List.mem_of_getElem? hv))
  · intro i hi
    rw [hidlers] at hi
    obtain ⟨wki, hwi, hpark⟩ := ho.parked i hi
    by_cases hiv : i = v
    · subst hiv
      obtain rfl : wk = wki := Option.some.inj (hv.symm.trans hwi)
      exact ⟨_, hself, hpark⟩
    · exact ⟨wki, by rw [hheap, List.getElem?_set_ne (Ne.symm hiv)]; exact hwi, hpark⟩
  · intro i fd' h
    obtain ⟨rfl, rfl⟩ : v = i ∧ fd = fd' := by simpa [hassigned] using h
    exact ⟨_, hself, rfl⟩

theorem Owned.resume {v : ℕ} (ho : s.Owned) (hv : s.heap[v]? = some wk)
    (hhand : s.dispatching.worker = some v)
    (hheap : s'.heap = s.heap.set v (wk.setState .resume))
    (hfree : s'.freeWorkers = s.freeWorkers) (hdisp : s'.dispatching.worker = none)
    (hadd : s'.adding = s.adding) (hassigned : s'.dispatching.resuming = none)
    (hstop : s'.stopping = s.stopping) : s'.Owned := by
  have hperm : s.idlers.Perm (v :: s'.idlers) := by
    simp only [idlers, hfree, hdisp, hadd, hhand, Option.toList_some, Option.toList_none,
      List.nil_append, List.singleton_append]
    exact List.perm_middle
  have hnodup := List.nodup_cons.mp (hperm.nodup_iff.mp ho.nodup)
  have hmem : v ∈ s.idlers := hperm.mem_iff.mpr List.mem_cons_self
  obtain ⟨wk₀, hw₀, -, hrest⟩ := ho.parked v hmem
  obtain rfl : wk = wk₀ := Option.some.inj (hv.symm.trans hw₀)
  obtain ⟨pc, hone, -⟩ := ho.tended wk (List.mem_of_getElem? hv)
  refine ⟨?_, hnodup.2, ?_, by simp [hassigned], hstop.trans ho.running⟩
  · rw [hheap]
    refine forall_mem_set ho.tended ⟨pc, hone, ?_⟩
    have hpc := hrest pc (by simp [hone])
    cases pc <;> simp [RunPc.resting, RunPc.agrees] at hpc ⊢
  · intro i hi
    have hiv : v ≠ i := fun h => hnodup.1 (h ▸ hi)
    rw [hheap, List.getElem?_set_ne hiv]
    exact ho.parked i (hperm.mem_iff.mpr (List.mem_cons_of_mem _ hi))

theorem Owned.create {slotId : ℕ} (ho : s.Owned)
    (hheap : s'.heap = s.heap ++ [Worker.created slotId])
    (hidlers : s'.idlers.Perm (s.heap.length :: s.idlers))
    (hassigned : s'.dispatching.resuming = s.dispatching.resuming)
    (hstop : s'.stopping = s.stopping) : s'.Owned := by
  have hlt : ∀ i ∈ s.idlers, i < s.heap.length := fun i hi => by
    obtain ⟨wk, hw, -⟩ := ho.parked i hi
    exact (List.getElem?_eq_some_iff.mp hw).1
  have hnew : s.heap.length ∉ s.idlers := fun h => Nat.lt_irrefl _ (hlt _ h)
  refine ⟨?_, hidlers.nodup_iff.mpr (List.nodup_cons.mpr ⟨hnew, ho.nodup⟩), ?_, ?_,
    hstop.trans ho.running⟩
  · rw [hheap]
    intro wk hwk
    rcases List.mem_append.mp hwk with hwk | hwk
    · exact ho.tended wk hwk
    · obtain rfl := List.mem_singleton.mp hwk
      exact Worker.tended_created slotId
  · intro i hi
    rw [hheap]
    rcases List.mem_cons.mp (hidlers.mem_iff.mp hi) with rfl | hi
    · exact ⟨_, List.getElem?_concat_length, Worker.parked_created slotId⟩
    · rw [List.getElem?_append_left (hlt i hi)]
      exact ho.parked i hi
  · intro i fd h
    rw [hassigned] at h
    rw [hheap, List.getElem?_append_left (hlt i (resuming_mem_idlers h))]
    exact ho.assigned i fd h

theorem Owned.dispatch (ho : s.Owned) (hok : s.dispatching.creatingAgain = false)
    (hm : DispatchMove s s.dispatching s') : s'.Owned := by
  generalize hpc : s.dispatching = pc at hm hok
  cases hm with
  | notFound => exact { ho with }
  | getFree fd evs w ws _ hfree =>
    refine ho.frame rfl ?_ (by simp [DispatchPc.resuming]) rfl
    simp only [idlers, hpc, hfree, DispatchPc.worker, Option.toList_some, Option.toList_none,
      List.nil_append, List.cons_append]
    exact List.perm_middle
  | assignFree v fd evs wk hv | assignNew v fd evs wk hv =>
    exact ho.assign hv rfl (by simp [idlers, hpc, DispatchPc.worker]) rfl rfl
  | resumeFree v fd evs wk hv | resumeNew v fd evs wk hv =>
    exact ho.resume hv (by rw [hpc]; rfl) rfl rfl rfl rfl rfl rfl
  | createNew fd evs =>
    refine ho.create rfl ?_ (by rw [hpc]; rfl) rfl
    simp only [idlers, hpc, DispatchPc.worker, Option.toList_some, Option.toList_none,
      List.nil_append, List.singleton_append, freeWorkers_newWorker, adding_newWorker]
    exact List.perm_middle
  | createAgain => simp [DispatchPc.creatingAgain] at hok
  | _ =>
    refine ho.frame rfl ?_ (by simp [DispatchPc.resuming]) rfl
    simp [idlers, hpc, DispatchPc.worker]

theorem Owned.add (ho : s.Owned) (hm : AddMove s s.adding s') : s'.Owned := by
  generalize hpc : s.adding = pc at hm
  cases hm with
  | createNew k =>
    refine ho.create rfl ?_ rfl rfl
    simp only [idlers, hpc, AddPc.worker, Option.toList_some, Option.toList_none,
      List.append_nil, ← List.append_assoc, freeWorkers_newWorker, dispatching_newWorker]
    exact List.perm_append_singleton _ _
  | pushFree w k =>
    refine ho.frame rfl ?_ (fun _ => id) rfl
    simp only [idlers, hpc, AddPc.worker, Option.toList_some, Option.toList_none,
      List.append_nil, List.append_assoc]
    exact (List.perm_append_comm).append_left _
  | _ =>
    refine ho.frame rfl ?_ (fun _ => id) rfl
    simp [idlers, hpc, AddPc.worker]

theorem Owned.step {a : Action} (ho : s.Owned) (hok : s.CreatesOnce a)
    (hs : s.step a = some s') : s'.Owned := by
  cases (step_move hs).2 with
  | processData evs hidle =>
    refine ho.frame rfl ?_ (by simp [DispatchPc.resuming]) rfl
    simp [idlers, hidle, DispatchPc.worker]
  | dispatch pc s' hpc hm => exact ho.dispatch hok (hpc ▸ hm)
  | addWorkers count hidle =>
    refine ho.frame rfl ?_ (fun _ => id) rfl
    simp [idlers, hidle, AddPc.worker]
  | add pc s' hpc hm => exact ho.add (hpc ▸ hm)
  | stop _ => exact hok.elim
  | sweep pc s' hpc hm =>
    rw [ho.running] at hpc
    subst hpc
    cases hm
  | thread w k wk pc s' hw hpc hm => exact ho.run hw hpc hm
  | _ => exact { ho with }

end System
end MddProxy
