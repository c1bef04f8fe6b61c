import MddProxy.Dispatch.Ownership
import MddProxy.Dispatch.PendingQueue

/-!
# Every event is dispatched once

An event that `ProcessData` has consumed is in exactly one place: in its hand, in
the pending queue, under way in one worker, or already given to a `ReceiveData`
call. Every step moves events between these places and none loses or copies one.
-/
namespace MddProxy

/-- The event that a thread at this point is about to serve or to store. -/
def RunPc.carries (wk : Worker) : RunPc → List Fd
  | .loop | .paused => if wk.state = .resume then wk.receiverSocket.toList else []
  | .receiving => wk.receiverSocket.toList
  | .store fd => [fd]
  | .recvfrom _ _ | .sending _ _ _ | .countPending | .setResume | .pop | .setSleep
  | .returnFree | .exited => []

def Worker.inFlight (wk : Worker) : List Fd := wk.threads.flatMap (RunPc.carries wk)

/-- The `receiverSocket` of a worker in state `RESUME` that has not started on it. -/
def Worker.awaiting (wk : Worker) : List Fd :=
  if wk.state = .resume ∧ wk.threads.all RunPc.unstarted = true then wk.receiverSocket.toList
  else []

theorem Worker.inFlight_single {wk : Worker} (pc : RunPc) (h : wk.threads = [pc]) :
    wk.inFlight = pc.carries wk := by
  simp [Worker.inFlight, h]

theorem Worker.Tended.inFlight_eq_awaiting {wk : Worker} (ht : wk.Tended)
    (hc : ∀ pc ∈ wk.threads, pc.completing = false) : wk.inFlight = wk.awaiting := by
  obtain ⟨pc, hone, hagree⟩ := ht
  have hpc := hc pc (by simp [hone])
  rw [Worker.inFlight_single _ hone, Worker.awaiting, hone]
  cases pc <;>
    simp [RunPc.completing, RunPc.agrees, RunPc.carries, RunPc.unstarted] at hpc hagree ⊢
  simp [hagree]

namespace System

open Interleaving

variable {s s' : System} {w k : ℕ} {wk : Worker} {pc : RunPc}

/-- The sockets that workers in state `RESUME` have not started on. -/
def awaiting (s : System) : List Fd := s.heap.flatMap Worker.awaiting

/-- How many events of `fd` there are in all the places an event can be. -/
def whereabouts (s : System) (fd : Fd) : ℕ :=
  s.started.count fd + List.count fd s.pendingItems + s.dispatching.hand.toList.count fd +
    weigh (fun wk => wk.inFlight.count fd) s.heap

def Conserved (s : System) : Prop := ∀ fd, s.consumed.count fd = s.whereabouts fd

theorem conserved_start (count : ℕ) (senders : Fd → Option ℕ) (junk : Junk) :
    (start count senders junk).Conserved := by
  intro fd
  have hzero : weigh (fun wk => wk.inFlight.count fd) (start count senders junk).heap = 0 := by
    rw [weigh_eq_zero]
    intro wk hwk
    obtain ⟨i, -, rfl⟩ := List.mem_map.mp hwk
    simp [Worker.inFlight, RunPc.carries]
  rw [whereabouts, hzero]
  simp [start, DispatchPc.hand]

theorem Conserved.put {wk' : Worker} (hc : s.Conserved) (hw : s.heap[w]? = some wk)
    (hheap : s'.heap = s.heap.set w wk') (hconsumed : s'.consumed = s.consumed)
    (hbalance : ∀ fd, s'.started.count fd + List.count fd s'.pendingItems +
        s'.dispatching.hand.toList.count fd + wk'.inFlight.count fd =
      s.started.count fd + List.count fd s.pendingItems +
        s.dispatching.hand.toList.count fd + wk.inFlight.count fd) : s'.Conserved := by
  intro fd
  have hset := weigh_set (fun wk => wk.inFlight.count fd) wk' hw
  have hold := hc fd
  have hbal := hbalance fd
  rw [whereabouts] at hold ⊢
  rw [hconsumed, hheap]
  omega

theorem Conserved.keep {wk' : Worker} (hc : s.Conserved) (hw : s.heap[w]? = some wk)
    (hheap : s'.heap = s.heap.set w wk') (hconsumed : s'.consumed = s.consumed)
    (hstarted : s'.started = s.started) (hpending : s'.pendingItems = s.pendingItems)
    (hhand : s'.dispatching.hand = s.dispatching.hand) (hflight : wk'.inFlight = wk.inFlight) :
    s'.Conserved :=
  hc.put hw hheap hconsumed fun fd => by rw [hstarted, hpending, hhand, hflight]

theorem Conserved.run (hc : s.Conserved) (ho : s.Owned) (hw : s.heap[w]? = some wk)
    (hpc : wk.threads[k]? = some pc) (hm : RunMove s w wk k pc s') : s'.Conserved := by
  obtain ⟨rfl, hone, hagree⟩ := (ho.tended wk (List.mem_of_getElem? hw)).single hpc
  have hflight := Worker.inFlight_single _ hone
  have hjump : ∀ pc', (wk.jump 0 pc').inFlight = pc'.carries (wk.jump 0 pc') := fun pc' =>
    Worker.inFlight_single _ (by simp [hone])
  cases hm with
  | unset | popEmpty => exact hc
  | seeResume hst =>
    refine hc.keep hw rfl rfl rfl rfl rfl ?_
    rw [hjump, hflight]
    simp [RunPc.carries, hst]
  | seeSleep hst =>
    refine hc.keep hw rfl rfl rfl rfl rfl ?_
    rw [hjump, hflight]
    rfl
  | seeTerminate hst => simp [RunPc.agrees, hst] at hagree
  | wake hst =>
    refine hc.keep hw rfl rfl rfl rfl rfl ?_
    rw [hjump, hflight]
    rfl
  | call fd hr =>
    refine hc.put hw rfl rfl fun x => ?_
    rw [hjump, hflight]
    simp only [RunPc.carries, hr, List.count_append, Option.toList_some, List.count_nil,
      pendingItems_put, dispatching_put]
    omega
  | pop fd rest hp =>
    refine hc.put hw rfl rfl fun x => ?_
    rw [hjump, hflight, hp]
    simp only [RunPc.carries, List.count_cons, List.count_nil, started_put, dispatching_put]
    omega
  | store fd =>
    refine hc.keep hw rfl rfl rfl rfl rfl ?_
    have hst : wk.state = .resume := by simpa [RunPc.agrees] using hagree
    rw [hflight, Worker.inFlight_single .loop (by simp [hone])]
    simp [RunPc.carries, hst]
  | setResume =>
    refine hc.keep hw rfl rfl rfl rfl rfl ?_
    rw [hflight, Worker.inFlight_single .pop (by simp [hone])]
    rfl
  | setSleep =>
    refine hc.keep hw rfl rfl rfl rfl rfl ?_
    rw [hflight, Worker.inFlight_single .returnFree (by simp [hone])]
    rfl
  | returnFree =>
    refine hc.keep hw rfl rfl rfl rfl rfl ?_
    have hst : wk.state = .sleepWait := by simpa [RunPc.agrees] using hagree
    rw [hjump, hflight]
    simp [RunPc.carries, hst]
  | _ =>
    refine hc.keep hw rfl rfl rfl rfl rfl ?_
    rw [hjump, hflight]
    rfl

theorem Conserved.frame (hc : s.Conserved) (hheap : s'.heap = s.heap)
    (hbalance : ∀ fd, s'.started.count fd + List.count fd s'.pendingItems +
        s'.dispatching.hand.toList.count fd + s.consumed.count fd =
      s.started.count fd + List.count fd s.pendingItems +
        s.dispatching.hand.toList.count fd + s'.consumed.count fd) : s'.Conserved := by
  intro fd
  have hold := hc fd
  have hbal := hbalance fd
  rw [whereabouts] at hold ⊢
  rw [hheap]
  omega

theorem Conserved.create {slotId : ℕ} (hc : s.Conserved)
    (hheap : s'.heap = s.heap ++ [Worker.created slotId]) (hconsumed : s'.consumed = s.consumed)
    (hstarted : s'.started = s.started) (hpending : s'.pendingItems = s.pendingItems)
    (hhand : s'.dispatching.hand = s.dispatching.hand) : s'.Conserved := by
  intro fd
  have hold := hc fd
  have hnew : (Worker.created slotId).inFlight = [] := by simp [Worker.inFlight, RunPc.carries]
  rw [whereabouts] at hold ⊢
  rw [hheap, hconsumed, hstarted, hpending, hhand, weigh_append, weigh_cons, hnew]
  simpa using hold

theorem Conserved.dispatch (hc : s.Conserved) (ho : s.Owned)
    (hok : s.dispatching.creatingAgain = false) (hm : DispatchMove s s.dispatching s') :
    s'.Conserved := by
  have hassigned := ho.assigned
  have hparked : ∀ i, s.dispatching.worker = some i → ∃ wk ∈ s.heap[i]?, wk.Parked :=
    fun i hi => ho.parked i (by simp [idlers, hi])
  generalize hpc : s.dispatching = pc at hm hok hassigned hparked
  cases hm with
  | found fd evs f _ =>
    refine hc.frame rfl fun x => ?_
    simp only [hpc, DispatchPc.hand, Option.toList_some, Option.toList_none, List.count_append,
      List.count_nil]
    omega
  | push fd evs =>
    refine hc.frame rfl fun x => ?_
    simp only [hpc, DispatchPc.hand, Option.toList_some, Option.toList_none, List.count_append,
      List.count_nil]
    omega
  | assignFree v fd evs wk hv | assignNew v fd evs wk hv =>
    obtain ⟨wk₀, hv₀, hst, -⟩ := hparked v rfl
    obtain rfl : wk = wk₀ := Option.some.inj (hv.symm.trans hv₀)
    obtain ⟨pc, hone, hagree⟩ := ho.tended wk (List.mem_of_getElem? hv)
    refine hc.keep hv rfl rfl rfl rfl (by rw [hpc]; rfl) ?_
    rw [Worker.inFlight_single _ hone, Worker.inFlight_single pc (by exact hone)]
    cases pc <;> simp [RunPc.carries, RunPc.agrees, hst] at hagree ⊢
  | resumeFree v fd evs wk hv | resumeNew v fd evs wk hv =>
    obtain ⟨wk₀, hv₀, hst, hrest⟩ := hparked v rfl
    obtain rfl : wk = wk₀ := Option.some.inj (hv.symm.trans hv₀)
    obtain ⟨wk₁, hv₁, hsock⟩ := hassigned v fd rfl
    obtain rfl : wk = wk₁ := Option.some.inj (hv.symm.trans hv₁)
    obtain ⟨pc, hone, -⟩ := ho.tended wk (List.mem_of_getElem? hv)
    have hpcr := hrest pc (by simp [hone])
    refine hc.put hv rfl rfl fun x => ?_
    -- the event leaves the hand for the control slot of a parked worker
    have hbefore : wk.inFlight = [] := by
      rw [Worker.inFlight_single _ hone]
      cases pc <;> simp [RunPc.resting, RunPc.carries, hst] at hpcr ⊢
    have hafter : (wk.setState .resume).inFlight = [fd] := by
      rw [Worker.inFlight_single pc (by exact hone)]
      cases pc <;> simp [RunPc.resting, RunPc.carries, hsock] at hpcr ⊢
    simp only [hbefore, hafter, hpc, DispatchPc.hand, Option.toList_some, Option.toList_none,
      List.count_nil, started_put, pendingItems_put]
    omega
  | createNew fd evs => exact hc.create rfl rfl rfl rfl (by rw [hpc]; rfl)
  | createAgain => simp [DispatchPc.creatingAgain] at hok
  | notFound => exact hc
  | _ => exact hc.frame rfl fun x => by simp [hpc, DispatchPc.hand]

theorem Conserved.step {a : Action} (hc : s.Conserved) (ho : s.Owned) (hok : s.CreatesOnce a)
    (hs : s.step a = some s') : s'.Conserved := by
  cases (step_move hs).2 with
  | processData evs hidle => exact hc.frame rfl fun x => by simp [hidle, DispatchPc.hand]
  | dispatch pc s' hpc hm => exact hc.dispatch ho hok (hpc ▸ hm)
  | add pc s' _ hm =>
    cases hm with
    | createNew k => exact hc.create rfl rfl rfl rfl rfl
    | _ => exact hc
  | stop _ => exact hok.elim
  | sweep pc s' hpc hm =>
    rw [ho.running] at hpc
    subst hpc
    cases hm
  | thread w k wk pc s' hw hpc hm => exact hc.run ho hw hpc hm
  | _ => exact hc

/-- **Every event is dispatched once** in a run that creates each worker once: between
iterations of `ProcessData` and outside `OnWorkComplete`, the consumed events are those
started, those pending and those a resumed worker has not started on. -/
theorem events_dispatched_once {count : ℕ} {senders : Fd → Option ℕ} {junk : Junk}
    (h : Reaches step CreatesOnce (start count senders junk) s)
    (hd : s.dispatching.betweenEvents = true) (hw : threadsAt RunPc.completing s.heap = 0) :
    s.consumed.Perm (s.started ++ s.pendingItems ++ s.awaiting) := by
  obtain ⟨ho, hc⟩ : s.Owned ∧ s.Conserved :=
    h.invariant (I := fun s => s.Owned ∧ s.Conserved)
      ⟨owned_start count senders junk, conserved_start count senders junk⟩
      fun _ _ _ hi hok hs => ⟨hi.1.step hok hs, hi.2.step hi.1 hok hs⟩
  rw [List.perm_iff_count]
  intro fd
  have hhand : s.dispatching.hand = none := by
    cases hpc : s.dispatching <;> simp [hpc, DispatchPc.betweenEvents, DispatchPc.hand] at hd ⊢
  have hflight : weigh (fun wk => wk.inFlight.count fd) s.heap = s.awaiting.count fd := by
    rw [awaiting, List.count_flatMap, weigh]
    congr 1
    refine List.map_congr_left fun wk hwk => ?_
    rw [(ho.tended wk hwk).inFlight_eq_awaiting (threadsAt_eq_zero.mp hw wk hwk)]
    rfl
  rw [hc fd, whereabouts, hhand, hflight]
  simp only [Option.toList_none, List.count_nil, List.count_append]
  omega

theorem events_dispatched_once_two_events :
    ∃ s, Reaches step CreatesOnce elevenReceivers s ∧ s.started = [0] ∧
      s.consumed.Perm (s.started ++ s.pendingItems ++ s.awaiting) := by
  obtain ⟨s, hs, hd, hw, hstarted⟩ : ∃ s, Reaches step CreatesOnce elevenReceivers s ∧
      s.dispatching.betweenEvents = true ∧ threadsAt RunPc.completing s.heap = 0 ∧
      s.started = [0] :=
    exists_reaches_of_runChecked
      (.processData [0, 1] :: List.replicate 8 .dispatch ++ List.replicate 2 (.thread 0 0))
      (by decide)
  exact ⟨s, hs, hstarted, events_dispatched_once hs hd hw⟩

/-- The worker created for the sixth event gets two threads, and both start
`ReceiveData` on its socket. -/
theorem event_served_twice_reachable :
    ¬ ∀ s, Reaches step (fun _ a => a ≠ .stop) elevenReceivers s →
      s.dispatching.betweenEvents = true → threadsAt RunPc.completing s.heap = 0 →
      s.consumed.Perm (s.started ++ s.pendingItems ++ s.awaiting) := by
  intro hstated
  obtain ⟨s, hs, hd, hw, htwice⟩ : ∃ s, Reaches step (fun _ a => a ≠ .stop) elevenReceivers s ∧
      s.dispatching.betweenEvents = true ∧ threadsAt RunPc.completing s.heap = 0 ∧
      ¬ s.consumed.Perm (s.started ++ s.pendingItems ++ s.awaiting) :=
    exists_reaches_of_runChecked
      (.processData (List.range 6) :: List.replicate 30 .dispatch ++
        List.replicate 2 (.thread 5 0) ++ List.replicate 2 (.thread 5 1)) (by decide)
  exact htwice (hstated s hs hd hw)

end System
end MddProxy
