import MddProxy.Dispatch.IdleWorkers
import MddProxy.Dispatch.Ownership
import Mathlib.Data.List.Nodup

/-!
# The free and the busy workers

`GetFreeWorker` moves a worker from the free list to the busy list, while
`RecordNewBusyWorker`, `ReturnFreeWorker` and `AddWorkers` only push. A step adds at
most one entry to the two lists, for a worker made by the step or for one that returns
itself; the latter stands in the busy list already, and nothing ever leaves that list.
-/
namespace MddProxy

/-- The new worker that `ProcessData` has not given to `RecordNewBusyWorker` yet. -/
def DispatchPc.unrecorded : DispatchPc → Option ℕ
  | .pushWorker w _ _ | .countWorker w _ _ | .assignNew w _ _ | .resumeNew w _ _ => some w
  | .recordBusy w _ _ => some w
  | _ => none

/-- The worker that `ProcessData` took from the free list and has not resumed yet. -/
def DispatchPc.taken : DispatchPc → Option ℕ
  | .assignFree w _ _ | .resumeFree w _ _ => some w
  | _ => none

/-- The new worker that `CreateNewWorker` has not appended to `workers` yet. -/
def DispatchPc.unenrolled : DispatchPc → Option ℕ
  | .pushWorker w _ _ => some w
  | _ => none

def AddPc.unenrolled : AddPc → Option ℕ
  | .pushWorker w _ => some w
  | _ => none

namespace System

open Interleaving

variable {s s' : System} {w k : ℕ} {wk : Worker} {pc : RunPc}

/-- The guard: no worker gets to its `ReturnFreeWorker`, and `WakeUpAllThreads` is not
called. -/
def NeverReturns (s : System) : Action → Prop
  | .thread w k => s.pcAt w k ≠ some .returnFree
  | .stop => False
  | _ => True

instance (s : System) (a : Action) : Decidable (s.NeverReturns a) :=
  match a with
  | .thread w k => inferInstanceAs (Decidable (s.pcAt w k ≠ some .returnFree))
  | .stop => .isFalse id
  | .arrive .. | .processData _ | .dispatch | .addWorkers _ | .add | .sweep | .sendFails .. =>
    .isTrue trivial

def NotStopped : System → Action → Prop := fun _ a => a ≠ .stop

instance (s : System) (a : Action) : Decidable (s.NotStopped a) :=
  inferInstanceAs (Decidable (a ≠ .stop))

/-- Every worker is free or busy, once, the free ones sleep and the resumed ones are busy. -/
structure Partitioned (s : System) : Prop where
  once : ∀ w ∈ s.workers, (s.freeWorkers ++ s.busyWorkers).count w = 1
  nodup : (s.freeWorkers ++ s.busyWorkers).Nodup
  length : (s.freeWorkers ++ s.busyWorkers).length ≤ s.workers.length
  free : ∀ w ∈ s.freeWorkers, ∃ wk ∈ s.heap[w]?, wk.state = .sleepWait
  resumed : ∀ w ∈ s.workers, ∀ wk ∈ s.heap[w]?, wk.state = .resume → w ∈ s.busyWorkers

/-- The workers by the list that holds them or is going to. -/
def places (s : System) : List ℕ :=
  s.freeWorkers ++ (s.busyWorkers ++
    (s.dispatching.unrecorded.toList ++ s.adding.worker.toList))

/-- The workers that are in `workers` or on the way into it. -/
def enrolled (s : System) : List ℕ :=
  s.workers ++ (s.dispatching.unenrolled.toList ++ s.adding.unenrolled.toList)

/-- What a step does to the two collections: nothing, a new worker for both, or a worker
that returns itself. -/
inductive Entered (s : System) (a : Action) (s' : System) : Prop
  | none : s'.places.Perm s.places → s'.enrolled.Perm s.enrolled →
      s'.heap.length = s.heap.length → Entered s a s'
  | created : s'.places.Perm (s.heap.length :: s.places) →
      s'.enrolled.Perm (s.heap.length :: s.enrolled) →
      s'.heap.length = s.heap.length + 1 → Entered s a s'
  | returned (w k : ℕ) : a = .thread w k → s.pcAt w k = some .returnFree →
      s'.places.Perm (w :: s.places) → s'.enrolled.Perm s.enrolled →
      s'.heap.length = s.heap.length → Entered s a s'

theorem DispatchMove.entered (hm : DispatchMove s s.dispatching s') :
    Entered s .dispatch s' := by
  generalize hpc : s.dispatching = pc at hm
  cases hm with
  | getFree fd evs w ws _ hfree =>
    refine .none ?_ (by simp [enrolled, hpc, DispatchPc.unenrolled]) rfl
    simp only [places, hpc, hfree, DispatchPc.unrecorded, List.append_assoc, List.cons_append]
    exact (List.perm_middle.append_left ws).trans List.perm_middle
  | createNew fd evs =>
    refine .created ?_ ?_ (by simp)
    · simp only [places, hpc, DispatchPc.unrecorded, freeWorkers_newWorker,
        busyWorkers_newWorker, adding_newWorker, Option.toList_some, Option.toList_none,
        List.nil_append, List.singleton_append]
      exact (List.perm_middle.append_left _).trans List.perm_middle
    · simp only [enrolled, hpc, DispatchPc.unenrolled, workers_newWorker, adding_newWorker,
        Option.toList_some, Option.toList_none, List.nil_append, List.singleton_append]
      exact List.perm_middle
  | pushWorker w fd evs =>
    refine .none (by simp [places, hpc, DispatchPc.unrecorded]) ?_ rfl
    simp [enrolled, hpc, DispatchPc.unenrolled]
  | recordBusy w fd evs =>
    refine .none ?_ (by simp [enrolled, hpc, DispatchPc.unenrolled]) rfl
    simp [places, hpc, DispatchPc.unrecorded]
  | _ =>
    refine .none ?_ ?_ (by simp)
    · simp [places, hpc, DispatchPc.unrecorded]
    · simp [enrolled, hpc, DispatchPc.unenrolled]

theorem AddMove.entered (hm : AddMove s s.adding s') : Entered s .add s' := by
  generalize hpc : s.adding = pc at hm
  cases hm with
  | createNew k =>
    refine .created ?_ ?_ (by simp)
    · simp only [places, hpc, AddPc.worker, freeWorkers_newWorker, busyWorkers_newWorker,
        dispatching_newWorker, Option.toList_some, Option.toList_none, List.append_nil,
        ← List.append_assoc]
      exact List.perm_append_singleton _ _
    · simp only [enrolled, hpc, AddPc.unenrolled, workers_newWorker, dispatching_newWorker,
        Option.toList_some, Option.toList_none, List.append_nil, ← List.append_assoc]
      exact List.perm_append_singleton _ _
  | pushWorker w k =>
    refine .none (by simp [places, hpc, AddPc.worker]) ?_ rfl
    simp only [enrolled, hpc, AddPc.unenrolled, Option.toList_some, Option.toList_none,
      List.append_nil, List.append_assoc]
    exact List.perm_append_comm.append_left _
  | pushFree w k =>
    refine .none ?_ (by simp [enrolled, hpc, AddPc.unenrolled]) rfl
    simp only [places, hpc, AddPc.worker, Option.toList_some, Option.toList_none,
      List.append_nil, List.append_assoc]
    exact (List.perm_append_comm.trans (.of_eq (List.append_assoc _ _ _))).append_left _
  | _ =>
    refine .none ?_ ?_ (by simp)
    · simp [places, hpc, AddPc.worker]
    · simp [enrolled, hpc, AddPc.unenrolled]

theorem RunMove.entered (hw : s.heap[w]? = some wk) (hpc : wk.threads[k]? = some pc)
    (hm : RunMove s w wk k pc s') : Entered s (.thread w k) s' := by
  cases hm with
  | returnFree =>
    refine .returned w k rfl (pcAt_eq_some.mpr ⟨wk, hw, hpc⟩) ?_ (.refl _) (by simp)
    simp only [places, List.append_assoc, List.singleton_append]
    exact List.perm_middle
  | _ => exact .none (.refl _) (.refl _) (by simp)

theorem step_entered {a : Action} (hs : s.step a = some s') : Entered s a s' := by
  cases (step_move hs).2 with
  | processData evs hidle =>
    refine .none ?_ ?_ rfl
    · simp [places, hidle, DispatchPc.unrecorded]
    · simp [enrolled, hidle, DispatchPc.unenrolled]
  | dispatch pc s' hpc hm => exact (hpc ▸ hm).entered
  | addWorkers count hidle =>
    refine .none ?_ ?_ rfl
    · simp [places, hidle, AddPc.worker]
    · simp [enrolled, hidle, AddPc.unenrolled]
  | add pc s' hpc hm => exact (hpc ▸ hm).entered
  | sweep pc s' _ hm => cases hm <;> exact .none (.refl _) (.refl _) (by simp)
  | thread w k wk pc s' hw hpc hm => exact hm.entered hw hpc
  | _ => exact .none (.refl _) (.refl _) rfl

theorem perm_range_succ {l l' : List ℕ} {n : ℕ} (hl' : l'.Perm (n :: l))
    (hl : l.Perm (List.range n)) : l'.Perm (List.range (n + 1)) := by
  rw [List.range_succ]
  exact (hl'.trans (hl.cons n)).trans (List.perm_append_singleton n (List.range n)).symm

theorem enrolled_perm {count : ℕ} {senders : Fd → Option ℕ} {junk : Junk}
    {ok : System → Action → Prop} (h : Reaches step ok (start count senders junk) s) :
    s.enrolled.Perm (List.range s.heap.length) := by
  refine h.invariant (I := fun s => s.enrolled.Perm (List.range s.heap.length)) ?_ ?_
  · simp [start, enrolled, DispatchPc.unenrolled, AddPc.unenrolled]
  · intro s a s' hi _ hs
    cases step_entered hs with
    | none _ he hlen | returned _ _ _ _ _ he hlen => rw [hlen]; exact he.trans hi
    | created _ he hlen =>
      rw [hlen]
      exact perm_range_succ he hi

theorem places_perm {count : ℕ} {senders : Fd → Option ℕ} {junk : Junk}
    (h : Reaches step NeverReturns (start count senders junk) s) :
    s.places.Perm (List.range s.heap.length) := by
  refine h.invariant (I := fun s => s.places.Perm (List.range s.heap.length)) ?_ ?_
  · simp [start, places, DispatchPc.unrecorded, AddPc.worker]
  · intro s a s' hi hok hs
    cases step_entered hs with
    | none hp _ hlen => rw [hlen]; exact hp.trans hi
    | created hp _ hlen =>
      rw [hlen]
      exact perm_range_succ hp hi
    | returned w k ha hpc =>
      subst ha
      exact absurd hpc hok

/-- A worker outside the busy list is parked, and one taken from the free list is busy. -/
structure Engaged (s : System) : Prop where
  idle : ∀ w wk, s.heap[w]? = some wk → w ∉ s.busyWorkers →
    s.dispatching.unrecorded ≠ some w → wk.Parked
  taken : ∀ w, s.dispatching.taken = some w → w ∈ s.busyWorkers
  running : s.stopping = .idle

theorem engaged_start (count : ℕ) (senders : Fd → Option ℕ) (junk : Junk) :
    (start count senders junk).Engaged where
  idle w wk hw _ _ := by
    obtain ⟨i, -, rfl⟩ := List.mem_map.mp (List.mem_of_getElem? hw)
    exact Worker.parked_created i
  taken := by simp [start, DispatchPc.taken]
  running := rfl

theorem parked_run (hp : wk.Parked) (hpc : wk.threads[k]? = some pc)
    (hm : RunMove s w wk k pc s') :
    s' = s.put w (wk.jump k .paused) ∧ (wk.jump k .paused).Parked := by
  obtain ⟨hst, hrest⟩ := hp
  have hresting := hrest pc (List.mem_of_getElem? hpc)
  cases hm with
  | seeSleep => exact ⟨rfl, hst, forall_mem_set hrest rfl⟩
  | seeResume h | seeTerminate h => simp [hst] at h
  | wake h => simp [hst, WorkerState.sleeping] at h
  | _ => simp [RunPc.resting] at hresting

theorem Engaged.write {v : ℕ} {wk' : Worker} (he : s.Engaged) (hv : s.heap[v]? = some wk)
    (hheap : s'.heap = s.heap.set v wk')
    (hsafe : v ∈ s.busyWorkers ∨ s'.dispatching.unrecorded = some v ∨ (wk.Parked → wk'.Parked))
    (hbusy : s'.busyWorkers = s.busyWorkers)
    (hrec : s'.dispatching.unrecorded = s.dispatching.unrecorded)
    (htaken : ∀ i, s'.dispatching.taken = some i → i ∈ s.busyWorkers)
    (hstop : s'.stopping = s.stopping) : s'.Engaged where
  idle i wki hi hnb hnr := by
    rw [hheap] at hi
    rw [hbusy] at hnb
    rcases getElem?_set_cases hi with ⟨rfl, rfl⟩ | ⟨-, hi⟩
    · rcases hsafe with h | h | h
      · exact absurd h hnb
      · exact absurd h hnr
      · exact h (he.idle i wk hv hnb (hrec ▸ hnr))
    · exact he.idle i wki hi hnb (hrec ▸ hnr)
  taken i h := hbusy ▸ htaken i h
  running := hstop.trans he.running

theorem Engaged.frame (he : s.Engaged) (hheap : s'.heap = s.heap)
    (hbusy : ∀ i ∈ s.busyWorkers, i ∈ s'.busyWorkers)
    (hrec : ∀ i, s.dispatching.unrecorded = some i →
      s'.dispatching.unrecorded = some i ∨ i ∈ s'.busyWorkers)
    (htaken : ∀ i, s'.dispatching.taken = some i → i ∈ s'.busyWorkers)
    (hstop : s'.stopping = s.stopping) : s'.Engaged where
  idle i wk hi hnb hnr := by
    rw [hheap] at hi
    refine he.idle i wk hi (fun h => hnb (hbusy i h)) fun h => ?_
    exact (hrec i h).elim hnr hnb
  taken := htaken
  running := hstop.trans he.running

theorem Engaged.create {slotId : ℕ} (he : s.Engaged)
    (hheap : s'.heap = s.heap ++ [Worker.created slotId])
    (hbusy : s'.busyWorkers = s.busyWorkers)
    (hrec : ∀ i, s.dispatching.unrecorded = some i → s'.dispatching.unrecorded = some i)
    (htaken : s'.dispatching.taken = s.dispatching.taken)
    (hstop : s'.stopping = s.stopping) : s'.Engaged where
  idle i wk hi hnb hnr := by
    rw [hheap] at hi
    rw [hbusy] at hnb
    rcases Nat.lt_or_ge i s.heap.length with hlt | hge
    · rw [List.getElem?_append_left hlt] at hi
      exact he.idle i wk hi hnb fun h => hnr (hrec i h)
    · rw [List.getElem?_append_right hge] at hi
      obtain rfl := List.mem_singleton.mp (List.mem_of_getElem? hi)
      exact Worker.parked_created slotId
  taken i h := by
    rw [hbusy]
    exact he.taken i (htaken ▸ h)
  running := hstop.trans he.running

theorem Engaged.run (he : s.Engaged) (hw : s.heap[w]? = some wk)
    (hpc : wk.threads[k]? = some pc) (hm : RunMove s w wk k pc s') : s'.Engaged := by
  by_cases hidle : w ∉ s.busyWorkers ∧ s.dispatching.unrecorded ≠ some w
  · obtain ⟨rfl, hpark⟩ := parked_run (he.idle w wk hw hidle.1 hidle.2) hpc hm
    exact he.write hw rfl (.inr (.inr fun _ => hpark)) rfl rfl he.taken rfl
  · have hsafe : w ∈ s.busyWorkers ∨ s.dispatching.unrecorded = some w := by tauto
    cases hm with
    | unset | popEmpty => exact { he with }
    | _ => exact he.write hw rfl (hsafe.imp id .inl) rfl rfl he.taken rfl

theorem Engaged.dispatch (he : s.Engaged) (hm : DispatchMove s s.dispatching s') :
    s'.Engaged := by
  have htaken := he.taken
  generalize hpc : s.dispatching = pc at hm htaken
  cases hm with
  | notFound => exact { he with }
  | getFree fd evs w ws _ _ =>
    refine he.frame rfl (fun i h => List.mem_append_left _ h)
      (by simp [hpc, DispatchPc.unrecorded]) (fun i h => ?_) rfl
    obtain rfl : w = i := by simpa [DispatchPc.taken] using h
    simp
  | assignFree w fd evs wk hw =>
    exact he.write hw rfl (.inr (.inr id)) rfl (by simp [hpc, DispatchPc.unrecorded]) htaken rfl
  | assignNew w fd evs wk hw =>
    exact he.write hw rfl (.inr (.inr id)) rfl (by simp [hpc, DispatchPc.unrecorded])
      (by simp [DispatchPc.taken]) rfl
  | resumeFree w fd evs wk hw =>
    exact he.write hw rfl (.inl (htaken w rfl)) rfl (by simp [hpc, DispatchPc.unrecorded])
      (by simp [DispatchPc.taken]) rfl
  | resumeNew w fd evs wk hw =>
    exact he.write hw rfl (.inr (.inl rfl)) rfl (by simp [hpc, DispatchPc.unrecorded])
      (by simp [DispatchPc.taken]) rfl
  | createNew fd evs =>
    exact he.create rfl rfl (by simp [hpc, DispatchPc.unrecorded])
      (by simp [hpc, DispatchPc.taken]) rfl
  | recordBusy w fd evs _ =>
    refine he.frame rfl (fun i h => List.mem_append_left _ h) (fun i h => .inr ?_)
      (by simp [DispatchPc.taken]) rfl
    obtain rfl : w = i := by simpa [hpc, DispatchPc.unrecorded] using h
    simp
  | createAgain w fd evs wk hw =>
    refine he.write hw rfl (.inr (.inr fun hp => ⟨hp.1, ?_⟩)) rfl
      (by simp [hpc, DispatchPc.unrecorded]) (by simp [DispatchPc.taken]) rfl
    intro pc hmem
    rcases List.mem_append.mp hmem with hmem | hmem
    · exact hp.2 pc hmem
    · obtain rfl := List.mem_singleton.mp hmem
      rfl
  | _ =>
    exact he.frame rfl (fun _ => id) (by simp [hpc, DispatchPc.unrecorded])
      (by simp [DispatchPc.taken]) rfl

theorem Engaged.step {a : Action} (he : s.Engaged) (hok : a ≠ .stop)
    (hs : s.step a = some s') : s'.Engaged := by
  cases (step_move hs).2 with
  | processData evs hidle =>
    exact he.frame rfl (fun _ => id) (by simp [hidle, DispatchPc.unrecorded])
      (by simp [DispatchPc.taken]) rfl
  | dispatch pc s' hpc hm => exact he.dispatch (hpc ▸ hm)
  | add pc s' _ hm =>
    cases hm with
    | createNew k => exact he.create rfl rfl (fun _ => id) rfl rfl
    | _ => exact { he with }
  | stop _ => exact absurd rfl hok
  | sweep pc s' hpc hm =>
    rw [he.running] at hpc
    subst hpc
    cases hm
  | thread w k wk pc s' hw hpc hm => exact he.run hw hpc hm
  | _ => exact { he with }

variable {count : ℕ} {senders : Fd → Option ℕ} {junk : Junk}

theorem Quiet.places (hq : s.Quiet) : s.places = s.freeWorkers ++ s.busyWorkers := by
  have hd := hq.dispatching
  cases hpc : s.dispatching <;>
    simp [System.places, hpc, hq.adding, DispatchPc.unrecorded, AddPc.worker,
      DispatchPc.betweenEvents] at hd ⊢

theorem Quiet.enrolled (hq : s.Quiet) : s.enrolled = s.workers := by
  have hd := hq.dispatching
  cases hpc : s.dispatching <;>
    simp [System.enrolled, hpc, hq.adding, DispatchPc.unenrolled, AddPc.unenrolled,
      DispatchPc.betweenEvents] at hd ⊢

theorem Quiet.unrecorded (hq : s.Quiet) : s.dispatching.unrecorded = none := by
  have hd := hq.dispatching
  cases hpc : s.dispatching <;> simp [hpc, DispatchPc.unrecorded, DispatchPc.betweenEvents] at hd ⊢

/-- **Free and busy workers partition the pool** in a run in which no worker returns
itself. -/
theorem free_busy_partition (h : Reaches step NeverReturns (start count senders junk) s)
    (hq : s.Quiet) : s.Partitioned := by
  have hplaces := places_perm h
  have henrolled := enrolled_perm h
  rw [hq.places] at hplaces
  rw [hq.enrolled] at henrolled
  have he : s.Engaged := h.invariant (engaged_start count senders junk)
    fun _ a _ he hok hs => he.step (by rintro rfl; exact hok) hs
  have hperm : (s.freeWorkers ++ s.busyWorkers).Perm s.workers := hplaces.trans henrolled.symm
  have hnodup : (s.freeWorkers ++ s.busyWorkers).Nodup :=
    hplaces.nodup_iff.mpr List.nodup_range
  have hlength := Nat.le_of_eq hperm.length_eq
  refine ⟨fun w hw => ?_, hnodup, hlength, fun w hw => ?_, fun w _ wk hwk hst => ?_⟩
  · exact List.count_eq_one_of_mem hnodup (hperm.mem_iff.mpr hw)
  · have hlt : w < s.heap.length :=
      List.mem_range.mp (hplaces.mem_iff.mp (List.mem_append_left _ hw))
    have hnb : w ∉ s.busyWorkers := fun hb => List.disjoint_of_nodup_append hnodup hw hb
    have hwk : s.heap[w]? = some s.heap[w] := List.getElem?_eq_getElem hlt
    exact ⟨_, hwk, (he.idle w _ hwk hnb (by simp [hq.unrecorded])).1⟩
  · by_contra hnb
    have := (he.idle w wk hwk hnb (by simp [hq.unrecorded])).1
    simp [hst] at this

/-- Six events on five free workers: the sixth creates a worker. -/
theorem free_busy_partition_six_events :
    ∃ s, Reaches step NeverReturns elevenReceivers s ∧ s.workers.length = 6 ∧
      s.busyWorkers.length = 6 ∧ s.Partitioned := by
  obtain ⟨s, hs, hq, hw, hb⟩ : ∃ s, Reaches step NeverReturns elevenReceivers s ∧ s.Quiet ∧
      s.workers.length = 6 ∧ s.busyWorkers.length = 6 :=
    exists_reaches_of_runChecked
      (.processData (List.range 6) :: List.replicate 31 .dispatch ++
        List.replicate 2 (.thread 0 0)) (by decide)
  exact ⟨s, hs, hw, hb, free_busy_partition hs hq⟩

theorem count_places_le {a : Action} (hs : s.step a = some s') (w : ℕ) :
    s.places.count w ≤ s'.places.count w := by
  cases step_entered hs with
  | none hp _ _ => exact Nat.le_of_eq (hp.count_eq w).symm
  | created hp _ _ | returned _ _ _ _ hp _ _ =>
    rw [hp.count_eq]
    exact List.count_le_count_cons

/-- A worker that returns itself gets a second entry. -/
theorem two_le_count_of_returned (he : s.Engaged) (hpc : s.pcAt w k = some .returnFree)
    (hs : s.step (.thread w k) = some s') : 2 ≤ s'.places.count w := by
  obtain ⟨wk, hw, hk⟩ := pcAt_eq_some.mp hpc
  have hnot : ¬ wk.Parked := fun hp => by
    have := hp.2 _ (List.mem_of_getElem? hk)
    simp [RunPc.resting] at this
  have hplace : w ∈ s.busyWorkers ∨ s.dispatching.unrecorded = some w := by
    by_contra hne
    obtain ⟨hnb, hnr⟩ := not_or.mp hne
    exact hnot (he.idle w wk hw hnb hnr)
  have hmem : w ∈ s.places := by
    simp only [places, List.mem_append, Option.mem_toList]
    tauto
  have hcount : 1 ≤ s.places.count w := List.count_pos_iff.mpr hmem
  cases (step_move hs).2 with
  | thread w k wk' pc s' hw' hk' hm =>
    obtain rfl : wk = wk' := Option.some.inj (hw.symm.trans hw')
    obtain rfl : .returnFree = pc := Option.some.inj (hk.symm.trans hk')
    cases hm with
    | returnFree =>
      simp only [places, List.count_append, List.count_singleton_self, busyWorkers_put,
        dispatching_put, adding_put] at hcount ⊢
      omega

/-- The condition is exact: once a worker has returned itself, no quiet state is
partitioned any more. -/
theorem returned_not_partitioned {t : System}
    (h : Reaches step NotStopped (start count senders junk) s)
    (hpc : s.pcAt w k = some .returnFree) (hs : s.step (.thread w k) = some s')
    (ht : Reaches step anyStep s' t) (hq : t.Quiet) : ¬ t.Partitioned := by
  have he : s.Engaged := h.invariant (engaged_start count senders junk)
    fun _ _ _ he hok hs => he.step hok hs
  have htwo : 2 ≤ t.places.count w :=
    ht.invariant (I := fun t => 2 ≤ t.places.count w) (two_le_count_of_returned he hpc hs)
      fun _ _ _ hi _ hs => Nat.le_trans hi (count_places_le hs w)
  intro hp
  have := List.nodup_iff_count_le_one.mp hp.nodup w
  rw [hq.places] at htwo
  omega

/-- Worker 0 serves one event and returns itself: it is free and busy. -/
theorem free_and_busy_reachable :
    ¬ ∀ s, Reaches step NotStopped elevenReceivers s → s.Quiet → s.Partitioned := by
  intro hstated
  obtain ⟨s, hs, hq, hboth⟩ : ∃ s, Reaches step NotStopped elevenReceivers s ∧ s.Quiet ∧
      ¬ (s.freeWorkers ++ s.busyWorkers).Nodup :=
    exists_reaches_of_runChecked
      (.processData [0] :: List.replicate 5 .dispatch ++ List.replicate 6 (.thread 0 0))
      (by decide)
  exact hboth (hstated s hs hq).nodup

end System
end MddProxy
