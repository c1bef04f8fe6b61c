import MddProxy.Dispatch.PendingQueue

/-!
# Telling every worker to terminate

`TERMINATE` is one value of a control slot that `OnWorkComplete` and `Resume`
overwrite without looking. A worker stays told once nobody is left who is going
to write its slot: no thread of its own between reading `RESUME` and the store of
`OnWorkComplete`, and no `ProcessData` that still has it in hand.
-/
namespace MddProxy

def DispatchPc.getting : DispatchPc → Bool
  | .getFree _ _ => true
  | _ => false

def DispatchPc.enrolling : DispatchPc → Bool
  | .pushWorker _ _ _ => true
  | _ => false

def AddPc.enrolling : AddPc → Bool
  | .pushWorker _ _ => true
  | _ => false

namespace System

open Interleaving

variable {s s' : System} {w k : ℕ} {wk : Worker} {pc : RunPc}

/-- The worker on which the sweep is about to call `FinishAndDie`. -/
def nextToDie (s : System) : Option ℕ :=
  match s.stopping with
  | .sweeping i n => if i < n then s.workers[i]? else none
  | .idle | .done => none

/-- How many entries of `workers` the sweep has dealt with. -/
def swept (s : System) : ℕ :=
  match s.stopping with
  | .idle => 0
  | .sweeping i _ => i
  | .done => s.workers.length

/-- The guard: `FinishAndDie` meets a worker whose control slot nobody is about to
write, and from the start of the sweep on `GetFreeWorker` finds no worker and
`workers` does not grow. -/
def StopIsFinal (s : System) : Action → Prop
  | .sweep => ∀ w ∈ s.nextToDie, s.dispatching.worker ≠ some w ∧
      ∀ wk ∈ s.heap[w]?, wk.threadsAt RunPc.beforeStateWrite = 0
  | .dispatch => s.stopping ≠ .idle →
      (s.dispatching.getting = true → s.freeWorkers = []) ∧ s.dispatching.enrolling = false
  | .add => s.stopping ≠ .idle → s.adding.enrolling = false
  | _ => True

instance (s : System) (a : Action) : Decidable (s.StopIsFinal a) :=
  match a with
  | .sweep => inferInstanceAs (Decidable (∀ w ∈ s.nextToDie, s.dispatching.worker ≠ some w ∧
      ∀ wk ∈ s.heap[w]?, wk.threadsAt RunPc.beforeStateWrite = 0))
  | .dispatch => inferInstanceAs (Decidable (s.stopping ≠ .idle →
      (s.dispatching.getting = true → s.freeWorkers = []) ∧ s.dispatching.enrolling = false))
  | .add => inferInstanceAs (Decidable (s.stopping ≠ .idle → s.adding.enrolling = false))
  | .arrive .. | .processData _ | .addWorkers _ | .stop | .thread .. | .sendFails .. =>
    .isTrue trivial

/-- Worker `w` has been told to terminate and nobody is about to tell it otherwise. -/
def Told (s : System) (w : ℕ) : Prop :=
  s.dispatching.worker ≠ some w ∧ ∃ wk, s.heap[w]? = some wk ∧ wk.state = .terminate ∧
    ∀ pc ∈ wk.threads, pc.beforeStateWrite = false

theorem Told.congr {i : ℕ} {wk' : Worker} (ht : s.Told w) (hi : s.heap[i]? = some wk)
    (hheap : s'.heap = s.heap.set i wk') (hdisp : s'.dispatching.worker ≠ some w)
    (hstate : i = w → wk.state = .terminate → wk'.state = .terminate)
    (hthreads : i = w → wk.state = .terminate →
      (∀ pc ∈ wk.threads, pc.beforeStateWrite = false) →
      ∀ pc ∈ wk'.threads, pc.beforeStateWrite = false) : s'.Told w := by
  obtain ⟨-, wk₀, hw, hst, hth⟩ := ht
  refine ⟨hdisp, ?_⟩
  rw [hheap]
  by_cases h : i = w
  · subst h
    obtain rfl : wk = wk₀ := Option.some.inj (hi.symm.trans hw)
    have hlen := (List.getElem?_eq_some_iff.mp hi).1
    exact ⟨wk', List.getElem?_set_self hlen, hstate rfl hst, hthreads rfl hst hth⟩
  · exact ⟨wk₀, by rw [List.getElem?_set_ne h, hw], hst, hth⟩

theorem Told.frame (ht : s.Told w) (hdisp : s'.dispatching.worker ≠ some w)
    (hheap : ∀ wk, s.heap[w]? = some wk → s'.heap[w]? = some wk) : s'.Told w := by
  obtain ⟨-, wk, hw, hst, hth⟩ := ht
  exact ⟨hdisp, wk, hheap wk hw, hst, hth⟩

theorem Told.run {i : ℕ} (ht : s.Told w) (hi : s.heap[i]? = some wk)
    (hpc : wk.threads[k]? = some pc) (hm : RunMove s i wk k pc s') : s'.Told w := by
  have hdisp := ht.1
  have hmem := List.mem_of_getElem? hpc
  -- a thread of a told worker is past its stores, or sees `TERMINATE` and leaves
  have move : ∀ (wk' : Worker) (pc' : RunPc), s'.heap = s.heap.set i wk' →
      wk'.threads = wk.threads.set k pc' → s'.dispatching = s.dispatching →
      (pc.beforeStateWrite = false → wk.state = .terminate →
        wk'.state = .terminate ∧ pc'.beforeStateWrite = false) → s'.Told w := by
    intro wk' pc' hheap hthreads hd hsafe
    by_cases h : i = w
    · subst h
      obtain ⟨-, wk₀, hw, hst, hth⟩ := ht
      obtain rfl : wk = wk₀ := Option.some.inj (hi.symm.trans hw)
      obtain ⟨hst', hpc'⟩ := hsafe (hth pc hmem) hst
      have hlen := (List.getElem?_eq_some_iff.mp hi).1
      refine ⟨by rwa [hd], wk', by rw [hheap, List.getElem?_set_self hlen], hst', ?_⟩
      rw [hthreads]
      exact forall_mem_set hth hpc'
    · exact ht.congr hi hheap (by rwa [hd]) (fun h' => absurd h' h) (fun h' => absurd h' h)
  cases hm with
  | unset | popEmpty => exact ht.frame hdisp fun _ => id
  | seeResume hst => exact move _ _ rfl rfl rfl fun _ hte => by simp [hst] at hte
  | setResume | setSleep =>
    exact move _ _ rfl rfl rfl fun hb _ => by simp [RunPc.beforeStateWrite] at hb
  | seeSleep | seeTerminate | wake | pop | store | returnFree =>
    exact move _ _ rfl rfl rfl fun _ hte => ⟨hte, rfl⟩
  | _ => exact move _ _ rfl rfl rfl fun hb _ => by simp [RunPc.beforeStateWrite] at hb

theorem Told.dispatch (ht : s.Told w) (hget : s.dispatching.getting = true → s.freeWorkers = [])
    (hm : DispatchMove s s.dispatching s') : s'.Told w := by
  have hdisp := ht.1
  have hlen : w < s.heap.length := by
    obtain ⟨-, wk, hw, -⟩ := ht
    exact (List.getElem?_eq_some_iff.mp hw).1
  generalize hpc : s.dispatching = pc at hm hdisp hget
  cases hm with
  | getFree fd evs v ws _ hfree => simp [hget rfl] at hfree
  | assignFree v fd evs wk hv | assignNew v fd evs wk hv =>
    exact ht.congr hv rfl hdisp (fun _ => id) (fun _ _ => id)
  | resumeFree v fd evs wk hv | resumeNew v fd evs wk hv =>
    have hne : v ≠ w := by simpa [DispatchPc.worker] using hdisp
    exact ht.congr hv rfl (by simp [DispatchPc.worker]) (fun h => absurd h hne)
      (fun h => absurd h hne)
  | createNew fd evs =>
    refine ht.frame (by simp only [DispatchPc.worker, ne_eq, Option.some.injEq]; omega) ?_
    intro wk hw
    exact (List.getElem?_append_left hlen).trans hw
  | createAgain v fd evs wk hv =>
    refine ht.congr hv rfl (by simp [DispatchPc.worker]) (fun _ => id) fun _ _ hth pc hmem => ?_
    rcases List.mem_append.mp hmem with hmem | hmem
    · exact hth pc hmem
    · obtain rfl := List.mem_singleton.mp hmem
      rfl
  | pushWorker | countWorker => exact ht.frame hdisp fun _ => id
  | _ => exact ht.frame (by simp [hpc, DispatchPc.worker]) fun _ => id

theorem Told.sweep {pc : StopPc} (ht : s.Told w) (hm : SweepMove s pc s') : s'.Told w := by
  cases hm with
  | finishAndDie i n v wk _ _ hv => exact ht.congr hv rfl ht.1 (fun _ _ => rfl) (fun _ _ => id)
  | finish => exact ht.frame ht.1 fun _ => id

theorem Told.step {a : Action} (ht : s.Told w)
    (hget : a = .dispatch → s.dispatching.getting = true → s.freeWorkers = [])
    (hs : s.step a = some s') : s'.Told w := by
  cases (step_move hs).2 with
  | processData evs _ => exact ht.frame (by simp [DispatchPc.worker]) fun _ => id
  | dispatch pc s' hpc hm => exact ht.dispatch (hget rfl) (hpc ▸ hm)
  | add pc s' _ hm =>
    cases hm with
    | createNew k =>
      refine ht.frame ht.1 fun wk hw => ?_
      exact (List.getElem?_append_left (List.getElem?_eq_some_iff.mp hw).1).trans hw
    | _ => exact ht.frame ht.1 fun _ => id
  | sweep pc s' _ hm => exact ht.sweep hm
  | thread i k wk pc s' hi hpc hm => exact ht.run hi hpc hm
  | _ => exact ht.frame ht.1 fun _ => id

/-- What the guard preserves: the sweep covers `workers` as it is, and whoever it has
visited stays told. -/
structure SweepHolds (s : System) : Prop where
  covers : ∀ i n, s.stopping = .sweeping i n → n = s.workers.length
  told : ∀ j w, j < s.swept → s.workers[j]? = some w → s.Told w

theorem sweepHolds_start (count : ℕ) (senders : Fd → Option ℕ) (junk : Junk) :
    (start count senders junk).SweepHolds where
  covers := by simp [start]
  told := by simp [start, swept]

theorem SweepHolds.congr (hi : s.SweepHolds) (hstop : s'.stopping = s.stopping)
    (hworkers : s'.workers = s.workers)
    (htold : s.stopping ≠ .idle → ∀ w, s.Told w → s'.Told w) : s'.SweepHolds where
  covers i n h := by rw [hworkers]; exact hi.covers i n (hstop ▸ h)
  told j w hj hw := by
    have hswept : s'.swept = s.swept := by simp [swept, hstop, hworkers]
    rw [hswept] at hj
    rw [hworkers] at hw
    refine htold (fun hidle => ?_) w (hi.told j w hj hw)
    simp [swept, hidle] at hj

theorem SweepHolds.of_idle (hstop : s'.stopping = .idle) : s'.SweepHolds where
  covers := by simp [hstop]
  told := by simp [swept, hstop]

theorem RunMove.workers (hm : RunMove s w wk k pc s') :
    s'.stopping = s.stopping ∧ s'.workers = s.workers := by
  cases hm <;> exact ⟨rfl, rfl⟩

theorem DispatchMove.workers {pc : DispatchPc} (hm : DispatchMove s pc s') :
    s'.stopping = s.stopping ∧ (pc.enrolling = false → s'.workers = s.workers) := by
  cases hm with
  | pushWorker => exact ⟨rfl, fun h => by simp [DispatchPc.enrolling] at h⟩
  | _ => exact ⟨rfl, fun _ => rfl⟩

theorem AddMove.workers {pc : AddPc} (hm : AddMove s pc s') :
    s'.stopping = s.stopping ∧ (pc.enrolling = false → s'.workers = s.workers) := by
  cases hm with
  | pushWorker => exact ⟨rfl, fun h => by simp [AddPc.enrolling] at h⟩
  | _ => exact ⟨rfl, fun _ => rfl⟩

theorem SweepHolds.sweep (hi : s.SweepHolds) (hok : s.StopIsFinal .sweep)
    (hm : SweepMove s s.stopping s') : s'.SweepHolds := by
  generalize hpc : s.stopping = pc at hm
  cases hm with
  | finishAndDie i n w wk hin hw hwk =>
    have hswept : s.swept = i := by simp [swept, hpc]
    refine ⟨fun i' n' h => ?_, fun j v hj hv => ?_⟩
    · obtain ⟨-, rfl⟩ : i + 1 = i' ∧ n = n' := by simpa using h
      exact hi.covers i n hpc
    · have hj : j < i + 1 := hj
      by_cases hji : j = i
      · subst hji
        obtain rfl : w = v := Option.some.inj (hw.symm.trans hv)
        obtain ⟨hdisp, hquiet⟩ := hok w (by simp [nextToDie, hpc, hin, hw])
        have hlen := (List.getElem?_eq_some_iff.mp hwk).1
        have hzero := hquiet wk hwk
        rw [Worker.threadsAt, weigh_eq_zero] at hzero
        exact ⟨hdisp, _, List.getElem?_set_self hlen, rfl, fun pc hmem => by
          simpa using hzero pc hmem⟩
      · have ht := hi.told j v (by omega) hv
        exact ht.sweep (.finishAndDie i n w wk hin hw hwk)
  | finish i n hle =>
    refine ⟨by simp, fun j v hj hv => ?_⟩
    have hn := hi.covers i n hpc
    have hswept : s.swept = i := by simp [swept, hpc]
    have hlen := (List.getElem?_eq_some_iff.mp hv).1
    have ht := hi.told j v (by simp only at hlen; omega) hv
    exact ht.sweep (.finish i n hle)

theorem SweepHolds.step {a : Action} (hi : s.SweepHolds) (hok : s.StopIsFinal a)
    (hs : s.step a = some s') : s'.SweepHolds := by
  have htold : s.stopping ≠ .idle → ∀ w, s.Told w → s'.Told w := by
    intro hne w ht
    refine ht.step ?_ hs
    rintro rfl
    exact (hok hne).1
  cases (step_move hs).2 with
  | dispatch pc s' hpc hm =>
    obtain ⟨hstop, hworkers⟩ := hm.workers
    by_cases hidle : s.stopping = .idle
    · exact .of_idle (hstop.trans hidle)
    · exact hi.congr hstop (hworkers (hpc ▸ (hok hidle).2)) htold
  | add pc s' hpc hm =>
    obtain ⟨hstop, hworkers⟩ := hm.workers
    by_cases hidle : s.stopping = .idle
    · exact .of_idle (hstop.trans hidle)
    · exact hi.congr hstop (hworkers (hpc ▸ hok hidle)) htold
  | stop _ =>
    refine ⟨fun i n h => ?_, fun j w hj _ => absurd hj (Nat.not_lt_zero j)⟩
    obtain ⟨-, rfl⟩ : 0 = i ∧ s.workers.length = n := by simpa using h
    rfl
  | sweep pc s' hpc hm => exact hi.sweep hok (hpc ▸ hm)
  | thread w k wk pc s' hw hpc hm =>
    exact hi.congr hm.workers.1 hm.workers.2 htold
  | _ => exact hi.congr rfl rfl htold

/-- **Shutdown reaches every worker** in a run that meets the guard: from the end of
the sweep on, every worker in `workers` has been told to terminate. -/
theorem shutdown_reaches_every_worker {count : ℕ} {senders : Fd → Option ℕ}
    {junk : Junk} (h : Reaches step StopIsFinal (start count senders junk) s)
    (hdone : s.stopping = .done) :
    ∀ w ∈ s.workers, ∃ wk, s.heap[w]? = some wk ∧ wk.state = .terminate := by
  have hi : s.SweepHolds :=
    h.invariant (sweepHolds_start count senders junk) fun _ _ _ hi hok hs => hi.step hok hs
  intro w hw
  obtain ⟨j, hj⟩ := List.getElem?_of_mem hw
  have hlen := (List.getElem?_eq_some_iff.mp hj).1
  obtain ⟨-, wk, hwk, hst, -⟩ := hi.told j w (by simpa [swept, hdone] using hlen) hj
  exact ⟨wk, hwk, hst⟩

/-- `ProcessData` gives the event of receiver 0 to worker 0, which sees `RESUME`. -/
def oneEvent : List Action :=
  .processData [0] :: List.replicate 5 .dispatch ++ [.thread 0 0]

def sweepFive : List Action := .stop :: List.replicate 6 .sweep

theorem shutdown_reaches_five_workers :
    ∃ s, Reaches step StopIsFinal elevenReceivers s ∧
      ∀ w ∈ s.workers, ∃ wk, s.heap[w]? = some wk ∧ wk.state = .terminate := by
  obtain ⟨s, hs, hdone⟩ : ∃ s, Reaches step StopIsFinal elevenReceivers s ∧
      s.stopping = .done :=
    exists_reaches_of_runChecked
      (oneEvent ++ List.replicate 5 (.thread 0 0) ++ sweepFive ++ [.thread 0 0]) (by decide)
  exact ⟨s, hs, shutdown_reaches_every_worker hs hdone⟩

/-- Worker 0 is inside `ReceiveData` while the sweep passes; its `OnWorkComplete` then
overwrites `TERMINATE`. -/
theorem terminate_overwritten_reachable :
    ¬ ∀ s, Reaches step anyStep elevenReceivers s → s.stopping = .done →
      ∀ w ∈ s.workers, ∃ wk, s.heap[w]? = some wk ∧
        (wk.state = .terminate ∨ ∀ pc ∈ wk.threads, pc = .exited) := by
  intro hstated
  obtain ⟨s, hs, hdone, hmem, wk, hwk, hst, hth⟩ : ∃ s, Reaches step anyStep elevenReceivers s ∧
      s.stopping = .done ∧ 0 ∈ s.workers ∧
      ∃ wk ∈ s.heap[0]?, wk.state ≠ .terminate ∧ ¬ ∀ pc ∈ wk.threads, pc = .exited :=
    exists_reaches_of_runChecked
      (oneEvent ++ sweepFive ++ List.replicate 4 (.thread 0 0)) (by decide)
  obtain ⟨wk', hwk', h⟩ := hstated s hs hdone 0 hmem
  obtain rfl : wk = wk' := Option.some.inj (hwk.symm.trans hwk')
  exact h.elim hst hth

end System
end MddProxy
