import MddProxy.Dispatch.Shutdown
import MddProxy.Dispatch.Joining
import MddProxy.Interleaving.Rest

/-!
# Shutdown runs to its end

Once the sweep has told every worker, its threads leave `Run` after a bounded number of
steps, whatever else goes on, and `JoinThreads` then joins and deletes them one after the
other. The measure counts what is left of both. A thread that has missed the signal of
`FinishAndDie` stays in `Pause`, and `JoinThreads` waits for it.
-/
namespace MddProxy

open Interleaving

/-- The steps a thread of a told worker still takes before it leaves `Run`. -/
def RunPc.leaving : RunPc → ℕ
  | .exited => 0
  | .loop => 1
  | .paused | .store _ | .returnFree => 2
  | .pop => 3
  | _ => 0

def JoinPc.leaving (n : ℕ) : JoinPc → ℕ
  | .idle => 2 * n + 2
  | .joining i n => 2 * (n - i) + 1
  | .deleting i n => 2 * (n - i)
  | .done => 0

namespace System

variable {s s' : System} {w k : ℕ} {wk : Worker} {pc : RunPc}

def leaving (s : System) (w : ℕ) : ℕ :=
  match s.heap[w]? with
  | some wk => weigh RunPc.leaving wk.threads
  | none => 0

def unfinished (s : System) : ℕ := (s.workers.map s.leaving).sum

theorem leaving_eq (hw : s.heap[w]? = some wk) : s.leaving w = weigh RunPc.leaving wk.threads := by
  simp [leaving, hw]

theorem leaving_congr (h : (s'.heap[w]?).map Worker.threads = (s.heap[w]?).map Worker.threads) :
    s'.leaving w = s.leaving w := by
  unfold leaving
  cases hw : s.heap[w]? <;> cases hw' : s'.heap[w]? <;> simp [hw, hw'] at h ⊢
  rw [h]

theorem leaving_put {i : ℕ} {wk' : Worker} (hi : s.heap[i]? = some wk)
    (hheap : s'.heap = s.heap.set i wk') (hset : wk'.threads = wk.threads) :
    s'.leaving w = s.leaving w := by
  apply leaving_congr
  have hlen := (List.getElem?_eq_some_iff.mp hi).1
  rw [hheap]
  by_cases h : i = w
  · subst h
    rw [List.getElem?_set_self hlen, hi]
    simp [hset]
  · rw [List.getElem?_set_ne h]

theorem leaving_other {i : ℕ} {wk' : Worker} (hheap : s'.heap = s.heap.set i wk') (hne : i ≠ w) :
    s'.leaving w = s.leaving w := by
  apply leaving_congr
  rw [hheap, List.getElem?_set_ne hne]

theorem leaving_newWorker {slotId : ℕ} (hheap : s'.heap = s.heap ++ [Worker.created slotId])
    (hw : s.heap[w]? = some wk) : s'.leaving w = s.leaving w := by
  apply leaving_congr
  rw [hheap, List.getElem?_append_left (List.getElem?_eq_some_iff.mp hw).1]

theorem leaving_move {wk' : Worker} {pc' : RunPc} (hw : s.heap[w]? = some wk)
    (hpc : wk.threads[k]? = some pc) (hheap : s'.heap = s.heap.set w wk')
    (hset : wk'.threads = wk.threads.set k pc') :
    s'.leaving w + pc.leaving = s.leaving w + pc'.leaving := by
  have hlen := (List.getElem?_eq_some_iff.mp hw).1
  have hw' : s'.heap[w]? = some wk' := by rw [hheap, List.getElem?_set_self hlen]
  rw [leaving_eq hw, leaving_eq hw', hset]
  exact weigh_set RunPc.leaving pc' hpc

theorem Told.leaving_run (ht : s.Told w) (hw : s.heap[w]? = some wk)
    (hpc : wk.threads[k]? = some pc) (hm : RunMove s w wk k pc s') :
    s'.leaving w < s.leaving w ∨ s'.heap = s.heap ∧ s'.fault ≠ none := by
  obtain ⟨-, wk₀, hw₀, hst, hth⟩ := ht
  obtain rfl : wk = wk₀ := Option.some.inj (hw.symm.trans hw₀)
  have hpast := hth pc (List.mem_of_getElem? hpc)
  have hmoved : ∀ (wk' : Worker) (pc' : RunPc), s'.heap = s.heap.set w wk' →
      wk'.threads = wk.threads.set k pc' → pc'.leaving < pc.leaving →
      s'.leaving w < s.leaving w := by
    intro wk' pc' hheap hset hlt
    have hmove := leaving_move hw hpc hheap hset
    omega
  cases hm with
  | popEmpty => exact .inr ⟨rfl, by simp⟩
  | seeResume hresume => simp [hst] at hresume
  | seeSleep hsleep => simp [hst, WorkerState.sleeping] at hsleep
  | seeTerminate | wake | pop | store | returnFree =>
    exact .inl (hmoved _ _ rfl rfl (by simp [RunPc.leaving]))
  | _ => simp [RunPc.beforeStateWrite] at hpast

theorem Told.leaving_step {a : Action} (ht : s.Told w) (hdone : s.stopping = .done)
    (honce : a = .dispatch → s.dispatching.creatingAgain = false) (hs : s.step a = some s') :
    s'.leaving w ≤ s.leaving w := by
  obtain ⟨-, wk₀, hw₀, -⟩ := id ht
  cases (step_move hs).2 with
  | dispatch pc s' hpc hm =>
    have honce := honce rfl
    rw [hpc] at honce
    cases hm with
    | assignFree v fd evs wk hv | resumeFree v fd evs wk hv | assignNew v fd evs wk hv
    | resumeNew v fd evs wk hv => exact Nat.le_of_eq (leaving_put hv rfl rfl)
    | createNew => exact Nat.le_of_eq (leaving_newWorker rfl hw₀)
    | createAgain => simp [DispatchPc.creatingAgain] at honce
    | _ => exact Nat.le_refl _
  | add pc s' _ hm =>
    cases hm with
    | createNew => exact Nat.le_of_eq (leaving_newWorker rfl hw₀)
    | _ => exact Nat.le_refl _
  | sweep pc s' hpc hm =>
    rw [← hpc, hdone] at hm
    cases hm
  | thread v k wk pc s' hv hpc hm =>
    by_cases hvw : v = w
    · subst hvw
      rcases ht.leaving_run hv hpc hm with hlt | ⟨hheap, -⟩
      · exact Nat.le_of_lt hlt
      · exact Nat.le_of_eq (leaving_congr (by rw [hheap]))
    · cases hm with
      | unset | popEmpty => exact Nat.le_refl _
      | _ => exact Nat.le_of_eq (leaving_other rfl hvw)
  | _ => exact Nat.le_refl _

theorem workers_final {a : Action} (hok : s.StopIsFinal a) (hne : s.stopping ≠ .idle)
    (hs : s.step a = some s') : s'.workers = s.workers := by
  cases (step_move hs).2 with
  | dispatch pc s' hpc hm => exact hm.workers.2 (hpc ▸ (hok hne).2)
  | add pc s' hpc hm => exact hm.workers.2 (hpc ▸ hok hne)
  | sweep pc s' _ hm => cases hm <;> rfl
  | thread v k wk pc s' _ _ hm => exact hm.workers.2
  | _ => rfl

theorem stopping_done {a : Action} (hdone : s.stopping = .done) (hs : s.step a = some s') :
    s'.stopping = .done := by
  cases (step_move hs).2 with
  | dispatch pc s' _ hm => exact hm.workers.1.trans hdone
  | add pc s' _ hm => exact hm.workers.1.trans hdone
  | stop hidle =>
    rw [hdone] at hidle
    cases hidle
  | sweep pc s' hpc hm =>
    rw [← hpc, hdone] at hm
    cases hm
  | thread v k wk pc s' _ _ hm => exact hm.workers.1.trans hdone
  | _ => exact hdone

/-- What is left for the threads grows in no step, and a step of an enrolled worker's
thread lowers it or ends the process. -/
theorem unfinished_step {a : Action} (htold : ∀ w ∈ s.workers, s.Told w)
    (hdone : s.stopping = .done) (hok : s.StopIsFinal a)
    (honce : a = .dispatch → s.dispatching.creatingAgain = false) (hs : s.step a = some s') :
    s'.unfinished ≤ s.unfinished ∧
      ∀ w k, a = .thread w k → w ∈ s.workers → s'.fault = none →
        s'.unfinished < s.unfinished := by
  have hworkers := workers_final hok (by simp [hdone]) hs
  have hle : ∀ w ∈ s.workers, s'.leaving w ≤ s.leaving w :=
    fun w hw => (htold w hw).leaving_step hdone honce hs
  unfold unfinished
  rw [hworkers]
  refine ⟨List.sum_le_sum hle, ?_⟩
  rintro w k rfl hw hfault
  apply List.sum_lt_sum _ _ hle
  refine ⟨w, hw, ?_⟩
  cases (step_move hs).2 with
  | thread _ _ wk pc _ hv hpc hm =>
    rcases (htold w hw).leaving_run hv hpc hm with hlt | ⟨-, hne⟩
    · exact hlt
    · exact absurd hfault hne

theorem Told.exited (ht : s.Told w) (hdone : s.stopping = .done) (hfault : s.fault = none)
    (hpc : s.pcAt w k = some pc) (hpause : pc ≠ .paused)
    (hstuck : s.step (.thread w k) = none) : pc = .exited := by
  obtain ⟨-, wk, hw, hst, hth⟩ := ht
  obtain ⟨wk₀, hw₀, hk⟩ := pcAt_eq_some.mp hpc
  obtain rfl : wk₀ = wk := Option.some.inj (hw₀.symm.trans hw)
  have hpast := hth pc (List.mem_of_getElem? hk)
  rw [threadStep_eq hfault hw hk] at hstuck
  cases pc with
  | exited => rfl
  | loop => simp [runStep, hst] at hstuck
  | paused => exact absurd rfl hpause
  | pop => cases hp : s.pendingItems <;> simp [runStep, PendingWorkQueue.pop, hp] at hstuck
  | store fd => simp [runStep] at hstuck
  | returnFree => simp [runStep, lockFree, hdone] at hstuck
  | _ => simp [RunPc.beforeStateWrite] at hpast

end System

namespace Lifetime

open MddProxy.System

variable {l l' : Lifetime} {w k : ℕ} {pc : RunPc}

/-- The guard: the sweep is final, no object gets a second thread, and `workers` does not
grow while `JoinThreads` goes through it. -/
def ClosesDown (l : Lifetime) : Label → Prop
  | .system a => l.StopIsFinal a ∧ (a = .dispatch → l.dispatching.creatingAgain = false) ∧
      (a = .add → l.joining ≠ .idle → l.adding.enrolling = false)
  | .joinThreads | .join => True

instance (l : Lifetime) (a : Label) : Decidable (l.ClosesDown a) :=
  match a with
  | .system a => inferInstanceAs (Decidable (l.StopIsFinal a ∧
      (a = .dispatch → l.dispatching.creatingAgain = false) ∧
      (a = .add → l.joining ≠ .idle → l.adding.enrolling = false)))
  | .joinThreads | .join => .isTrue trivial

/-- The steps that end the program: those of the enrolled workers' threads and of
`JoinThreads`. -/
def Ending (l : Lifetime) : Label → Prop
  | .system (.thread w _) => w ∈ l.workers
  | .join => True
  | _ => False

def Waking (l : Lifetime) : Label → Prop
  | .system (.thread w k) => l.pcAt w k = some .paused
  | _ => False

/-- The steps that end the program, but for returns from `Pause`. -/
def Awake (l : Lifetime) (a : Label) : Prop := l.ClosesDown a ∧ l.Ending a ∧ ¬ l.Waking a

def WaitsForPaused (l : Lifetime) : Prop :=
  ∃ i n, l.joining = .joining i n ∧ ∃ w ∈ l.workers[i]?, l.pcAt w 0 = some .paused

def JoinsInOrder (l : Lifetime) : Prop :=
  match l.joining with
  | .idle => l.deleted = []
  | .joining i n => n = l.workers.length ∧ l.deleted = l.workers.take i
  | .deleting i n => n = l.workers.length ∧ i < n ∧ l.deleted = l.workers.take i
  | .done => l.deleted = l.workers

/-- What the guard preserves. -/
structure Closing (l : Lifetime) : Prop where
  sweep : l.SweepHolds
  tidy : l.Tidy
  joins : l.JoinsInOrder
  quiet : l.joining ≠ .idle → l.dispatching = .idle

theorem ClosesDown.createdOnce {a : Label} (hok : l.ClosesDown a) : l.CreatedOnce a := by
  cases a with
  | system a =>
    cases a with
    | dispatch => exact hok.2.1 rfl
    | _ => trivial
  | joinThreads => trivial
  | join => trivial

theorem closing_start (count : ℕ) (senders : Fd → Option ℕ) (junk : Junk) :
    (start count senders junk).Closing where
  sweep := sweepHolds_start count senders junk
  tidy := tidy_start count senders junk
  joins := by simp [JoinsInOrder, start]
  quiet := by simp [start]

/-- While `JoinThreads` is at work nobody enrols a worker and no event is dispatched. -/
theorem Closing.still {a : Action} {s' : System} (hi : l.Closing) (hjoining : l.joining ≠ .idle)
    (hok : l.ClosesDown (.system a)) (hrefuses : l.refuses a = false)
    (hs : l.toSystem.step a = some s') :
    s'.workers = l.workers ∧ s'.dispatching = .idle := by
  have hidle := hi.quiet hjoining
  cases (step_move hs).2 with
  | processData evs _ => simp [refuses, hjoining] at hrefuses
  | dispatch pc s' hpc hm =>
    rw [← hpc, hidle] at hm
    cases hm
  | add pc s' hpc hm =>
    have henrol := hok.2.2 rfl hjoining
    rw [hpc] at henrol
    refine ⟨hm.workers.2 henrol, ?_⟩
    cases hm <;> exact hidle
  | sweep pc s' _ hm => cases hm <;> exact ⟨rfl, hidle⟩
  | thread v j wk pc s' _ _ hm =>
    refine ⟨hm.workers.2, ?_⟩
    cases hm <;> exact hidle
  | _ => exact ⟨rfl, hidle⟩

theorem joinStep_frame (hs : l.joinStep = some l') :
    l'.toSystem = l.toSystem ∧ l.joining ≠ .idle := by
  unfold joinStep at hs
  cases hpc : l.joining with
  | idle | done => simp [hpc] at hs
  | joining i n =>
    by_cases hin : i < n
    · simp only [hpc, hin, if_true, Option.bind_eq_some_iff, Option.ite_none_right_eq_some,
        Option.some.injEq] at hs
      obtain ⟨v, _, j, _, _, rfl⟩ := hs
      exact ⟨rfl, by simp⟩
    · simp only [hpc, hin, if_false, Option.some.injEq] at hs
      subst hs
      exact ⟨rfl, by simp⟩
  | deleting i n =>
    simp only [hpc, Option.map_eq_some_iff] at hs
    obtain ⟨v, _, rfl⟩ := hs
    exact ⟨rfl, by simp⟩

theorem JoinsInOrder.join (hi : l.JoinsInOrder) (hs : l.joinStep = some l') :
    l'.JoinsInOrder := by
  unfold joinStep at hs
  unfold JoinsInOrder at hi
  cases hpc : l.joining with
  | idle | done => simp [hpc] at hs
  | joining i n =>
    simp only [hpc] at hs hi
    by_cases hin : i < n
    · simp only [hin, if_true, Option.bind_eq_some_iff, Option.ite_none_right_eq_some,
        Option.some.injEq] at hs
      obtain ⟨v, _, j, _, _, rfl⟩ := hs
      exact ⟨hi.1, hin, hi.2⟩
    · simp only [hin, if_false, Option.some.injEq] at hs
      subst hs
      have hlen : l.workers.length ≤ i := by omega
      exact hi.2.trans (List.take_of_length_le hlen)
  | deleting i n =>
    simp only [hpc, Option.map_eq_some_iff] at hs hi
    obtain ⟨v, hv, rfl⟩ := hs
    obtain ⟨hn, -, hdeleted⟩ := hi
    refine ⟨hn, ?_⟩
    rw [hdeleted, List.take_add_one, hv]
    rfl

theorem Closing.step {a : Label} (hi : l.Closing) (hok : l.ClosesDown a)
    (hs : l.step a = some l') : l'.Closing := by
  have htidy := hi.tidy.step hok.createdOnce hs
  cases a with
  | system a =>
    simp only [Lifetime.step, Option.ite_none_left_eq_some, Option.map_eq_some_iff] at hs
    obtain ⟨hrefuses, s', hs, rfl⟩ := hs
    have hrefuses : l.refuses a = false := by simpa using hrefuses
    refine ⟨hi.sweep.step hok.1 hs, htidy, ?_, fun hj => (hi.still hj hok hrefuses hs).2⟩
    by_cases hj : l.joining = .idle
    · have hjoins := hi.joins
      simp only [JoinsInOrder, hj] at hjoins ⊢
      exact hjoins
    · have hworkers := (hi.still hj hok hrefuses hs).1
      have hjoins := hi.joins
      unfold JoinsInOrder at hjoins ⊢
      rw [hworkers]
      exact hjoins
  | joinThreads =>
    simp only [Lifetime.step, Option.ite_none_right_eq_some, Option.some.injEq] at hs
    obtain ⟨⟨-, hidle, hdisp⟩, rfl⟩ := hs
    have hjoins := hi.joins
    simp only [JoinsInOrder, hidle] at hjoins
    refine ⟨hi.sweep, htidy, ?_, fun _ => hdisp⟩
    exact ⟨rfl, by simpa using hjoins⟩
  | join =>
    simp only [Lifetime.step, Option.ite_none_right_eq_some] at hs
    have hjoins := hi.joins.join hs.2
    obtain ⟨hsystem, hjoining⟩ := joinStep_frame hs.2
    have hsweep : l'.toSystem.SweepHolds := hsystem ▸ hi.sweep
    refine ⟨hsweep, htidy, hjoins, fun _ => ?_⟩
    rw [hsystem]
    exact hi.quiet hjoining

def remaining (l : Lifetime) : ℕ :=
  l.unfinished + l.joining.leaving l.workers.length + if l.fault = none then 1 else 0

structure Swept (l : Lifetime) : Prop extends Closing l where
  done : l.stopping = .done

theorem Swept.told (hi : l.Swept) : ∀ w ∈ l.workers, l.Told w := by
  intro w hw
  obtain ⟨j, hj⟩ := List.getElem?_of_mem hw
  have hlt := (List.getElem?_eq_some_iff.mp hj).1
  exact hi.sweep.told j w (by simpa [swept, hi.done] using hlt) hj

theorem Swept.step {a : Label} (hi : l.Swept) (hok : l.ClosesDown a)
    (hs : l.step a = some l') : l'.Swept := by
  refine ⟨hi.toClosing.step hok hs, ?_⟩
  cases a with
  | system a =>
    simp only [Lifetime.step, Option.ite_none_left_eq_some, Option.map_eq_some_iff] at hs
    obtain ⟨-, s', hs, rfl⟩ := hs
    exact stopping_done hi.done hs
  | joinThreads =>
    simp only [Lifetime.step, Option.ite_none_right_eq_some, Option.some.injEq] at hs
    obtain ⟨-, rfl⟩ := hs
    exact hi.done
  | join =>
    simp only [Lifetime.step, Option.ite_none_right_eq_some] at hs
    rw [(joinStep_frame hs.2).1]
    exact hi.done

theorem JoinsInOrder.leaving_lt (hi : l.JoinsInOrder) (hs : l.joinStep = some l') :
    l'.joining.leaving l.workers.length < l.joining.leaving l.workers.length := by
  unfold joinStep at hs
  unfold JoinsInOrder at hi
  cases hpc : l.joining with
  | idle | done => simp [hpc] at hs
  | joining i n =>
    by_cases hin : i < n
    · simp only [hpc, hin, if_true, Option.bind_eq_some_iff, Option.ite_none_right_eq_some,
        Option.some.injEq] at hs
      obtain ⟨v, _, j, _, _, rfl⟩ := hs
      exact Nat.lt_succ_self _
    · simp only [hpc, hin, if_false, Option.some.injEq] at hs
      subst hs
      exact Nat.succ_pos _
  | deleting i n =>
    simp only [hpc, Option.map_eq_some_iff] at hs hi
    obtain ⟨v, _, rfl⟩ := hs
    simp only [JoinPc.leaving]
    omega

theorem remaining_step {a : Label} (hi : l.Swept) (hok : l.ClosesDown a)
    (hs : l.step a = some l') :
    l'.remaining ≤ l.remaining ∧ (l.Ending a → l'.remaining < l.remaining) := by
  cases a with
  | system a =>
    simp only [Lifetime.step, Option.ite_none_left_eq_some, Option.map_eq_some_iff] at hs
    obtain ⟨-, s', hs, rfl⟩ := hs
    have hworkers := workers_final hok.1 (by simp [hi.done]) hs
    obtain ⟨hle, hlt⟩ := unfinished_step hi.told hi.done hok.1 hok.2.1 hs
    have hfault : l.fault = none := (step_move hs).1
    simp only [remaining, hworkers, hfault, if_true]
    refine ⟨by split <;> omega, fun hending => ?_⟩
    cases a with
    | thread w k =>
      have hlt := hlt w k rfl hending
      by_cases hfault' : s'.fault = none
      · have hlt := hlt hfault'
        simp only [hfault', if_true]
        omega
      · simp only [hfault', if_false]
        omega
    | _ => exact hending.elim
  | joinThreads =>
    simp only [Lifetime.step, Option.ite_none_right_eq_some, Option.some.injEq] at hs
    obtain ⟨⟨-, hidle, -⟩, rfl⟩ := hs
    refine ⟨?_, fun hending => hending.elim⟩
    simp only [remaining, hidle, JoinPc.leaving]
    omega
  | join =>
    simp only [Lifetime.step, Option.ite_none_right_eq_some] at hs
    have hlt := hi.joins.leaving_lt hs.2
    have hless : l'.remaining < l.remaining := by
      simp only [remaining, (joinStep_frame hs.2).1]
      omega
    exact ⟨Nat.le_of_lt hless, fun _ => hless⟩

theorem spends_remaining : Spends step ClosesDown Ending Swept remaining where
  keeps _ _ _ hi hok hs := hi.step hok hs
  le _ _ _ hi hok hs := (remaining_step hi hok hs).1
  lt _ _ _ hi hok hending hs := (remaining_step hi hok hs).2 hending

theorem Swept.exited (hi : l.Swept) (hfault : l.fault = none) (hrest : Rests Lifetime.step Awake l)
    (hw : w ∈ l.workers) (hpc : l.pcAt w k = some pc) : pc = .exited ∨ pc = .paused := by
  by_cases hpause : pc = .paused
  · exact .inr hpause
  · have hawake : l.Awake (.system (.thread w k)) := by
      refine ⟨⟨trivial, by simp, by simp⟩, hw, fun hwaking => ?_⟩
      exact hpause (Option.some.inj (hpc.symm.trans hwaking))
    have hstuck := hrest _ hawake
    have hstuck : l.toSystem.step (.thread w k) = none := by
      simpa [Lifetime.step, refuses] using hstuck
    exact .inl ((hi.told w hw).exited hi.done hfault hpc hpause hstuck)

theorem Swept.thread_exited (hi : l.Swept) (hfault : l.fault = none)
    (hrest : Rests Lifetime.step Awake l) (hw : w ∈ l.workers) :
    l.thread[w]? = some 0 ∧ (l.pcAt w 0 = some .exited ∨ l.pcAt w 0 = some .paused) := by
  obtain ⟨-, wk, hwk, -⟩ := hi.told w hw
  have hone := hi.tidy.one
  have hlt : w < l.thread.length := by
    rw [hone.length]
    exact (List.getElem?_eq_some_iff.mp hwk).1
  have hthread : l.thread[w]? = some l.thread[w] := List.getElem?_eq_getElem hlt
  have hlen : 0 < wk.threads.length := by rw [hone.single wk (List.mem_of_getElem? hwk)]; decide
  have hat : l.pcAt w 0 = some wk.threads[0] :=
    pcAt_eq_some.mpr ⟨wk, hwk, List.getElem?_eq_getElem hlen⟩
  constructor
  · rw [hthread, hone.first _ (List.mem_of_getElem? hthread)]
  · rcases hi.exited hfault hrest hw hat with h | h
    · exact .inl (hat.trans (congrArg some h))
    · exact .inr (hat.trans (congrArg some h))

/-- `JoinThreads` can go on until it returns or comes to a thread in `Pause`. -/
theorem Swept.joined (hi : l.Swept) (hfault : l.fault = none)
    (hrest : Rests Lifetime.step Awake l) (hjoining : l.joining ≠ .idle) :
    l.joining = .done ∧ l.deleted = l.workers ∨ l.WaitsForPaused := by
  have hstuck := hrest .join ⟨trivial, trivial, id⟩
  have hstuck : l.joinStep = none := by simpa [Lifetime.step, hfault] using hstuck
  have hjoins := hi.joins
  unfold joinStep at hstuck
  unfold JoinsInOrder at hjoins
  cases hpc : l.joining with
  | idle => exact absurd hpc hjoining
  | joining i n =>
    simp only [hpc] at hstuck hjoins
    by_cases hin : i < n
    · have hlt : i < l.workers.length := by omega
      have hget : l.workers[i]? = some l.workers[i] := List.getElem?_eq_getElem hlt
      obtain ⟨hthread, hexited | hpaused⟩ :=
        hi.thread_exited hfault hrest (List.mem_of_getElem? hget)
      · simp [hin, hget, hthread, hexited] at hstuck
      · exact .inr ⟨i, n, hpc, l.workers[i], hget, hpaused⟩
    · simp [hin] at hstuck
  | deleting i n =>
    simp only [hpc] at hstuck hjoins
    have hlt : i < l.workers.length := by omega
    simp [List.getElem?_eq_getElem hlt] at hstuck
  | done =>
    simp only [hpc] at hjoins
    exact .inl ⟨rfl, hjoins⟩

/-- **Shutdown completes** in a run that meets the guard: from the end of the sweep on, the
steps left to the workers' threads and to `JoinThreads` are bounded whatever else happens,
and where none of them is left, unless a thread returns from `Pause`, every other thread has
left `Run`, and `JoinThreads`, once called, has joined and deleted every worker or waits for
a thread in `Pause`. -/
theorem shutdown_completes {count : ℕ} {senders : Fd → Option ℕ} {junk : Junk}
    (h : Reaches step ClosesDown (start count senders junk) l) (hdone : l.stopping = .done) :
    (∀ n l', Counted step ClosesDown Ending l n l' → n ≤ l.remaining) ∧
    (∃ l', Reaches step Awake l l' ∧ Rests step Awake l') ∧
    ∀ l', Reaches step ClosesDown l l' → Rests step Awake l' → l'.fault = none →
      (∀ w ∈ l'.workers, ∀ k pc, l'.pcAt w k = some pc → pc = .exited ∨ pc = .paused) ∧
      (l'.joining ≠ .idle →
        l'.joining = .done ∧ l'.deleted = l'.workers ∨ l'.WaitsForPaused) := by
  have hclosing : l.Closing :=
    h.invariant (closing_start count senders junk) fun _ _ _ hi hok hs => hi.step hok hs
  have hi : l.Swept := ⟨hclosing, hdone⟩
  refine ⟨fun n l' hcounted => ?_, ?_, fun l' hl' hrest hfault => ?_⟩
  · have hle := spends_remaining.count_le hi hcounted
    omega
  · have hlowers : Lowers step Awake Swept remaining :=
      spends_remaining.lowers fun _ _ hawake => ⟨hawake.1, hawake.2.1⟩
    obtain ⟨l', hl', -, hrest⟩ := hlowers.exists_rest hi
    exact ⟨l', hl', hrest⟩
  · have hi' : l'.Swept := hl'.invariant hi fun _ _ _ hi hok hs => hi.step hok hs
    exact ⟨fun w hw k pc hpc => hi'.exited hfault hrest hw hpc, hi'.joined hfault hrest⟩

/-- Worker 0 has served an event and sleeps again, all five are told, and one has left. -/
theorem shutdown_completes_five_workers : ∃ l, Reaches step ClosesDown fiveWorkers l ∧
    l.stopping = .done ∧ l.remaining = 17 ∧
    (∀ n l', Counted step ClosesDown Ending l n l' → n ≤ 17) ∧
    ∃ l', Reaches step Awake l l' ∧ Rests step Awake l' := by
  obtain ⟨l, hl, hdone, hremaining⟩ : ∃ l, Reaches step ClosesDown fiveWorkers l ∧
      l.stopping = .done ∧ l.remaining = 17 :=
    exists_reaches_of_runChecked
      (.system (.processData [0]) :: List.replicate 5 (.system .dispatch) ++
        List.replicate 6 (.system (.thread 0 0)) ++ .system .stop ::
        List.replicate 6 (.system .sweep) ++ [.system (.thread 1 0)]) (by decide)
  obtain ⟨hcount, hends, -⟩ := shutdown_completes hl hdone
  exact ⟨l, hl, hdone, hremaining, hremaining ▸ hcount, hends⟩

end Lifetime
end MddProxy
