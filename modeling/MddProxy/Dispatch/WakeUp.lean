import MddProxy.Dispatch.Pause
import MddProxy.Interleaving.Slots

/-!
# No wake-up is lost, but for one window

`Resume` cannot run between the test in `Pause` and the wait, because it needs the mutex;
`FinishAndDie` can. The invariant behind this is that a request made of a worker that is
about to wait, or waits, comes from a call that is still about to signal.
-/
namespace MddProxy
namespace Sleeper

open Interleaving

variable {s s' : Sleeper} {i : ℕ} {pc : WakerPc}

/-- No `Resume` or `FinishAndDie` is in progress. -/
def Settled (s : Sleeper) : Prop := ∀ pc ∈ s.wakers, pc = .returned

instance (s : Sleeper) : Decidable s.Settled :=
  inferInstanceAs (Decidable (∀ pc ∈ s.wakers, pc = .returned))

def NoLostWakeUp (s : Sleeper) : Prop :=
  s.Settled → s.worker.isBlocked = true → s.state.sleeping = true

/-- The guard: `FinishAndDie` does not signal while the worker's thread stands between a
test that saw a sleeping state and its wait, with the state changed meanwhile. -/
def SignalMeetsWait (s : Sleeper) : Action → Prop
  | .waker i => s.wakers[i]? = some .finishSignal → s.worker.waiting = true →
      s.state.sleeping = true
  | _ => True

instance (s : Sleeper) (a : Action) : Decidable (s.SignalMeetsWait a) :=
  match a with
  | .waker i => inferInstanceAs (Decidable (s.wakers[i]? = some .finishSignal →
      s.worker.waiting = true → s.state.sleeping = true))
  | .worker | .complete _ | .spurious | .timeout | .callResume | .callFinishAndDie =>
    .isTrue trivial

/-- Whoever is at a point that needs the mutex owns it. -/
structure Locked (s : Sleeper) : Prop where
  worker : s.worker.holds = true → s.mutex = some .worker
  waker : ∀ i pc, s.wakers[i]? = some pc → pc.holds = true → s.mutex = some (.waker i)

theorem locked_start (sleepTime : ℕ) : (start sleepTime).Locked where
  worker := by simp [start, PausePc.holds]
  waker := by simp [start]

theorem Locked.none_holds (hl : s.Locked) (hfree : s.mutex = none) :
    s.worker.holds = false ∧
      ∀ (i : ℕ) (pc : WakerPc), s.wakers[i]? = some pc → pc.holds = false := by
  constructor
  · by_contra h
    simp [hl.worker (by simpa using h)] at hfree
  · intro i pc hi
    by_contra h
    simp [hl.waker i pc hi (by simpa using h)] at hfree

/-- The worker's thread and a call never stand at such points together. -/
theorem Locked.exclusive (hl : s.Locked) (hw : s.worker.holds = true)
    (hi : s.wakers[i]? = some pc) : pc.holds = false := by
  by_contra h
  have := (hl.worker hw).symm.trans (hl.waker i pc hi (by simpa using h))
  simp at this

theorem Locked.workerMove (hl : s.Locked) (hm : WorkerMove s s.worker s') : s'.Locked := by
  have hw := hl.worker
  have hexcl : s.worker.holds = true →
      ∀ (i : ℕ) (pc : WakerPc), s.wakers[i]? = some pc → pc.holds = false :=
    fun h _ _ hi => hl.exclusive h hi
  generalize s.worker = pc at hm hw hexcl
  cases hm with
  | lock ms hfree | relock ms hfree | throw ms hfree =>
    refine ⟨fun _ => rfl, fun i pc hi hh => ?_⟩
    rw [(hl.none_holds hfree).2 i pc hi] at hh
    exact Bool.noConfusion hh
  | wait ms | unlock =>
    refine ⟨by simp [PausePc.holds], fun i pc hi hh => ?_⟩
    rw [hexcl rfl i pc hi] at hh
    exact Bool.noConfusion hh
  | whileWait | notWhileWait | whileTime | notWhileTime => exact ⟨fun _ => hw rfl, hl.waker⟩
  | _ => exact ⟨by simp [PausePc.holds], hl.waker⟩

theorem Locked.set {pc' : WakerPc} (hl : s.Locked) (hmutex : s'.mutex = s.mutex)
    (hworker : s'.worker.holds = s.worker.holds) (hwakers : s'.wakers = s.wakers.set i pc')
    (hmine : pc'.holds = true → s.mutex = some (.waker i)) : s'.Locked where
  worker h := hmutex.trans (hl.worker (hworker ▸ h))
  waker j pc hj hh := by
    rw [hwakers] at hj
    rw [hmutex]
    rcases getElem?_set_cases hj with ⟨rfl, rfl⟩ | ⟨-, hj⟩
    · exact hmine hh
    · exact hl.waker j pc hj hh

theorem Locked.wakerMove (hl : s.Locked) (hi : s.wakers[i]? = some pc)
    (hm : WakerMove s i pc s') : s'.Locked := by
  have hmine := hl.waker i pc hi
  cases hm with
  | resumeLock hfree =>
    obtain ⟨hw, hk⟩ := hl.none_holds hfree
    refine ⟨fun h => ?_, fun j pc hj hh => ?_⟩
    · rw [hw] at h
      exact Bool.noConfusion h
    · rcases getElem?_set_cases hj with ⟨rfl, -⟩ | ⟨-, hj⟩
      · rfl
      · rw [hk j pc hj] at hh
        exact Bool.noConfusion hh
  | resumeStore => exact hl.set rfl rfl rfl fun _ => hmine rfl
  | resumeSignal => exact hl.set rfl s.worker.holds_signalled rfl fun _ => hmine rfl
  | resumeUnlock =>
    refine ⟨fun h => ?_, fun j pc hj hh => ?_⟩
    · exact absurd (hl.exclusive h hi) (by simp [WakerPc.holds])
    · rcases getElem?_set_cases hj with ⟨rfl, rfl⟩ | ⟨hne, hj⟩
      · exact absurd hh (by simp [WakerPc.holds])
      · have := (hmine rfl).symm.trans (hl.waker j pc hj hh)
        simp only [Option.some.injEq, MutexOwner.waker.injEq] at this
        exact absurd this.symm hne
  | finishStore => exact hl.set rfl rfl rfl (by simp [WakerPc.holds])
  | finishSignal => exact hl.set rfl s.worker.holds_signalled rfl (by simp [WakerPc.holds])

theorem Locked.call (hl : s.Locked) (hpc : pc.holds = false) :
    Locked { s with wakers := s.wakers ++ [pc] } where
  worker := hl.worker
  waker j pc' hj hh := by
    rcases Nat.lt_or_ge j s.wakers.length with hlt | hge
    · rw [List.getElem?_append_left hlt] at hj
      exact hl.waker j pc' hj hh
    · rw [List.getElem?_append_right hge] at hj
      obtain rfl := List.mem_singleton.mp (List.mem_of_getElem? hj)
      rw [hpc] at hh
      exact Bool.noConfusion hh

theorem Locked.step {a : Action} (hl : s.Locked) (hs : s.step a = some s') : s'.Locked := by
  cases step_move hs with
  | worker s' hm => exact hl.workerMove hm
  | waker i pc s' hi hm => exact hl.wakerMove hi hm
  | callResume | callFinishAndDie => exact hl.call rfl
  | _ => exact ⟨by simp [PausePc.holds], hl.waker⟩

/-- A request made of a worker that is about to wait, or waits, is about to be signalled. -/
def Wakeable (s : Sleeper) : Prop :=
  s.worker.settling = true → s.state.sleeping = false → ∃ pc ∈ s.wakers, pc.signalling = true

theorem wakeable_start (sleepTime : ℕ) : (start sleepTime).Wakeable := by
  simp [Wakeable, start, PausePc.settling]

theorem Wakeable.workerMove (hw : s.Wakeable) (hm : WorkerMove s s.worker s') :
    s'.Wakeable := by
  unfold Wakeable at hw
  generalize s.worker = pc at hm hw
  cases hm with
  | wait ms => exact fun _ => hw rfl
  | whileWait ms hst | whileTime ms hst =>
    -- the test that leads to the wait has just seen a sleeping state
    intro _ hawake
    simp [hst, WorkerState.sleeping] at hawake
  | _ => exact fun h => by simp [PausePc.settling] at h

theorem Wakeable.wakerMove (hw : s.Wakeable) (hl : s.Locked)
    (hok : s.SignalMeetsWait (.waker i)) (hi : s.wakers[i]? = some pc)
    (hm : WakerMove s i pc s') : s'.Wakeable := by
  have hlen := (List.getElem?_eq_some_iff.mp hi).1
  cases hm with
  | resumeStore => exact fun _ _ => ⟨_, List.mem_of_getElem? (List.getElem?_set_self hlen), rfl⟩
  | finishStore => exact fun _ _ => ⟨_, List.mem_of_getElem? (List.getElem?_set_self hlen), rfl⟩
  | resumeSignal =>
    -- the worker's thread is not between test and wait: the mutex is taken
    intro h
    rw [s.worker.settling_signalled] at h
    exact absurd (hl.exclusive (PausePc.holds_of_waiting h) hi) (by simp [WakerPc.holds])
  | finishSignal =>
    intro h hawake
    rw [s.worker.settling_signalled] at h
    simp [hok hi h] at hawake
  | resumeLock | resumeUnlock =>
    intro h hawake
    obtain ⟨pc, hmem, hsig⟩ := hw h hawake
    exact ⟨pc, mem_set_of_mem hmem hi (by rintro rfl; simp [WakerPc.signalling] at hsig), hsig⟩

theorem Wakeable.step {a : Action} (hw : s.Wakeable) (hl : s.Locked) (hok : s.SignalMeetsWait a)
    (hs : s.step a = some s') : s'.Wakeable := by
  cases step_move hs with
  | worker s' hm => exact hw.workerMove hm
  | waker i pc s' hi hm => exact hw.wakerMove hl hok hi hm
  | callResume | callFinishAndDie =>
    intro h hawake
    obtain ⟨pc, hmem, hsig⟩ := hw h hawake
    exact ⟨pc, List.mem_append_left _ hmem, hsig⟩
  | _ => exact fun h => by simp [PausePc.settling] at h

/-- **No wake-up is lost** in a run in which every signal of `FinishAndDie` meets the
wait it is meant for. -/
theorem no_lost_wake_up {sleepTime : ℕ} (h : Reaches step SignalMeetsWait (start sleepTime) s) :
    s.NoLostWakeUp := by
  have hboth : s.Locked ∧ s.Wakeable :=
    h.invariant (I := fun s => s.Locked ∧ s.Wakeable)
      ⟨locked_start sleepTime, wakeable_start sleepTime⟩
      fun _ _ _ hi hok hs => ⟨hi.1.step hs, hi.2.step hi.1 hok hs⟩
  intro hsettled hblocked
  by_contra hawake
  obtain ⟨pc, hmem, hsig⟩ :=
    hboth.2 (PausePc.settling_of_isBlocked hblocked) (by simpa using hawake)
  obtain rfl := hsettled pc hmem
  exact Bool.noConfusion hsig

/-- The worker's thread goes to sleep and `FinishAndDie` wakes it. -/
theorem no_lost_wake_up_finish :
    ∃ s, Reaches step SignalMeetsWait (start 0) s ∧ s.worker = .whileWait 0 ∧
      s.state = .terminate ∧ s.NoLostWakeUp := by
  obtain ⟨s, hs, hpc, hst⟩ : ∃ s, Reaches step SignalMeetsWait (start 0) s ∧
      s.worker = .whileWait 0 ∧ s.state = .terminate :=
    exists_reaches_of_runChecked
      (List.replicate 5 .worker ++ [.callFinishAndDie, .waker 0, .waker 0, .worker]) (by decide)
  exact ⟨s, hs, hpc, hst, no_lost_wake_up hs⟩

/-- `FinishAndDie` stores and signals between the test and the wait: the worker sleeps
with `TERMINATE` in its slot. -/
theorem lost_wake_up_reachable :
    ¬ ∀ s, Reaches step anyStep (start 0) s → s.NoLostWakeUp := by
  intro hstated
  obtain ⟨s, hs, hsettled, hblocked, hst⟩ : ∃ s, Reaches step anyStep (start 0) s ∧
      s.Settled ∧ s.worker.isBlocked = true ∧ s.state = .terminate :=
    exists_reaches_of_runChecked
      (List.replicate 4 .worker ++ [.callFinishAndDie, .waker 0, .waker 0, .worker]) (by decide)
  have := hstated s hs hsettled hblocked
  simp [hst, WorkerState.sleeping] at this

/-- The condition is exact where no other call is in progress: a signal that does not meet
its wait is lost with the next step of the worker's thread. -/
theorem signal_lost {s' : Sleeper} (hi : s.wakers[i]? = some .finishSignal)
    (halone : ∀ j pc, s.wakers[j]? = some pc → j ≠ i → pc = .returned)
    (hbad : ¬ s.SignalMeetsWait (.waker i)) (hs : s.step (.waker i) = some s') :
    ∃ t, s'.step .worker = some t ∧ ¬ t.NoLostWakeUp := by
  obtain ⟨hwaiting, hawake⟩ : s.worker.waiting = true ∧ s.state.sleeping = false := by
    by_contra hne
    exact hbad fun _ hw => by
      by_contra hst
      exact hne ⟨hw, by simpa using hst⟩
  obtain ⟨ms, hpc⟩ : ∃ ms, s.worker = .wait ms := by
    cases hpc : s.worker <;> simp [hpc, PausePc.waiting] at hwaiting
    exact ⟨_, rfl⟩
  simp only [step, hi, Option.bind_some, wakerStep, signal, hpc, PausePc.signalled,
    Option.some.injEq] at hs
  subst hs
  refine ⟨_, rfl, fun hno => ?_⟩
  have hsettled : ∀ pc ∈ s.wakers.set i .returned, pc = .returned := by
    intro pc hmem
    obtain ⟨j, hj⟩ := List.getElem?_of_mem hmem
    rcases getElem?_set_cases hj with ⟨-, rfl⟩ | ⟨hne, hj⟩
    · rfl
    · exact halone j pc hj hne
  have := hno hsettled rfl
  simp [hawake] at this

end Sleeper
end MddProxy
