import MddProxy.Dispatch.Moves

/-!
# The pause of a worker

One `Worker` object at the grain of its mutex and its condition variable: every lock,
unlock, access to the control slot, wait and signal of `Run`, `Pause`, `Resume` and
`FinishAndDie` is a step. `Resume` stores and signals under the mutex, `FinishAndDie`
does both without it. A wait may also end spuriously, as POSIX allows, and a timed wait
by its timeout. The machine of the dispatcher, which keeps a thread in its pause until the
control slot stops saying `SLEEP_WAIT` or `SLEEP_TIME`, is shown to see just this.
-/
namespace MddProxy

/-- Where the worker's thread is; `milliseconds` is the argument of `Pause`. -/
inductive PausePc where
  /-- `Run`: about to compare `state` with `RESUME`. -/
  | testResume
  | testSleepWait
  | testSleepTime
  | testTerminate
  /-- Inside `ReceiveData`, or in `OnWorkComplete` before its store into `state`. -/
  | serving
  | lock (milliseconds : ℕ)
  /-- Holds the mutex, about to compare `state` with `SLEEP_WAIT`. -/
  | whileWait (milliseconds : ℕ)
  /-- It was not `SLEEP_WAIT`, about to compare `state` with `SLEEP_TIME`. -/
  | whileTime (milliseconds : ℕ)
  /-- A comparison succeeded, about to call the wait. -/
  | wait (milliseconds : ℕ)
  /-- Blocked in the wait, not signalled. -/
  | blocked (milliseconds : ℕ)
  /-- The wait has ended and needs the mutex to return. -/
  | relock (milliseconds : ℕ) (timedOut : Bool)
  | unlock
  /-- The exception for a wait that did not return zero has left `Run`. -/
  | thrown
  | exited
  deriving DecidableEq, Repr

def PausePc.holds : PausePc → Bool
  | .whileWait _ | .whileTime _ | .wait _ | .unlock | .thrown => true
  | _ => false

/-- The points between a test that saw a sleeping state and the end of the wait. -/
def PausePc.settling : PausePc → Bool
  | .wait _ | .blocked _ => true
  | _ => false

def PausePc.waiting : PausePc → Bool
  | .wait _ => true
  | _ => false

def PausePc.isBlocked : PausePc → Bool
  | .blocked _ => true
  | _ => false

def PausePc.toRunPc : PausePc → RunPc
  | .testResume | .testSleepWait | .testSleepTime | .testTerminate => .loop
  | .lock _ | .whileWait _ | .whileTime _ | .wait _ | .blocked _ | .relock _ _ | .unlock => .paused
  | .thrown => .paused
  | .serving => .receiving
  | .exited => .exited

/-- `pthread_cond_signal` wakes a blocked thread and does nothing to any other. -/
def PausePc.signalled : PausePc → PausePc
  | .blocked ms => .relock ms false
  | pc => pc

theorem PausePc.holds_signalled (pc : PausePc) : pc.signalled.holds = pc.holds := by
  cases pc <;> rfl

theorem PausePc.settling_signalled (pc : PausePc) : pc.signalled.settling = pc.waiting := by
  cases pc <;> rfl

theorem PausePc.eq_of_signalled {pc pc' : PausePc} (h : pc.signalled = pc')
    (hne : ∀ ms, pc' ≠ .relock ms false) : pc = pc' := by
  cases pc <;> first | exact h | exact absurd h.symm (hne _)

theorem PausePc.holds_of_waiting {pc : PausePc} (h : pc.waiting = true) : pc.holds = true := by
  cases pc <;> first | rfl | simp [waiting] at h

theorem PausePc.settling_of_isBlocked {pc : PausePc} (h : pc.isBlocked = true) :
    pc.settling = true := by
  cases pc <;> first | rfl | simp [isBlocked] at h

/-- Where another thread is inside `Resume` or `FinishAndDie`. -/
inductive WakerPc where
  | resumeLock
  | resumeStore
  | resumeSignal
  | resumeUnlock
  | finishStore
  | finishSignal
  | returned
  deriving DecidableEq, Repr

def WakerPc.holds : WakerPc → Bool
  | .resumeStore | .resumeSignal | .resumeUnlock => true
  | _ => false

def WakerPc.signalling : WakerPc → Bool
  | .resumeSignal | .finishSignal => true
  | _ => false

inductive MutexOwner where
  | worker
  | waker (i : ℕ)
  deriving DecidableEq, Repr

/-- A worker object, its thread, and the calls made on it so far. -/
structure Sleeper where
  state : WorkerState
  sleepTime : ℕ
  mutex : Option MutexOwner
  worker : PausePc
  wakers : List WakerPc
  deriving DecidableEq, Repr

namespace Sleeper

/-- A new worker whose thread is about to enter its loop. -/
def start (sleepTime : ℕ) : Sleeper where
  state := .sleepWait
  sleepTime := sleepTime
  mutex := none
  worker := .testResume
  wakers := []

def signal (s : Sleeper) : Sleeper := { s with worker := s.worker.signalled }

/-- One step of the worker's thread, other than the end of its work. -/
def workerStep (s : Sleeper) : Option Sleeper :=
  match s.worker with
  | .testResume =>
    some { s with worker := if s.state = .resume then .serving else .testSleepWait }
  | .testSleepWait =>
    some { s with worker := if s.state = .sleepWait then .lock 0 else .testSleepTime }
  | .testSleepTime =>
    some { s with worker := if s.state = .sleepTime then .lock s.sleepTime else .testTerminate }
  | .testTerminate =>
    some { s with worker := if s.state = .terminate then .exited else .testResume }
  | .lock ms =>
    if s.mutex = none then some { s with mutex := some .worker, worker := .whileWait ms } else none
  | .whileWait ms =>
    some { s with worker := if s.state = .sleepWait then .wait ms else .whileTime ms }
  | .whileTime ms =>
    some { s with worker := if s.state = .sleepTime then .wait ms else .unlock }
  | .wait ms => some { s with mutex := none, worker := .blocked ms }
  | .relock ms timedOut =>
    if s.mutex = none then
      some { s with
        mutex := some .worker
        worker := if timedOut then .thrown else .whileWait ms }
    else none
  | .unlock => some { s with mutex := none, worker := .testResume }
  | .serving | .blocked _ | .thrown | .exited => none

def wakerStep (s : Sleeper) (i : ℕ) : WakerPc → Option Sleeper
  | .resumeLock =>
    if s.mutex = none then
      some { s with mutex := some (.waker i), wakers := s.wakers.set i .resumeStore }
    else none
  | .resumeStore => some { s with state := .resume, wakers := s.wakers.set i .resumeSignal }
  | .resumeSignal => some { s.signal with wakers := s.wakers.set i .resumeUnlock }
  | .resumeUnlock => some { s with mutex := none, wakers := s.wakers.set i .returned }
  | .finishStore => some { s with state := .terminate, wakers := s.wakers.set i .finishSignal }
  | .finishSignal => some { s.signal with wakers := s.wakers.set i .returned }
  | .returned => none

inductive Action where
  | worker
  /-- `OnWorkComplete` stores `RESUME`, if something is pending, or `SLEEP_WAIT`. -/
  | complete (pending : Bool)
  /-- A wait returns without a signal. -/
  | spurious
  /-- `pthread_cond_timedwait` times out. -/
  | timeout
  | callResume
  | callFinishAndDie
  | waker (i : ℕ)
  deriving DecidableEq, Repr

def step (s : Sleeper) : Action → Option Sleeper
  | .worker => s.workerStep
  | .complete pending =>
    if s.worker = .serving then
      some { s with
        state := if pending then .resume else .sleepWait
        worker := .testResume }
    else none
  | .spurious =>
    match s.worker with
    | .blocked ms => some { s with worker := .relock ms false }
    | _ => none
  | .timeout =>
    match s.worker with
    | .blocked ms => if ms = 0 then none else some { s with worker := .relock ms true }
    | _ => none
  | .callResume => some { s with wakers := s.wakers ++ [.resumeLock] }
  | .callFinishAndDie => some { s with wakers := s.wakers ++ [.finishStore] }
  | .waker i => (s.wakers[i]?).bind fun pc => s.wakerStep i pc

variable {s s' : Sleeper} {i : ℕ} {pc : WakerPc}

/-- The moves of the worker's thread at the given point. -/
inductive WorkerMove (s : Sleeper) : PausePc → Sleeper → Prop
  | resume : s.state = .resume → WorkerMove s .testResume { s with worker := .serving }
  | notResume : WorkerMove s .testResume { s with worker := .testSleepWait }
  | sleepWait : s.state = .sleepWait → WorkerMove s .testSleepWait { s with worker := .lock 0 }
  | notSleepWait : WorkerMove s .testSleepWait { s with worker := .testSleepTime }
  | sleepTime : s.state = .sleepTime →
      WorkerMove s .testSleepTime { s with worker := .lock s.sleepTime }
  | notSleepTime : WorkerMove s .testSleepTime { s with worker := .testTerminate }
  | terminate : s.state = .terminate → WorkerMove s .testTerminate { s with worker := .exited }
  | notTerminate : WorkerMove s .testTerminate { s with worker := .testResume }
  | lock (ms : ℕ) : s.mutex = none →
      WorkerMove s (.lock ms) { s with mutex := some .worker, worker := .whileWait ms }
  | whileWait (ms : ℕ) : s.state = .sleepWait →
      WorkerMove s (.whileWait ms) { s with worker := .wait ms }
  | notWhileWait (ms : ℕ) : s.state ≠ .sleepWait →
      WorkerMove s (.whileWait ms) { s with worker := .whileTime ms }
  | whileTime (ms : ℕ) : s.state = .sleepTime →
      WorkerMove s (.whileTime ms) { s with worker := .wait ms }
  | notWhileTime (ms : ℕ) : s.state ≠ .sleepTime →
      WorkerMove s (.whileTime ms) { s with worker := .unlock }
  | wait (ms : ℕ) : WorkerMove s (.wait ms) { s with mutex := none, worker := .blocked ms }
  | relock (ms : ℕ) : s.mutex = none →
      WorkerMove s (.relock ms false) { s with mutex := some .worker, worker := .whileWait ms }
  | throw (ms : ℕ) : s.mutex = none →
      WorkerMove s (.relock ms true) { s with mutex := some .worker, worker := .thrown }
  | unlock : WorkerMove s .unlock { s with mutex := none, worker := .testResume }

inductive WakerMove (s : Sleeper) (i : ℕ) : WakerPc → Sleeper → Prop
  | resumeLock : s.mutex = none → WakerMove s i .resumeLock
      { s with mutex := some (.waker i), wakers := s.wakers.set i .resumeStore }
  | resumeStore : WakerMove s i .resumeStore
      { s with state := .resume, wakers := s.wakers.set i .resumeSignal }
  | resumeSignal : WakerMove s i .resumeSignal
      { s with worker := s.worker.signalled, wakers := s.wakers.set i .resumeUnlock }
  | resumeUnlock : WakerMove s i .resumeUnlock
      { s with mutex := none, wakers := s.wakers.set i .returned }
  | finishStore : WakerMove s i .finishStore
      { s with state := .terminate, wakers := s.wakers.set i .finishSignal }
  | finishSignal : WakerMove s i .finishSignal
      { s with worker := s.worker.signalled, wakers := s.wakers.set i .returned }

inductive Move (s : Sleeper) : Action → Sleeper → Prop
  | worker (s' : Sleeper) : WorkerMove s s.worker s' → Move s .worker s'
  | complete (pending : Bool) : s.worker = .serving → Move s (.complete pending)
      { s with state := if pending then .resume else .sleepWait, worker := .testResume }
  | spurious (ms : ℕ) : s.worker = .blocked ms →
      Move s .spurious { s with worker := .relock ms false }
  | timeout (ms : ℕ) : s.worker = .blocked ms → ms ≠ 0 →
      Move s .timeout { s with worker := .relock ms true }
  | callResume : Move s .callResume { s with wakers := s.wakers ++ [.resumeLock] }
  | callFinishAndDie :
      Move s .callFinishAndDie { s with wakers := s.wakers ++ [.finishStore] }
  | waker (i : ℕ) (pc : WakerPc) (s' : Sleeper) : s.wakers[i]? = some pc →
      WakerMove s i pc s' → Move s (.waker i) s'

theorem workerStep_move (hs : s.workerStep = some s') : WorkerMove s s.worker s' := by
  unfold workerStep at hs
  cases hpc : s.worker with
  | testResume =>
    simp only [hpc, Option.some.injEq] at hs
    subst hs
    by_cases hst : s.state = .resume
    · simpa only [if_pos hst] using .resume hst
    · simpa only [if_neg hst] using .notResume
  | testSleepWait =>
    simp only [hpc, Option.some.injEq] at hs
    subst hs
    by_cases hst : s.state = .sleepWait
    · simpa only [if_pos hst] using .sleepWait hst
    · simpa only [if_neg hst] using .notSleepWait
  | testSleepTime =>
    simp only [hpc, Option.some.injEq] at hs
    subst hs
    by_cases hst : s.state = .sleepTime
    · simpa only [if_pos hst] using .sleepTime hst
    · simpa only [if_neg hst] using .notSleepTime
  | testTerminate =>
    simp only [hpc, Option.some.injEq] at hs
    subst hs
    by_cases hst : s.state = .terminate
    · simpa only [if_pos hst] using .terminate hst
    · simpa only [if_neg hst] using .notTerminate
  | lock ms =>
    simp only [hpc, Option.ite_none_right_eq_some, Option.some.injEq] at hs
    obtain ⟨hfree, rfl⟩ := hs
    exact .lock ms hfree
  | whileWait ms =>
    simp only [hpc, Option.some.injEq] at hs
    subst hs
    by_cases hst : s.state = .sleepWait
    · simpa only [if_pos hst] using .whileWait ms hst
    · simpa only [if_neg hst] using .notWhileWait ms hst
  | whileTime ms =>
    simp only [hpc, Option.some.injEq] at hs
    subst hs
    by_cases hst : s.state = .sleepTime
    · simpa only [if_pos hst] using .whileTime ms hst
    · simpa only [if_neg hst] using .notWhileTime ms hst
  | wait ms =>
    simp only [hpc, Option.some.injEq] at hs
    subst hs
    exact .wait ms
  | relock ms timedOut =>
    simp only [hpc, Option.ite_none_right_eq_some, Option.some.injEq] at hs
    obtain ⟨hfree, rfl⟩ := hs
    cases timedOut with
    | false => exact .relock ms hfree
    | true => exact .throw ms hfree
  | unlock =>
    simp only [hpc, Option.some.injEq] at hs
    subst hs
    exact .unlock
  | serving | blocked ms | thrown | exited => simp [hpc] at hs

theorem wakerStep_move (hs : s.wakerStep i pc = some s') : WakerMove s i pc s' := by
  cases pc with
  | resumeLock =>
    simp only [wakerStep, Option.ite_none_right_eq_some, Option.some.injEq] at hs
    obtain ⟨hfree, rfl⟩ := hs
    exact .resumeLock hfree
  | resumeStore =>
    obtain rfl := Option.some.inj hs
    exact .resumeStore
  | resumeSignal =>
    obtain rfl := Option.some.inj hs
    exact .resumeSignal
  | resumeUnlock =>
    obtain rfl := Option.some.inj hs
    exact .resumeUnlock
  | finishStore =>
    obtain rfl := Option.some.inj hs
    exact .finishStore
  | finishSignal =>
    obtain rfl := Option.some.inj hs
    exact .finishSignal
  | returned => simp [wakerStep] at hs

theorem step_move {a : Action} (hs : s.step a = some s') : s.Move a s' := by
  cases a with
  | worker => exact .worker s' (workerStep_move hs)
  | complete pending =>
    simp only [step, Option.ite_none_right_eq_some, Option.some.injEq] at hs
    obtain ⟨hpc, rfl⟩ := hs
    exact .complete pending hpc
  | spurious =>
    simp only [step] at hs
    cases hpc : s.worker <;> simp [hpc] at hs
    subst hs
    exact .spurious _ hpc
  | timeout =>
    simp only [step] at hs
    cases hpc : s.worker <;> simp [hpc] at hs
    obtain ⟨hms, rfl⟩ := hs
    exact .timeout _ hpc hms
  | callResume =>
    obtain rfl := Option.some.inj hs
    exact .callResume
  | callFinishAndDie =>
    obtain rfl := Option.some.inj hs
    exact .callFinishAndDie
  | waker i =>
    obtain ⟨pc, hi, hs⟩ := Option.bind_eq_some_iff.mp hs
    exact .waker i pc s' hi (wakerStep_move hs)

/-- The worker object as the machine of the dispatcher sees it. -/
def toWorker (s : Sleeper) (slotId : ℕ) (receiverSocket : Option Fd) : Worker where
  mySlotId := slotId
  state := s.state
  receiverSocket := receiverSocket
  threads := [s.worker.toRunPc]

/-- What the tests in the loop of `Pause` have established still holds. -/
structure Tested (s : Sleeper) : Prop where
  whileTime : ∀ ms, s.worker = .whileTime ms → s.state ≠ .sleepWait
  unlock : s.worker = .unlock → s.state.sleeping = false

theorem Tested.of_other (hw : ∀ ms, s.worker ≠ .whileTime ms) (hu : s.worker ≠ .unlock) :
    s.Tested :=
  ⟨fun ms h => absurd h (hw ms), fun h => absurd h hu⟩

theorem Tested.step {a : Action} (ht : s.Tested) (hs : s.step a = some s') : s'.Tested := by
  cases step_move hs with
  | worker s' hm =>
    have hwait := ht.whileTime
    generalize s.worker = pc at hm hwait
    cases hm with
    | notWhileWait ms hst => exact ⟨fun _ _ => hst, by simp⟩
    | notWhileTime ms hst =>
      refine ⟨by simp, fun _ => ?_⟩
      have hst' := hwait ms rfl
      cases h : s.state <;> first | rfl | simp [h] at hst hst'
    | _ => exact .of_other (by simp) (by simp)
  | callResume | callFinishAndDie => exact ⟨ht.whileTime, ht.unlock⟩
  | waker i pc s' hi hm =>
    cases hm with
    | resumeStore | finishStore => exact ⟨by simp, fun _ => rfl⟩
    | resumeSignal | finishSignal =>
      exact ⟨fun ms h => ht.whileTime ms (PausePc.eq_of_signalled h (by simp)),
        fun h => ht.unlock (PausePc.eq_of_signalled h (by simp))⟩
    | resumeLock | resumeUnlock => exact ⟨ht.whileTime, ht.unlock⟩
  | _ => exact .of_other (by simp) (by simp)

theorem toWorker_jump (hstate : s'.state = s.state) (slotId : ℕ) (receiverSocket : Option Fd) :
    s'.toWorker slotId receiverSocket =
      (s.toWorker slotId receiverSocket).jump 0 s'.worker.toRunPc := by
  unfold toWorker Worker.jump
  rw [hstate]
  rfl

/-- What the worker's thread can do, seen from the dispatcher's machine. -/
inductive Seen (s : Sleeper) : RunPc → RunPc → Prop
  | same (pc : RunPc) : Seen s pc pc
  | resume : s.state = .resume → Seen s .loop .receiving
  | sleep : s.state.sleeping = true → Seen s .loop .paused
  | terminate : s.state = .terminate → Seen s .loop .exited
  | wake : s.state.sleeping = false → Seen s .paused .loop

theorem WorkerMove.seen (ht : s.Tested) (hm : WorkerMove s s.worker s') :
    s'.state = s.state ∧ Seen s s.worker.toRunPc s'.worker.toRunPc := by
  have hunlock := ht.unlock
  generalize s.worker = pc at hm hunlock
  cases hm with
  | resume hst => exact ⟨rfl, .resume hst⟩
  | sleepWait hst => exact ⟨rfl, .sleep (by rw [hst]; rfl)⟩
  | sleepTime hst => exact ⟨rfl, .sleep (by rw [hst]; rfl)⟩
  | terminate hst => exact ⟨rfl, .terminate hst⟩
  | unlock => exact ⟨rfl, .wake (hunlock rfl)⟩
  | _ => exact ⟨rfl, .same _⟩

/-- **The pause of the dispatcher's machine is this one**: a step of the worker's thread is
a move of that machine or not visible there. -/
theorem workerStep_refines (ht : s.Tested) (hs : s.workerStep = some s') (slotId : ℕ)
    (receiverSocket : Option Fd) :
    s'.toWorker slotId receiverSocket = s.toWorker slotId receiverSocket ∨
      ∀ (σ : System) (w : ℕ), System.RunMove σ w (s.toWorker slotId receiverSocket) 0
        s.worker.toRunPc (σ.put w (s'.toWorker slotId receiverSocket)) := by
  obtain ⟨hstate, hseen⟩ := (workerStep_move hs).seen ht
  rw [toWorker_jump hstate]
  generalize hfrom : s.worker.toRunPc = pc at hseen
  generalize s'.worker.toRunPc = pc' at hseen
  cases hseen with
  | same => exact .inl (by simp [toWorker, Worker.jump, hfrom])
  | resume hst => exact .inr fun _ _ => .seeResume hst
  | sleep hst => exact .inr fun _ _ => .seeSleep hst
  | terminate hst => exact .inr fun _ _ => .seeTerminate hst
  | wake hst => exact .inr fun _ _ => .wake hst

end Sleeper
end MddProxy
