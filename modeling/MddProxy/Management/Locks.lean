import MddProxy.Interleaving.LockOrder
import MddProxy.Management.Signals

/-!
# The locks of the whole program

Four kinds of mutex: that of the dispatcher, one in each worker, that of the pending queue
and that of the log file. The log is written inside the critical sections of others, never
the other way round. With any number of threads in any of the functions that lock, and
`Stop` called from signal handlers on threads that hold nothing, no thread waits for ever.

The functions are taken with their `pthread` calls succeeding.
-/
namespace MddProxy

open Interleaving

inductive Mutex where
  /-- `PendingWorkQueue::syncLock`. -/
  | pendingItems
  /-- `WorkDispatcher::sync_lock`. -/
  | dispatcher
  /-- `Worker::sync_lock` of worker `w`. -/
  | worker (w : ℕ)
  /-- `LogFile::lock`. -/
  | logFile
  deriving DecidableEq, Repr

def Mutex.rank : Mutex → ℕ
  | .pendingItems | .dispatcher | .worker _ => 0
  | .logFile => 1

inductive LockingCall where
  | log (function : LogFunction)
  | locked (function : LockedFunction)
  | push
  | pop
  /-- `WakeUpAllThreads` over `count` workers. -/
  | wakeUpAllThreads (count : ℕ)
  /-- `Pause` on worker `w`, woken `wakeUps` times before the loop ends. -/
  | pause (w wakeUps : ℕ)
  | resume (w : ℕ)
  deriving DecidableEq, Repr

namespace LockingCall

def ops : LockingCall → List (LockOp Mutex)
  | .log _ => critical .logFile []
  | .locked _ => critical .dispatcher []
  | .push | .pop => critical .pendingItems []
  | .wakeUpAllThreads count =>
    -- the `LOGINF` of each `FinishAndDie`
    critical .dispatcher (List.replicate count (critical .logFile [])).flatten
  | .pause w wakeUps =>
    critical (.worker w) (List.replicate wakeUps
      [.release (.worker w), .sleep, .acquire (.worker w)]).flatten
  | .resume w => critical (.worker w) []

theorem neutral (c : LockingCall) : Neutral Mutex.rank [] c.ops := by
  have hlog : ∀ held : List Mutex, (∀ h ∈ held, h.rank < Mutex.logFile.rank) →
      Neutral Mutex.rank held (critical .logFile []) :=
    fun held hheld => Neutral.critical hheld neutral_nil
  cases c with
  | log | locked | push | pop | resume => exact Neutral.critical nofun neutral_nil
  | wakeUpAllThreads count =>
    apply Neutral.critical nofun
    apply Neutral.repeated
    exact hlog _ (by simp [Mutex.rank])
  | pause w wakeUps =>
    apply Neutral.critical nofun
    exact (neutral_wait _).repeated wakeUps

end LockingCall

inductive ThreadAction where
  | call (i : ℕ) (c : LockingCall)
  /-- `CheckForSignals` calls `Stop` on thread `i`. -/
  | signal (i count : ℕ)
  | advance (i : ℕ)
  | wake (i : ℕ)
  deriving DecidableEq, Repr

def ThreadAction.onLocks : ThreadAction → LockAction Mutex
  | .call i c => .call i c.ops
  | .signal i count => .interrupt i (LockingCall.wakeUpAllThreads count).ops
  | .advance i => .advance i
  | .wake i => .wake i

def threadsStep (ts : List (LockThread Mutex)) (a : ThreadAction) :
    Option (List (LockThread Mutex)) :=
  lockStep ts a.onLocks

/-- The guard: a signal finds its thread without a lock. -/
def SignalsOutsideLocks (ts : List (LockThread Mutex)) : ThreadAction → Prop
  | .signal i _ => ∀ t ∈ ts[i]?, t.held = []
  | .call .. | .advance _ | .wake _ => True

instance (ts : List (LockThread Mutex)) (a : ThreadAction) :
    Decidable (SignalsOutsideLocks ts a) :=
  match a with
  | .signal i _ => inferInstanceAs (Decidable (∀ t ∈ ts[i]?, t.held = []))
  | .call .. | .advance _ | .wake _ => .isTrue trivial

/-- Neither a new call nor a signal. -/
def Undisturbed (_ : List (LockThread Mutex)) : ThreadAction → Prop
  | .call .. | .signal .. => False
  | .advance _ | .wake _ => True

variable {n : ℕ} {ts ts' : List (LockThread Mutex)}

theorem SignalsOutsideLocks.callsOrdered {a : ThreadAction} (h : SignalsOutsideLocks ts a) :
    CallsOrdered Mutex.rank ts a.onLocks := by
  cases a with
  | call i c => exact c.neutral
  | signal i count => exact ⟨LockingCall.neutral _, h⟩
  | advance i => trivial
  | wake i => trivial

theorem disciplined_of_reaches
    (h : Reaches threadsStep SignalsOutsideLocks (List.replicate n .outside) ts) :
    Disciplined Mutex.rank ts :=
  h.invariant (disciplined_outside n) fun _ _ _ hd hok hs => hd.step hok.callsOrdered hs

theorem lowers_threads : Lowers threadsStep Undisturbed (Disciplined Mutex.rank) opsLeft := by
  have hnoCalls : ∀ (ts : List (LockThread Mutex)) a, Undisturbed ts a →
      NoCalls ts a.onLocks := by
    intro ts a ha
    cases a <;> exact ha
  have hl : Lowers lockStep NoCalls (Disciplined Mutex.rank) opsLeft := lowers_opsLeft
  constructor
  · intro ts a ts' hd hok hs
    exact hl.keeps ts a.onLocks ts' hd (hnoCalls ts a hok) hs
  · intro ts a ts' hd hok hs
    exact hl.lowers ts a.onLocks ts' hd (hnoCalls ts a hok) hs

/-- **The locks never lock up** in a run in which signals find their threads without a
lock: while some thread is inside a call and awake, some thread can go on; the steps up to
the end of all calls are bounded, and where none is left every call has returned its
locks. -/
theorem locks_never_deadlock
    (h : Reaches threadsStep SignalsOutsideLocks (List.replicate n .outside) ts) :
    ((∃ t ∈ ts, t.awake = true) → ∃ i, (threadsStep ts (.advance i)).isSome = true) ∧
    (∀ k ts', Steps threadsStep Undisturbed ts k ts' → k ≤ opsLeft ts) ∧
    ∀ ts', Reaches threadsStep Undisturbed ts ts' → Rests threadsStep Undisturbed ts' →
      ∀ t ∈ ts', t.left = [] ∧ t.held = [] := by
  have hd := disciplined_of_reaches h
  refine ⟨hd.progress, fun k ts' hsteps => ?_, fun ts' hts' hrest => ?_⟩
  · have hle := lowers_threads.length_le hd hsteps
    omega
  · have hd' := hts'.invariant hd lowers_threads.keeps
    apply hd'.returned
    intro a ha
    cases a with
    | call => exact ha.elim
    | interrupt => exact ha.elim
    | advance i => exact hrest (.advance i) trivial
    | wake i => exact hrest (.wake i) trivial

/-- A sweep on thread 0 has the mutex of the dispatcher, thread 1 waits for it in
`ReturnFreeWorker`, thread 2 writes the log and thread 3 sleeps in `Pause`. -/
theorem locks_never_deadlock_four_threads : ∃ ts,
    Reaches threadsStep SignalsOutsideLocks (List.replicate 4 .outside) ts ∧
    threadsStep ts (.advance 0) = none ∧ threadsStep ts (.advance 1) = none ∧
    (∃ i, (threadsStep ts (.advance i)).isSome = true) ∧
    ∀ ts', Reaches threadsStep Undisturbed ts ts' → Rests threadsStep Undisturbed ts' →
      ∀ t ∈ ts', t.left = [] ∧ t.held = [] := by
  obtain ⟨ts, hts, h₀, h₁, hawake⟩ : ∃ ts,
      Reaches threadsStep SignalsOutsideLocks (List.replicate 4 .outside) ts ∧
      threadsStep ts (.advance 0) = none ∧ threadsStep ts (.advance 1) = none ∧
      ∃ t ∈ ts, t.awake = true :=
    exists_reaches_of_runChecked
      [.call 3 (.pause 0 1), .advance 3, .advance 3, .signal 0 5, .advance 0,
        .call 1 (.locked .returnFreeWorker), .call 2 (.log .log), .advance 2] (by decide)
  obtain ⟨hprogress, -, hreturned⟩ := locks_never_deadlock hts
  exact ⟨ts, hts, h₀, h₁, hprogress hawake, hreturned⟩

def Lock.mutex : Lock → Mutex
  | .syncLock => .dispatcher
  | .logFile => .logFile

theorem Lock.mutex_injective : Function.Injective Lock.mutex := by
  intro l l' h
  cases l <;> cases l' <;> first | rfl | cases h

namespace Frame

def logs (count : ℕ) : List (LockOp Mutex) :=
  (List.replicate count (critical .logFile [])).flatten

def ops : Frame → List (LockOp Mutex)
  | .log f .getLogger => (LockingCall.log f).ops
  | .log _ .writing => [.release .logFile]
  | .log _ .flush => []
  | .locked f .lock => (LockingCall.locked f).ops
  | .locked _ .body => [.release .dispatcher]
  | .stop added .cancelWait | .stop added .lock => (LockingCall.wakeUpAllThreads (5 + added)).ops
  | .stop added (.visit i) => logs (5 + added - i) ++ [.release .dispatcher]
  | .stop added (.finish i) => logs (5 + added - (i + 1)) ++ [.release .dispatcher]

end Frame

namespace Interrupted

def Call.locking : Call → LockingCall
  | .log f => .log f
  | .locked f => .locked f
  | .stop added => .wakeUpAllThreads (5 + added)

def onLocks (s : Interrupted) : LockThread Mutex where
  held := s.held.map Lock.mutex
  left := s.stack.flatMap Frame.ops

variable {s s' : Interrupted} {f f' : Frame} {calls calls' : List Frame} {l : Lock}

theorem threadsStep_acquire {t : LockThread Mutex} {m : Mutex} {rest : List (LockOp Mutex)}
    (hleft : t.left = .acquire m :: rest) (hfree : m ∉ t.held) :
    threadsStep [t] (.advance 0) = some [⟨m :: t.held, rest⟩] := by
  simp [threadsStep, ThreadAction.onLocks, lockStep, LockThread.advance, hleft, hfree]

theorem threadsStep_release {t : LockThread Mutex} {m : Mutex} {rest : List (LockOp Mutex)}
    (hleft : t.left = .release m :: rest) :
    threadsStep [t] (.advance 0) = some [⟨t.held.erase m, rest⟩] := by
  simp [threadsStep, ThreadAction.onLocks, lockStep, LockThread.advance, hleft]

theorem refines_acquire (hs : s.acquire l calls' = some s')
    (hleft : s.stack.flatMap Frame.ops = .acquire l.mutex :: calls'.flatMap Frame.ops) :
    Reaches threadsStep anyStep [s.onLocks] [s'.onLocks] := by
  simp only [Interrupted.acquire, Option.ite_none_left_eq_some, Option.some.injEq] at hs
  obtain ⟨hfree, rfl⟩ := hs
  have hnot : l.mutex ∉ s.onLocks.held := by
    intro hmem
    obtain ⟨l', hl', heq⟩ := List.mem_map.mp hmem
    exact hfree (Lock.mutex_injective heq ▸ hl')
  exact .single trivial (threadsStep_acquire hleft hnot)

theorem refines_release
    (hleft : s.stack.flatMap Frame.ops = .release l.mutex :: calls'.flatMap Frame.ops) :
    Reaches threadsStep anyStep [s.onLocks] [(s.release l calls').onLocks] := by
  have hheld : (s.release l calls').onLocks =
      ⟨s.onLocks.held.erase l.mutex, calls'.flatMap Frame.ops⟩ := by
    simp only [onLocks, release, List.map_erase Lock.mutex_injective]
  rw [hheld]
  exact .single trivial (threadsStep_release hleft)

theorem refines_same (hheld : s'.held = s.held)
    (hleft : s'.stack.flatMap Frame.ops = s.stack.flatMap Frame.ops) :
    Reaches threadsStep anyStep [s.onLocks] [s'.onLocks] := by
  have hsame : s'.onLocks = s.onLocks := by simp only [onLocks, hheld, hleft]
  rw [hsame]
  exact .refl

/-- The interrupted thread takes and releases its mutexes as the functions do. -/
theorem step_refines {a : Action} (hs : s.step a = some s') :
    Reaches threadsStep anyStep [s.onLocks] [s'.onLocks] := by
  cases a with
  | call c =>
    simp only [Interrupted.step, Option.ite_none_right_eq_some, Option.some.injEq] at hs
    obtain ⟨hempty, rfl⟩ := hs
    have hops : c.enter.ops = c.locking.ops := by cases c <;> rfl
    refine .single (a := .call 0 c.locking) trivial ?_
    simp [threadsStep, ThreadAction.onLocks, lockStep, LockThread.call, onLocks, hempty, hops]
  | signal signum =>
    simp only [Interrupted.step, Option.ite_none_right_eq_some, Option.some.injEq] at hs
    obtain ⟨-, rfl⟩ := hs
    rcases checkForSignals_cases s signum with hnone | ⟨added, -, hstop⟩
    · rw [hnone]
      exact .refl
    · rw [hstop]
      refine .single (a := .signal 0 (5 + added)) trivial ?_
      simp [threadsStep, ThreadAction.onLocks, lockStep, LockThread.interrupt, onLocks, Frame.ops]
  | proxy added =>
    simp only [Interrupted.step, Option.some.injEq] at hs
    subst hs
    exact .refl
  | advance =>
    replace hs : s.advance = some s' := hs
    unfold Interrupted.advance at hs
    split at hs
    all_goals rename_i hstack
    case h_1 => simp at hs
    case h_2 => exact refines_acquire hs (by rw [hstack]; rfl)
    case h_3 =>
      obtain rfl := Option.some.inj hs
      exact refines_release (by rw [hstack]; rfl)
    case h_4 =>
      obtain rfl := Option.some.inj hs
      exact refines_same rfl (by rw [hstack]; rfl)
    case h_5 => exact refines_acquire hs (by rw [hstack]; rfl)
    case h_6 =>
      obtain rfl := Option.some.inj hs
      exact refines_release (by rw [hstack]; rfl)
    case h_7 =>
      obtain rfl := Option.some.inj hs
      exact refines_same rfl (by rw [hstack]; rfl)
    case h_8 => exact refines_acquire hs (by rw [hstack]; rfl)
    case h_9 added i calls =>
      split at hs
      next hlt =>
        obtain rfl := Option.some.inj hs
        have hlogs : Frame.logs (5 + added - i) =
            critical .logFile [] ++ Frame.logs (5 + added - (i + 1)) := by
          have hsucc : 5 + added - i = (5 + added - (i + 1)) + 1 := by omega
          rw [hsucc, Frame.logs, List.replicate_succ, List.flatten_cons]
          rfl
        refine refines_same rfl ?_
        simp only [hstack, List.flatMap_cons, Frame.ops, hlogs, LockingCall.ops, List.append_assoc]
      next hge =>
        obtain rfl := Option.some.inj hs
        have hzero : 5 + added - i = 0 := by omega
        refine refines_release ?_
        simp [hstack, Frame.ops, Frame.logs, hzero, Lock.mutex]
    case h_10 =>
      obtain rfl := Option.some.inj hs
      exact refines_same rfl (by rw [hstack]; rfl)

/-- Every run of the interrupted thread is one of a single thread among mutexes. -/
theorem refines_threads {s : Interrupted} (h : Reaches Interrupted.step anyStep start s) :
    Reaches threadsStep anyStep [LockThread.outside] [s.onLocks] := by
  induction h with
  | refl => exact .refl
  | tail _ _ hs ih => exact ih.trans (step_refines hs)

end Interrupted
end MddProxy
