import MddProxy.Interleaving.Runs

/-!
# Signals and the locks they find held

`CheckForSignals` runs `MddProxy::Stop` on whatever thread the signal interrupts, in the
middle of whatever that thread was doing. `Stop` takes `sync_lock`, and the logging of
`FinishAndDie` takes the lock of the log file. Neither lock is recursive.

A thread is the stack of the calls it is inside that take one of the two locks. What
other threads do can only delay an acquisition.
-/
namespace MddProxy

open Interleaving

/-- The two locks: `WorkDispatcher::sync_lock` and that of `LogFile`. -/
inductive Lock where
  | syncLock
  | logFile
  deriving DecidableEq, Repr

/-- The signals in the `switch` of `CheckForSignals`, and the rest. -/
inductive Signal where
  | sigint
  | sigquit
  | sighup
  | sigabrt
  | sigbus
  | sigpipe
  | other
  deriving DecidableEq, Repr

/-- The calls of `signal` in `main`. -/
def Signal.installed : Signal → Bool
  | .sigint | .sigquit | .sigabrt => true
  | .sighup | .sigbus | .sigpipe | .other => false

/-- The cases of the `switch`. -/
def Signal.handled : Signal → Bool
  | .sigint | .sigquit | .sighup | .sigabrt | .sigbus | .sigpipe => true
  | .other => false

inductive LogFunction where
  | log
  | logException
  deriving DecidableEq, Repr

inductive LogPc where
  /-- About to call `logFile.getLogger()`. -/
  | getLogger
  /-- Between `getLogger` and `leave`. -/
  | writing
  | flush
  deriving DecidableEq, Repr

/-- The functions of the dispatcher that are one critical section. -/
inductive LockedFunction where
  | getFreeWorker
  | recordNewBusyWorker
  | returnFreeWorker
  deriving DecidableEq, Repr

inductive LockedPc where
  | lock
  /-- Between the constructor of `scoped_lock` and its destructor. -/
  | body
  deriving DecidableEq, Repr

inductive SweepPc where
  | cancelWait
  /-- `WakeUpAllThreads`: about to lock. -/
  | lock
  /-- At the top of its loop, with entry `i` next. -/
  | visit (i : ℕ)
  /-- In `FinishAndDie` on entry `i`, the `LOGINF` called. -/
  | finish (i : ℕ)
  deriving DecidableEq, Repr

/-- A call that a thread is inside. `added` is how many entries `workers` has beyond the
five of the constructor. -/
inductive Frame where
  | log (function : LogFunction) (pc : LogPc)
  | locked (function : LockedFunction) (pc : LockedPc)
  | stop (added : ℕ) (pc : SweepPc)
  deriving DecidableEq, Repr

namespace Frame

/-- The lock that the call has taken and not released. -/
def holds : Frame → Option Lock
  | .log _ .writing => some .logFile
  | .locked _ .body => some .syncLock
  | .stop _ (.visit _) | .stop _ (.finish _) => some .syncLock
  | .log _ .getLogger | .log _ .flush | .locked _ .lock => none
  | .stop _ .cancelWait | .stop _ .lock => none

def wants : Frame → Option Lock
  | .log _ .getLogger => some .logFile
  | .locked _ .lock | .stop _ .lock => some .syncLock
  | .log _ .writing | .log _ .flush | .locked _ .body => none
  | .stop _ .cancelWait | .stop _ (.visit _) | .stop _ (.finish _) => none

end Frame

/-- A thread, innermost call first, with the locks it holds. `mddPrxy` is the global of
`main`, given by the number of workers it has beyond the first five. -/
structure Interrupted where
  stack : List Frame
  held : List Lock
  mddPrxy : Option ℕ
  deriving DecidableEq, Repr

namespace Interrupted

/-- A thread inside none of the calls, before `main` has built the proxy. -/
def start : Interrupted where
  stack := []
  held := []
  mddPrxy := none

/-- A lock that the thread holds is not given to it again. -/
def acquire (s : Interrupted) (l : Lock) (stack : List Frame) : Option Interrupted :=
  if l ∈ s.held then none else some { s with stack, held := l :: s.held }

def release (s : Interrupted) (l : Lock) (stack : List Frame) : Interrupted :=
  { s with stack, held := s.held.erase l }

def advance (s : Interrupted) : Option Interrupted :=
  match s.stack with
  | [] => none
  | .log f .getLogger :: calls => s.acquire .logFile (.log f .writing :: calls)
  | .log f .writing :: calls => some (s.release .logFile (.log f .flush :: calls))
  | .log _ .flush :: calls => some { s with stack := calls }
  | .locked f .lock :: calls => s.acquire .syncLock (.locked f .body :: calls)
  | .locked _ .body :: calls => some (s.release .syncLock calls)
  | .stop n .cancelWait :: calls => some { s with stack := .stop n .lock :: calls }
  | .stop n .lock :: calls => s.acquire .syncLock (.stop n (.visit 0) :: calls)
  | .stop n (.visit i) :: calls =>
    if i < 5 + n then
      some { s with stack := .log .log .getLogger :: .stop n (.finish i) :: calls }
    else some (s.release .syncLock calls)
  | .stop n (.finish i) :: calls => some { s with stack := .stop n (.visit (i + 1)) :: calls }

inductive Call where
  | log (function : LogFunction)
  | locked (function : LockedFunction)
  | stop (added : ℕ)
  deriving DecidableEq, Repr

def Call.enter : Call → Frame
  | .log f => .log f .getLogger
  | .locked f => .locked f .lock
  | .stop n => .stop n .cancelWait

def checkForSignals (s : Interrupted) (signum : Signal) : List Frame :=
  if signum.handled then (s.mddPrxy.map fun n => .stop n .cancelWait).toList else []

inductive Action where
  /-- The thread, outside all of these calls, makes one. -/
  | call (c : Call)
  | advance
  /-- A signal is delivered to the thread. -/
  | signal (signum : Signal)
  /-- `mddPrxy` is assigned, with the five workers of the constructor, or has got `added` more. -/
  | proxy (added : ℕ)
  deriving DecidableEq, Repr

def step (s : Interrupted) : Action → Option Interrupted
  | .call c => if s.stack = [] then some { s with stack := [c.enter] } else none
  | .advance => s.advance
  | .signal signum =>
    if signum.installed then some { s with stack := s.checkForSignals signum ++ s.stack } else none
  | .proxy added => some { s with mddPrxy := some added }

/-- The innermost call is about to take a lock that the thread already holds. -/
def SelfDeadlocked (s : Interrupted) : Prop :=
  ∃ f ∈ s.stack.head?, ∃ l ∈ f.wants, l ∈ s.held

/-- There is no proxy yet when a signal arrives, or the thread is not between taking and
releasing a lock in any of the calls it is inside. -/
def OutsideLocks (s : Interrupted) : Action → Prop
  | .signal _ => s.mddPrxy = none ∨ ∀ f ∈ s.stack, f.holds = none
  | .call _ | .advance | .proxy _ => True

instance (s : Interrupted) (a : Action) : Decidable (s.OutsideLocks a) :=
  match a with
  | .signal _ => inferInstanceAs (Decidable (_ ∨ _))
  | .call _ | .advance | .proxy _ => .isTrue trivial

variable {s s' t : Interrupted} {f f' : Frame} {calls : List Frame} {l : Lock}

/-- None of the calls has a lock. -/
def Quiet (calls : List Frame) : Prop := ∀ f ∈ calls, f.holds = none

/-- Only the innermost call has a lock, or it is the logging of a `FinishAndDie`, below
which only the sweep has one. -/
inductive Nested : List Frame → Prop
  | idle : Nested []
  | call (f : Frame) {calls : List Frame} (hq : Quiet calls) : Nested (f :: calls)
  | finishing (g : LogFunction) (pc : LogPc) (n i : ℕ) {calls : List Frame} (hq : Quiet calls) :
      Nested (.log g pc :: .stop n (.finish i) :: calls)

theorem Quiet.nested (hq : Quiet calls) : Nested calls := by
  cases calls with
  | nil => exact .idle
  | cons f calls => exact .call f fun g hg => hq g (List.mem_cons_of_mem f hg)

theorem Quiet.held (hq : Quiet calls) : calls.filterMap Frame.holds = [] :=
  List.filterMap_eq_nil_iff.mpr hq

theorem Nested.tail (hn : Nested (f :: calls)) : Nested calls := by
  cases hn with
  | call _ hq => exact hq.nested
  | finishing _ _ n i hq => exact .call _ hq

theorem Nested.log {g : LogFunction} {pc pc' : LogPc} (hn : Nested (.log g pc :: calls)) :
    Nested (.log g pc' :: calls) := by
  cases hn with
  | call _ hq => exact .call _ hq
  | finishing _ _ n i hq => exact .finishing g pc' n i hq

theorem Nested.move (hn : Nested (f :: calls)) (hf : ∀ g pc, f ≠ .log g pc) :
    Quiet calls := by
  cases hn with
  | call _ hq => exact hq
  | finishing g pc _ _ _ => exact absurd rfl (hf g pc)

/-- The locks held are those of the calls, and these are nested. -/
structure WellNested (s : Interrupted) : Prop where
  held : s.held = s.stack.filterMap Frame.holds
  nested : Nested s.stack

/-- An innermost call that wants a lock has none, and no call below it has that lock. -/
theorem WellNested.not_selfDeadlocked (hw : s.WellNested) : ¬ s.SelfDeadlocked := by
  rintro ⟨f, hf, l, hl, hheld⟩
  obtain ⟨calls, hstack⟩ : ∃ calls, s.stack = f :: calls := List.head?_eq_some_iff.mp hf
  have hnone : f.holds = none := by
    revert hl
    fun_cases Frame.wants <;> simp [Frame.holds]
  have hnested := hw.nested
  rw [hw.held, hstack, List.filterMap_cons_none hnone] at hheld
  rw [hstack] at hnested
  cases hnested with
  | call _ hq => simp [hq.held] at hheld
  | finishing g pc n i hq =>
    have hsync : l = .syncLock := by simpa [Frame.holds, hq.held] using hheld
    subst hsync
    cases pc <;> simp [Frame.wants] at hl

theorem WellNested.acquire (hnested : Nested (f' :: calls))
    (hheld : s.held = calls.filterMap Frame.holds) (hf' : f'.holds = some l)
    (hs : s.acquire l (f' :: calls) = some s') : s'.WellNested := by
  simp only [Interrupted.acquire, Option.ite_none_left_eq_some, Option.some.injEq] at hs
  obtain ⟨-, rfl⟩ := hs
  refine ⟨?_, hnested⟩
  rw [List.filterMap_cons_some hf', ← hheld]

theorem WellNested.release {calls' : List Frame} (hw : s.WellNested) (hstack : s.stack = f :: calls)
    (hf : f.holds = some l) (hnested : Nested calls')
    (hheld : calls'.filterMap Frame.holds = calls.filterMap Frame.holds) :
    (s.release l calls').WellNested := by
  refine ⟨?_, hnested⟩
  simp only [Interrupted.release]
  rw [hw.held, hstack, List.filterMap_cons_some hf, List.erase_cons_head, hheld]

theorem WellNested.advance (hw : s.WellNested) (hs : s.advance = some s') : s'.WellNested := by
  have hheld := hw.held
  have hnested := hw.nested
  unfold Interrupted.advance at hs
  split at hs
  all_goals rename_i hstack
  all_goals rw [hstack] at hheld hnested
  case h_1 => simp at hs
  case h_2 => exact .acquire hnested.log hheld rfl hs
  case h_3 =>
    obtain rfl := Option.some.inj hs
    exact hw.release hstack rfl hnested.log rfl
  case h_4 =>
    obtain rfl := Option.some.inj hs
    exact ⟨hheld, hnested.tail⟩
  case h_5 => exact .acquire (.call _ (hnested.move (by simp))) hheld rfl hs
  case h_6 =>
    obtain rfl := Option.some.inj hs
    exact hw.release hstack rfl hnested.tail rfl
  case h_7 =>
    obtain rfl := Option.some.inj hs
    exact ⟨hheld, .call _ (hnested.move (by simp))⟩
  case h_8 => exact .acquire (.call _ (hnested.move (by simp))) hheld rfl hs
  case h_9 =>
    have hq := hnested.move (by simp)
    split at hs
    · obtain rfl := Option.some.inj hs
      exact ⟨hheld, .finishing _ _ _ _ hq⟩
    · obtain rfl := Option.some.inj hs
      exact hw.release hstack rfl hq.nested rfl
  case h_10 =>
    obtain rfl := Option.some.inj hs
    exact ⟨hheld, .call _ (hnested.move (by simp))⟩

theorem checkForSignals_cases (s : Interrupted) (signum : Signal) :
    s.checkForSignals signum = [] ∨
      ∃ n, s.mddPrxy = some n ∧ s.checkForSignals signum = [.stop n .cancelWait] := by
  unfold checkForSignals
  split
  · cases hp : s.mddPrxy with
    | none => exact .inl rfl
    | some n => exact .inr ⟨n, rfl, rfl⟩
  · exact .inl rfl

theorem WellNested.step {a : Action} (hw : s.WellNested) (ho : s.OutsideLocks a)
    (hs : s.step a = some s') : s'.WellNested := by
  cases a with
  | call c =>
    simp only [Interrupted.step, Option.ite_none_right_eq_some, Option.some.injEq] at hs
    obtain ⟨hempty, rfl⟩ := hs
    have hheld := hw.held
    rw [hempty] at hheld
    refine ⟨?_, .call _ (by simp [Quiet])⟩
    cases c <;> exact hheld
  | advance => exact hw.advance hs
  | signal signum =>
    simp only [Interrupted.step, Option.ite_none_right_eq_some, Option.some.injEq] at hs
    obtain ⟨-, rfl⟩ := hs
    rcases checkForSignals_cases s signum with hcalls | ⟨n, hp, hcalls⟩
    · rw [hcalls]
      exact ⟨hw.held, hw.nested⟩
    · rw [hcalls]
      have hq : Quiet s.stack := ho.resolve_left (by simp [hp])
      exact ⟨hw.held, .call _ hq⟩
  | proxy added =>
    obtain rfl := Option.some.inj hs
    exact ⟨hw.held, hw.nested⟩

/-- **Signals delivered outside the locks**: in every run in which they are, no thread
waits for a lock it holds. -/
theorem signals_never_self_deadlock (h : Reaches step OutsideLocks start s) :
    ¬ s.SelfDeadlocked := by
  have hw : s.WellNested := by
    apply h.invariant (I := WellNested) ⟨rfl, .idle⟩
    intro s a s' hw ho hs
    exact hw.step ho hs
  exact hw.not_selfDeadlocked

/-- A `SIGINT` just before the `Log` of `Create` locks, and a `SIGQUIT` in the next one. -/
def outsideLog : List Action :=
  [.proxy 0, .call (.log .log), .signal .sigint] ++ List.replicate 31 .advance ++
    [.call (.log .log), .signal .sigquit]

theorem signals_never_self_deadlock_outside : ∃ s, Reaches step OutsideLocks start s ∧
    s.stack.length = 2 ∧ ¬ s.SelfDeadlocked := by
  obtain ⟨s, hs, hlen⟩ : ∃ s, Reaches step OutsideLocks start s ∧ s.stack.length = 2 :=
    exists_reaches_of_runChecked outsideLog (by decide)
  exact ⟨s, hs, hlen, signals_never_self_deadlock hs⟩

instance (s : Interrupted) : Decidable s.SelfDeadlocked :=
  inferInstanceAs (Decidable (∃ f ∈ s.stack.head?, ∃ l ∈ f.wants, l ∈ s.held))

/-- The condition is exact: once there is a proxy, a signal to a thread inside a lock gets
that thread to wait for itself. -/
theorem selfDeadlocked_of_inside (hw : s.WellNested) {n : ℕ} (hp : s.mddPrxy = some n)
    {signum : Signal} (hi : signum.installed = true) (hin : ∃ f ∈ s.stack, f.holds = some l) :
    ∃ t u, s.step (.signal signum) = some t ∧ Reaches step anyStep t u ∧ u.SelfDeadlocked := by
  have hheld : l ∈ s.held := by
    obtain ⟨f, hf, hl⟩ := hin
    rw [hw.held]
    exact List.mem_filterMap.mpr ⟨f, hf, hl⟩
  have hcalls : s.checkForSignals signum = [.stop n .cancelWait] := by
    cases signum <;> simp [Signal.installed, checkForSignals, Signal.handled, hp] at hi ⊢
  refine ⟨{ s with stack := .stop n .cancelWait :: s.stack }, ?_⟩
  by_cases hsync : Lock.syncLock ∈ s.held
  · have hrun : runChecked step anyStep { s with stack := .stop n .cancelWait :: s.stack }
        [.advance] = some { s with stack := .stop n .lock :: s.stack } := by
      simp [runChecked, step, advance]
    refine ⟨_, ?_, .of_runChecked hrun, _, rfl, _, rfl, hsync⟩
    simp [step, hi, hcalls]
  · have hlog : l = .logFile := by
      cases l with
      | syncLock => exact absurd hheld hsync
      | logFile => rfl
    subst hlog
    have hrun : runChecked step anyStep { s with stack := .stop n .cancelWait :: s.stack }
        (List.replicate 3 .advance) = some
          { s with
            stack := .log .log .getLogger :: .stop n (.finish 0) :: s.stack
            held := .syncLock :: s.held } := by
      simp [runChecked, step, advance, acquire, hsync]
    refine ⟨_, ?_, .of_runChecked hrun, _, rfl, _, rfl, List.mem_cons_of_mem _ hheld⟩
    simp [step, hi, hcalls]

/-- A `SIGINT` inside the `Log` of `Create`, on a proxy with the five workers of the
constructor. The sweep of `Stop` gets to the first of them, and its `FinishAndDie` logs. -/
theorem self_deadlock_reachable : ∃ s, Reaches step anyStep start s ∧ s.SelfDeadlocked :=
  exists_reaches_of_runChecked
    ([.proxy 0, .call (.log .log), .advance, .signal .sigint] ++ List.replicate 3 .advance)
    (by decide)

end Interrupted
end MddProxy
