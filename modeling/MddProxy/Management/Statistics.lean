import MddProxy.Interleaving.Runs

/-!
# Starting and stopping the statistics

`StatsWriter::Start` sets `writeStats`, starts a thread in `WriteStats` and joins it. That
thread leaves its loop when `writeStats` is cleared, and only `StatsWriter::Stop` clears
it, on the management thread that is waiting for the join.
-/
namespace MddProxy

open Interleaving

/-- `StartStats`, with the frequency of the overload that has one, and `StopStats`. -/
inductive StatsCommand where
  | startStats (frequency : Option ℕ)
  | stopStats
  deriving DecidableEq, Repr

/-- The argument of `Start(uint16_t seconds=300)`. -/
def startSeconds : Option ℕ → ℕ
  | some frequency => frequency % 65536
  | none => 300

inductive ManagementPc where
  /-- About to take the next command. -/
  | idle
  /-- `Start`: about to set `writeStats`. -/
  | setWriteStats (seconds : ℕ)
  | setFrequency (seconds : ℕ)
  | create
  /-- `Start`: inside `pthread_join` on stats thread number `k`. -/
  | join (k : ℕ)
  /-- `Stop`: about to clear `writeStats`. -/
  | clearWriteStats
  deriving DecidableEq, Repr

inductive StatsPc where
  /-- About to test `writeStats`. -/
  | test
  | sleep
  | log
  /-- About to report collector number `i`. -/
  | report (i : ℕ)
  | exited
  deriving DecidableEq, Repr

/-- The `StatsWriter` with `collectors` entries in its map, its threads, and the management
thread with the commands it has still to serve. -/
structure Statistics where
  writeStats : Bool
  frequency : ℕ
  collectors : ℕ
  threads : List StatsPc
  management : ManagementPc
  commands : List StatsCommand
  deriving DecidableEq, Repr

namespace Statistics

/-- A new `StatsWriter` and a management thread with some commands before it. -/
def start (collectors : ℕ) (commands : List StatsCommand) : Statistics where
  writeStats := false
  frequency := 0
  collectors
  threads := []
  management := .idle
  commands

def managementStep (s : Statistics) : Option Statistics :=
  match s.management with
  | .idle =>
    match s.commands with
    | [] => none
    | .startStats frequency :: rest =>
      some { s with management := .setWriteStats (startSeconds frequency), commands := rest }
    | .stopStats :: rest => some { s with management := .clearWriteStats, commands := rest }
  | .setWriteStats seconds =>
    some { s with writeStats := true, management := .setFrequency seconds }
  | .setFrequency seconds => some { s with frequency := seconds, management := .create }
  | .create =>
    some { s with threads := s.threads ++ [.test], management := .join s.threads.length }
  | .join k =>
    if s.threads[k]? = some .exited then some { s with management := .idle } else none
  | .clearWriteStats => some { s with writeStats := false, management := .idle }

/-- The next point of a stats thread. `sleep` returns after some time. -/
def statsNext (s : Statistics) : StatsPc → Option StatsPc
  | .test => some (if s.writeStats then .sleep else .exited)
  | .sleep => some .log
  | .log => some (.report 0)
  | .report i => some (if i < s.collectors then .report (i + 1) else .test)
  | .exited => none

inductive Action where
  | management
  | stats (k : ℕ)
  deriving DecidableEq, Repr

def step (s : Statistics) : Action → Option Statistics
  | .management => s.managementStep
  | .stats k => (s.threads[k]?).bind fun pc => (s.statsNext pc).map fun pc' =>
      { s with threads := s.threads.set k pc' }

/-- The management thread is inside `Start`, waiting for a thread that nobody tells to
end. -/
def Stuck (s : Statistics) : Prop := s.writeStats = true ∧ ∃ k, s.management = .join k

/-- The commands never deadlock the management thread: it is never stuck, and from every
state it gets to where it takes the next command. -/
structure NeverDeadlocks (collectors : ℕ) (commands : List StatsCommand) : Prop where
  notStuck : ∀ s, Reaches step anyStep (start collectors commands) s → ¬ s.Stuck
  served : ∀ s, Reaches step anyStep (start collectors commands) s →
    ∃ t, Reaches step anyStep s t ∧ t.management = .idle

variable {s s' : Statistics} {k collectors : ℕ} {commands : List StatsCommand}

theorem step_stats (hs : s.step (.stats k) = some s') : ∃ pc pc', s.threads[k]? = some pc ∧
    s.statsNext pc = some pc' ∧ s' = { s with threads := s.threads.set k pc' } := by
  obtain ⟨pc, hpc, hs⟩ := Option.bind_eq_some_iff.mp hs
  obtain ⟨pc', hpc', rfl⟩ := Option.map_eq_some_iff.mp hs
  exact ⟨pc, pc', hpc, hpc', rfl⟩

theorem statsNext_ne_exited {pc pc' : StatsPc} (hwrite : s.writeStats = true)
    (hnext : s.statsNext pc = some pc') : pc' ≠ .exited := by
  rintro rfl
  cases pc with
  | test => simp [statsNext, hwrite] at hnext
  | report i =>
    simp only [statsNext, Option.some.injEq] at hnext
    split at hnext <;> simp at hnext
  | _ => simp [statsNext] at hnext

/-- Once joined, the stats thread is in its loop and told to stay there. -/
def Waiting (k : ℕ) (s : Statistics) : Prop :=
  s.management = .join k ∧ s.writeStats = true ∧ ∃ pc, s.threads[k]? = some pc ∧ pc ≠ .exited

theorem Waiting.step {a : Action} (hw : s.Waiting k) (hs : s.step a = some s') :
    s'.Waiting k := by
  obtain ⟨hm, hwrite, pc, hpc, hlive⟩ := hw
  cases a with
  | management =>
    have hnot : s.threads[k]? ≠ some .exited := by
      intro h
      rw [hpc, Option.some.injEq] at h
      exact hlive h
    simp [Statistics.step, managementStep, hm, hnot] at hs
  | stats j =>
    obtain ⟨pc₁, pc₂, hj, hnext, rfl⟩ := step_stats hs
    refine ⟨hm, hwrite, ?_⟩
    by_cases hjk : j = k
    · subst hjk
      obtain rfl : pc = pc₁ := Option.some.inj (hpc.symm.trans hj)
      have hlen := (List.getElem?_eq_some_iff.mp hpc).1
      exact ⟨pc₂, List.getElem?_set_self hlen, statsNext_ne_exited hwrite hnext⟩
    · exact ⟨pc, (List.getElem?_set_ne hjk).trans hpc, hlive⟩

/-- **A start never returns**: from the join on, the management thread takes no step in
any run. -/
theorem start_never_returns (hw : s.Waiting k) (h : Reaches step anyStep s s') :
    s'.management = .join k ∧ s'.step .management = none := by
  have hw' : s'.Waiting k := h.invariant hw fun _ _ _ hi _ hs => hi.step hs
  obtain ⟨hm, -, pc, hpc, hlive⟩ := hw'
  refine ⟨hm, ?_⟩
  have hnot : s'.threads[k]? ≠ some .exited := by
    intro h
    rw [hpc, Option.some.injEq] at h
    exact hlive h
  simp [step, managementStep, hm, hnot]

theorem start_waits {frequency : Option ℕ} {rest : List StatsCommand}
    (hidle : s.management = .idle) (hc : s.commands = .startStats frequency :: rest) :
    ∃ t, Reaches step anyStep s t ∧ t.Waiting s.threads.length := by
  have hrun : runChecked step anyStep s (List.replicate 4 .management) = some
      { s with
        writeStats := true
        frequency := startSeconds frequency
        threads := s.threads ++ [.test]
        management := .join s.threads.length
        commands := rest } := by
    simp [runChecked, step, managementStep, hidle, hc]
  exact ⟨_, .of_runChecked hrun, rfl, rfl, .test, List.getElem?_concat_length, by simp⟩

theorem stop_served {rest : List StatsCommand} (hidle : s.management = .idle)
    (hc : s.commands = .stopStats :: rest) :
    ∃ t, Reaches step anyStep s t ∧ t.management = .idle ∧ t.commands = rest := by
  have hrun : runChecked step anyStep s (List.replicate 2 .management) = some
      { s with writeStats := false, management := .idle, commands := rest } := by
    simp [runChecked, step, managementStep, hidle, hc]
  exact ⟨_, .of_runChecked hrun, rfl, rfl⟩

theorem exists_waiting (hidle : s.management = .idle)
    (hstart : ∃ c ∈ s.commands, c ≠ .stopStats) :
    ∃ t k, Reaches step anyStep s t ∧ t.Waiting k := by
  generalize hc : s.commands = commands at hstart
  induction commands generalizing s with
  | nil => simp at hstart
  | cons c rest ih =>
    cases c with
    | startStats frequency =>
      obtain ⟨t, ht, hw⟩ := start_waits hidle hc
      exact ⟨t, _, ht, hw⟩
    | stopStats =>
      obtain ⟨t, ht, hidle', hc'⟩ := stop_served hidle hc
      obtain ⟨u, k, hu, hw⟩ := ih hidle' hc' (by simpa using hstart)
      exact ⟨u, k, ht.trans hu, hw⟩

structure OnlyStops (s : Statistics) : Prop where
  management : s.management = .idle ∨ s.management = .clearWriteStats
  commands : ∀ c ∈ s.commands, c = .stopStats
  threads : s.threads = []

theorem OnlyStops.step {a : Action} (ho : s.OnlyStops) (hs : s.step a = some s') :
    s'.OnlyStops := by
  have hcommands := ho.commands
  cases a with
  | management =>
    rcases ho.management with hm | hm
    · cases hc : s.commands with
      | nil => simp [Statistics.step, managementStep, hm, hc] at hs
      | cons c rest =>
        rw [hc] at hcommands
        obtain ⟨rfl, hrest⟩ := List.forall_mem_cons.mp hcommands
        simp only [Statistics.step, managementStep, hm, hc, Option.some.injEq] at hs
        subst hs
        exact ⟨.inr rfl, hrest, ho.threads⟩
    · simp only [Statistics.step, managementStep, hm, Option.some.injEq] at hs
      subst hs
      exact ⟨.inl rfl, hcommands, ho.threads⟩
  | stats k =>
    obtain ⟨pc, pc', hpc, -, rfl⟩ := step_stats hs
    simp [ho.threads] at hpc

theorem OnlyStops.idle (ho : s.OnlyStops) :
    ∃ t, Reaches Statistics.step anyStep s t ∧ t.management = .idle := by
  rcases ho.management with hm | hm
  · exact ⟨s, .refl, hm⟩
  · refine ⟨{ s with writeStats := false, management := .idle }, ?_, rfl⟩
    apply Reaches.tail (a := .management) .refl trivial
    simp [Statistics.step, managementStep, hm]

theorem NeverDeadlocks.onlyStops (hn : NeverDeadlocks collectors commands) :
    ∀ c ∈ commands, c = .stopStats := by
  by_contra hstart
  obtain ⟨c, hc, hne⟩ : ∃ c ∈ commands, c ≠ .stopStats := by simpa using hstart
  obtain ⟨t, k, ht, hm, hwrite, -⟩ :=
    exists_waiting (s := start collectors commands) rfl ⟨c, hc, hne⟩
  exact hn.notStuck t ht ⟨hwrite, k, hm⟩

theorem neverDeadlocks_of_onlyStops (hstops : ∀ c ∈ commands, c = .stopStats) :
    NeverDeadlocks collectors commands := by
  have honly : ∀ s, Reaches step anyStep (start collectors commands) s → s.OnlyStops := by
    intro s hs
    apply hs.invariant (I := OnlyStops) ⟨.inl rfl, hstops, rfl⟩
    intro s a s' ho _ hstep
    exact ho.step hstep
  refine ⟨fun s hs => ?_, fun s hs => (honly s hs).idle⟩
  rintro ⟨-, k, hk⟩
  rcases (honly s hs).management with hm | hm <;> simp [hm] at hk

/-- **Statistics control**: a sequence of commands never deadlocks the management thread
exactly when it starts no statistics. -/
theorem never_deadlocks_iff (collectors : ℕ) (commands : List StatsCommand) :
    NeverDeadlocks collectors commands ↔ ∀ c ∈ commands, c = .stopStats :=
  ⟨fun hn => hn.onlyStops, neverDeadlocks_of_onlyStops⟩

/-- A single `StartStats` with the default frequency. -/
theorem start_stats_deadlocks : ¬ ∀ collectors commands, NeverDeadlocks collectors commands := by
  intro hstated
  have hstop := (hstated 1 [.startStats none]).onlyStops (.startStats none)
    (List.mem_singleton_self _)
  simp at hstop

end Statistics
end MddProxy
