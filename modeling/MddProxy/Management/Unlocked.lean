import MddProxy.Management.Collector
import MddProxy.Interleaving.Runs
import MddProxy.Interleaving.Slots

/-!
# Counting without a lock

`ReportBytes` runs on the threads of the workers and `GetStatsInPrevPeriod` on the stats
thread, and neither takes a lock: `+=` is a load and a later store, and the end of a period
is three accesses to the interval counter. The counters are those of the calls one after
the other as long as every access finds what the first load of its call found. The first
access that does not loses bytes or counts some twice.

One load or store of a member is one step.
-/
namespace MddProxy

open Interleaving

inductive ReportPc where
  | outside
  /-- About to store the sum of what it has loaded and the bytes transferred. -/
  | storing (transferedBytes : ℕ) (loaded : UInt32)
  deriving DecidableEq, Repr

/-- Where the stats thread is in `GetStatsInPrevPeriod`; `bytes` is `stats.bytes`. -/
inductive PeriodPc where
  | outside
  /-- About to divide by the seconds since `intvlStart`, and to store the new one. -/
  | dividing (bytes : UInt32)
  /-- About to add the counter to `totalBytesTrns`. -/
  | adding (bytes : UInt32)
  /-- About to clear the counter and to return. -/
  | clearing (bytes : UInt32)
  deriving DecidableEq, Repr

def ReportPc.loaded : ReportPc → Option UInt32
  | .outside => none
  | .storing _ loaded => some loaded

def PeriodPc.loaded : PeriodPc → Option UInt32
  | .outside => none
  | .dividing bytes | .adding bytes | .clearing bytes => some bytes

/-- `intvlStart` has been stored, and the period has not been returned. -/
def PeriodPc.closing : PeriodPc → Bool
  | .adding _ | .clearing _ => true
  | .outside | .dividing _ => false

def PeriodPc.added : PeriodPc → List UInt32
  | .clearing bytes => [bytes]
  | .outside | .dividing _ | .adding _ => []

/-- A collector and the threads that use it. `crashed` says that a division by zero has
ended the process, `completed` lists the calls by their last store, and `returned` the
`bytes` fields returned. -/
structure Unlocked where
  collector : Collector
  reports : List ReportPc
  period : PeriodPc
  crashed : Bool
  completed : List Collector.Call
  returned : List UInt32
  deriving DecidableEq, Repr

namespace Unlocked

/-- A new collector and `threads` threads that can report. -/
def start (threads : ℕ) (junk : ℤ) : Unlocked where
  collector := .new junk
  reports := List.replicate threads .outside
  period := .outside
  crashed := false
  completed := []
  returned := []

inductive Action where
  /-- Thread `i` calls `ReportBytes` and loads the counter. -/
  | report (i transferedBytes : ℕ)
  | store (i : ℕ)
  /-- The stats thread calls `GetStatsInPrevPeriod` and loads `stats.bytes`. -/
  | load
  | divide (now : ℤ)
  | add
  | clear
  deriving DecidableEq, Repr

def setInterval (s : Unlocked) (bytes : UInt32) : Unlocked :=
  { s with collector := { s.collector with intvlBytesTrns := bytes } }

@[simp] theorem setInterval_totalBytesTrns (s : Unlocked) (bytes : UInt32) :
    (s.setInterval bytes).collector.totalBytesTrns = s.collector.totalBytesTrns := rfl

def reportStep (s : Unlocked) (i transferedBytes : ℕ) : ReportPc → Option Unlocked
  | .outside => some
    { s with reports := s.reports.set i (.storing transferedBytes s.collector.intvlBytesTrns) }
  | .storing .. => none

def storeStep (s : Unlocked) (i : ℕ) : ReportPc → Option Unlocked
  | .outside => none
  | .storing transferedBytes loaded => some
    { s.setInterval (loaded + UInt32.ofNat transferedBytes) with
      reports := s.reports.set i .outside
      completed := s.completed ++ [.reportBytes transferedBytes] }

def divideStep (s : Unlocked) (now : ℤ) : PeriodPc → Option Unlocked
  | .dividing bytes =>
    if now - s.collector.intvlStart = 0 then some { s with crashed := true }
    else some
      { s with collector := { s.collector with intvlStart := now }, period := .adding bytes }
  | .outside | .adding _ | .clearing _ => none

def addStep (s : Unlocked) : PeriodPc → Option Unlocked
  | .adding bytes => some
    { s with
      collector := { s.collector with
        totalBytesTrns := s.collector.totalBytesTrns + s.collector.intvlBytesTrns.toUInt64 }
      period := .clearing bytes }
  | .outside | .dividing _ | .clearing _ => none

def clearStep (s : Unlocked) : PeriodPc → Option Unlocked
  | .clearing bytes => some
    { s.setInterval 0 with
      period := .outside
      completed := s.completed ++ [.getStatsInPrevPeriod s.collector.intvlStart]
      returned := s.returned ++ [bytes] }
  | .outside | .dividing _ | .adding _ => none

def step (s : Unlocked) (a : Action) : Option Unlocked :=
  if s.crashed = true then none
  else match a with
  | .report i transferedBytes => (s.reports[i]?).bind (s.reportStep i transferedBytes)
  | .store i => (s.reports[i]?).bind (s.storeStep i)
  | .load =>
    if s.period = .outside then some { s with period := .dividing s.collector.intvlBytesTrns }
    else none
  | .divide now => s.divideStep now s.period
  | .add => s.addStep s.period
  | .clear => s.clearStep s.period

/-- The counter holds what a call has loaded, if there is a call. -/
def StillHolds (s : Unlocked) (loaded : Option UInt32) : Prop :=
  loaded = none ∨ loaded = some s.collector.intvlBytesTrns

instance (s : Unlocked) (loaded : Option UInt32) : Decidable (s.StillHolds loaded) :=
  inferInstanceAs (Decidable (_ ∨ _))

theorem stillHolds_some {s : Unlocked} {bytes : UInt32} :
    s.StillHolds (some bytes) ↔ s.collector.intvlBytesTrns = bytes := by
  simp [StillHolds, eq_comm]

/-- The guard: an access after the first finds the counter as the call has loaded it. -/
def FindsLoaded (s : Unlocked) : Action → Prop
  | .store i => s.StillHolds ((s.reports[i]?).bind ReportPc.loaded)
  | .add | .clear => s.StillHolds s.period.loaded
  | .report .. | .load | .divide _ => True

instance (s : Unlocked) (a : Action) : Decidable (s.FindsLoaded a) :=
  match a with
  | .store i => inferInstanceAs (Decidable (s.StillHolds ((s.reports[i]?).bind ReportPc.loaded)))
  | .add | .clear => inferInstanceAs (Decidable (s.StillHolds s.period.loaded))
  | .report .. | .load | .divide _ => .isTrue trivial

/-- The bytes returned and counted are those reported, as far as the width of the interval
counter shows, and the total is that of the bytes returned. -/
structure Accounted (s : Unlocked) : Prop where
  reported : (s.returned.map UInt32.toNat).sum + s.collector.intvlBytesTrns.toNat ≡
    Collector.reported s.completed [MOD 2 ^ 32]
  total : s.collector.totalBytesTrns.toNat =
    ((s.returned ++ s.period.added).map UInt32.toNat).sum % 2 ^ 64

variable {s s' : Unlocked} {a : Action} {threads : ℕ} {junk : ℤ}

inductive Move (s : Unlocked) : Action → Unlocked → Prop
  | report (i n : ℕ) (hi : s.reports[i]? = some .outside) :
    Move s (.report i n)
      { s with reports := s.reports.set i (.storing n s.collector.intvlBytesTrns) }
  | store (i n : ℕ) (loaded : UInt32) (hi : s.reports[i]? = some (.storing n loaded)) :
    Move s (.store i)
      { s.setInterval (loaded + UInt32.ofNat n) with
        reports := s.reports.set i .outside
        completed := s.completed ++ [.reportBytes n] }
  | load (hperiod : s.period = .outside) :
    Move s .load { s with period := .dividing s.collector.intvlBytesTrns }
  | crash (now : ℤ) (bytes : UInt32) (hperiod : s.period = .dividing bytes) :
    Move s (.divide now) { s with crashed := true }
  | divide (now : ℤ) (bytes : UInt32) (hperiod : s.period = .dividing bytes)
    (hnow : now - s.collector.intvlStart ≠ 0) :
    Move s (.divide now)
      { s with collector := { s.collector with intvlStart := now }, period := .adding bytes }
  | add (bytes : UInt32) (hperiod : s.period = .adding bytes) :
    Move s .add
      { s with
        collector := { s.collector with
          totalBytesTrns := s.collector.totalBytesTrns + s.collector.intvlBytesTrns.toUInt64 }
        period := .clearing bytes }
  | clear (bytes : UInt32) (hperiod : s.period = .clearing bytes) :
    Move s .clear
      { s.setInterval 0 with
        period := .outside
        completed := s.completed ++ [.getStatsInPrevPeriod s.collector.intvlStart]
        returned := s.returned ++ [bytes] }

theorem step_move (hs : s.step a = some s') : Move s a s' := by
  obtain ⟨-, hs⟩ := Option.ite_none_left_eq_some.mp hs
  cases a with
  | report i n =>
    obtain ⟨pc, hi, hs⟩ := Option.bind_eq_some_iff.mp hs
    cases pc with
    | outside =>
      cases hs
      exact .report i n hi
    | storing n loaded => cases hs
  | store i =>
    obtain ⟨pc, hi, hs⟩ := Option.bind_eq_some_iff.mp hs
    cases pc with
    | outside => cases hs
    | storing n loaded =>
      cases hs
      exact .store i n loaded hi
  | load =>
    obtain ⟨hperiod, hs⟩ := Option.ite_none_right_eq_some.mp hs
    cases hs
    exact .load hperiod
  | divide now =>
    generalize hperiod : s.period = pc at hs
    cases pc with
    | dividing bytes =>
      simp only [divideStep] at hs
      split_ifs at hs with hnow
      · cases hs
        exact .crash now bytes hperiod
      · cases hs
        exact .divide now bytes hperiod hnow
    | _ => cases hs
  | add =>
    generalize hperiod : s.period = pc at hs
    cases pc with
    | adding bytes =>
      cases hs
      exact .add bytes hperiod
    | _ => cases hs
  | clear =>
    generalize hperiod : s.period = pc at hs
    cases pc with
    | clearing bytes =>
      cases hs
      exact .clear bytes hperiod
    | _ => cases hs

theorem findsLoaded_store {i n : ℕ} {loaded : UInt32}
    (hpc : s.reports[i]? = some (.storing n loaded)) :
    s.FindsLoaded (.store i) ↔ s.collector.intvlBytesTrns = loaded := by
  rw [FindsLoaded, hpc]
  exact stillHolds_some

theorem findsLoaded_add {bytes : UInt32} (hperiod : s.period = .adding bytes) :
    s.FindsLoaded .add ↔ s.collector.intvlBytesTrns = bytes := by
  rw [FindsLoaded, hperiod]
  exact stillHolds_some

theorem findsLoaded_clear {bytes : UInt32} (hperiod : s.period = .clearing bytes) :
    s.FindsLoaded .clear ↔ s.collector.intvlBytesTrns = bytes := by
  rw [FindsLoaded, hperiod]
  exact stillHolds_some

theorem reported_append (calls : List Collector.Call) (call : Collector.Call) :
    Collector.reported (calls ++ [call]) =
      Collector.reported calls + Collector.reported [call] := by
  induction calls with
  | nil => simp [Collector.reported]
  | cons c calls ih =>
    cases c with
    | reportBytes n => simp only [List.cons_append, Collector.reported, ih, Nat.add_assoc]
    | getStatsInPrevPeriod now => exact ih

theorem modEq_toNat_iff {m : ℕ} (hm : 2 ^ 32 ≤ m) {x y : UInt32} :
    x.toNat ≡ y.toNat [MOD m] ↔ x = y := by
  rw [Nat.ModEq, Nat.mod_eq_of_lt (x.toNat_lt.trans_le hm),
    Nat.mod_eq_of_lt (y.toNat_lt.trans_le hm), UInt32.toNat_inj]

theorem sum_store_modEq (sum n : ℕ) (loaded : UInt32) :
    sum + (loaded + UInt32.ofNat n).toNat ≡ sum + loaded.toNat + n [MOD 2 ^ 32] := by
  rw [Nat.add_assoc]
  apply Nat.ModEq.add_left
  simp [Nat.ModEq]

theorem Accounted.modEq_iff (hi : s.Accounted) (bytes : UInt32) :
    (s.returned.map UInt32.toNat).sum + bytes.toNat ≡
      Collector.reported s.completed [MOD 2 ^ 32] ↔ s.collector.intvlBytesTrns = bytes := by
  constructor
  · intro h
    exact (modEq_toNat_iff le_rfl).mp (Nat.ModEq.add_left_cancel' _ (hi.reported.trans h.symm))
  · rintro rfl
    exact hi.reported

/-- An access keeps the account exactly when it finds what its call has loaded. -/
theorem Accounted.step_iff (hi : s.Accounted) (hs : s.step a = some s') :
    s'.Accounted ↔ s.FindsLoaded a := by
  have htotal := hi.total
  have hreturned : ∀ bytes, ((s.returned ++ [bytes]).map UInt32.toNat).sum =
      (s.returned.map UInt32.toNat).sum + bytes.toNat := by simp
  cases step_move hs with
  | report i n hi' => exact ⟨fun _ => trivial, fun _ => ⟨hi.reported, htotal⟩⟩
  | load hperiod =>
    have hsame : s.period.added = [] := by rw [hperiod, PeriodPc.added]
    exact ⟨fun _ => trivial, fun _ => ⟨hi.reported, by rwa [hsame] at htotal⟩⟩
  | crash now bytes hperiod => exact ⟨fun _ => trivial, fun _ => ⟨hi.reported, htotal⟩⟩
  | divide now bytes hperiod hnow =>
    have hsame : s.period.added = [] := by rw [hperiod, PeriodPc.added]
    exact ⟨fun _ => trivial, fun _ => ⟨hi.reported, by rwa [hsame] at htotal⟩⟩
  | store i n loaded hpc =>
    have hstored := sum_store_modEq (s.returned.map UInt32.toNat).sum n loaded
    have hcalls : Collector.reported (s.completed ++ [.reportBytes n]) =
        Collector.reported s.completed + n := reported_append _ _
    rw [findsLoaded_store hpc, ← hi.modEq_iff]
    constructor
    · rintro ⟨hreported, -⟩
      have h := hstored.symm.trans hreported
      rw [hcalls] at h
      exact Nat.ModEq.add_right_cancel' n h
    · intro h
      refine ⟨?_, htotal⟩
      rw [hcalls]
      exact hstored.trans (h.add_right n)
  | add bytes hperiod =>
    have hsum : (s.collector.totalBytesTrns + s.collector.intvlBytesTrns.toUInt64).toNat =
        ((s.returned.map UInt32.toNat).sum + s.collector.intvlBytesTrns.toNat) % 2 ^ 64 := by
      simp [htotal, hperiod, PeriodPc.added]
    rw [findsLoaded_add hperiod]
    constructor
    · rintro ⟨-, hafter⟩
      have h := hsum.symm.trans (hafter.trans (congrArg (· % 2 ^ 64) (hreturned bytes)))
      exact (modEq_toNat_iff (by decide)).mp (Nat.ModEq.add_left_cancel' _ h)
    · rintro rfl
      exact ⟨hi.reported, hsum.trans (congrArg (· % 2 ^ 64) (hreturned _).symm)⟩
  | clear bytes hperiod =>
    have hcalls : Collector.reported (s.completed ++
        [.getStatsInPrevPeriod s.collector.intvlStart]) = Collector.reported s.completed :=
      reported_append _ _
    rw [findsLoaded_clear hperiod, ← hi.modEq_iff, ← hreturned]
    constructor
    · rintro ⟨hreported, -⟩
      rwa [hcalls] at hreported
    · intro h
      refine ⟨?_, ?_⟩
      · rw [hcalls]
        exact h
      · rw [hperiod, PeriodPc.added] at htotal
        exact htotal.trans (by rw [PeriodPc.added, List.append_nil])

theorem accounted_start (threads : ℕ) (junk : ℤ) : (start threads junk).Accounted where
  reported := rfl
  total := rfl

theorem run_append (calls : List Collector.Call) (call : Collector.Call)
    (r : Collector × List UInt32) :
    Collector.run (calls ++ [call]) r = (Collector.run calls r).bind (Collector.run [call]) := by
  induction calls generalizing r with
  | nil => rfl
  | cons c calls ih =>
    cases c with
    | reportBytes n => exact ih _
    | getStatsInPrevPeriod now =>
      simp only [List.cons_append, Collector.run, ih, Option.bind_assoc]

/-- A collector `c` before the period that is being closed, otherwise up to date. -/
structure Precedes (c : Collector) (s : Unlocked) : Prop where
  interval : c.intvlBytesTrns = s.collector.intvlBytesTrns
  total : s.collector.totalBytesTrns =
    c.totalBytesTrns + (s.period.added.map UInt32.toUInt64).sum
  current : s.period.closing = false → c.intvlStart = s.collector.intvlStart
  elapsed : s.period.closing = true → s.collector.intvlStart - c.intvlStart ≠ 0

theorem Precedes.eq_collector {c : Collector} (h : Precedes c s) (hperiod : s.period = .outside) :
    c = s.collector := by
  have htotal := h.total
  rw [hperiod, PeriodPc.added, List.map_nil, List.sum_nil, UInt64.add_zero] at htotal
  calc c = ⟨c.intvlBytesTrns, c.intvlStart, c.totalBytesTrns⟩ := rfl
    _ = s.collector := by
      rw [h.interval, h.current (by rw [hperiod, PeriodPc.closing]), ← htotal]

/-- The completed calls, made one after the other, lead here. -/
def Serial (junk : ℤ) (s : Unlocked) : Prop :=
  ∃ c, Collector.run s.completed (.new junk, []) = some (c, s.returned) ∧ Precedes c s

theorem serial_start (threads : ℕ) (junk : ℤ) : Serial junk (start threads junk) :=
  ⟨.new junk, rfl, rfl, rfl, fun _ => rfl, nofun⟩

theorem Serial.step (hi : s.Serial junk) (hok : s.FindsLoaded a) (hs : s.step a = some s') :
    s'.Serial junk := by
  obtain ⟨c, hrun, hinterval, htotal, hcurrent, helapsed⟩ := hi
  cases step_move hs with
  | report i n hpc => exact ⟨c, hrun, hinterval, htotal, hcurrent, helapsed⟩
  | crash now bytes hperiod => exact ⟨c, hrun, hinterval, htotal, hcurrent, helapsed⟩
  | load hperiod =>
    rw [hperiod] at htotal hcurrent
    exact ⟨c, hrun, hinterval, htotal, hcurrent, nofun⟩
  | divide now bytes hperiod hnow =>
    rw [hperiod] at htotal hcurrent
    rw [← hcurrent rfl] at hnow
    exact ⟨c, hrun, hinterval, htotal, nofun, fun _ => hnow⟩
  | store i n loaded hpc =>
    have hfound : s.collector.intvlBytesTrns = loaded := (findsLoaded_store hpc).mp hok
    refine ⟨c.reportBytes n, ?_, ?_, htotal, hcurrent, helapsed⟩
    · show Collector.run (s.completed ++ [.reportBytes n]) (.new junk, []) =
        some (c.reportBytes n, s.returned)
      rw [run_append, hrun]
      rfl
    · exact congrArg (· + UInt32.ofNat n) (hinterval.trans hfound)
  | add bytes hperiod =>
    have hfound : s.collector.intvlBytesTrns = bytes := (findsLoaded_add hperiod).mp hok
    rw [hperiod] at htotal helapsed
    refine ⟨c, hrun, hinterval, ?_, nofun, fun _ => helapsed rfl⟩
    simpa [PeriodPc.added, hfound] using htotal
  | clear bytes hperiod =>
    have hfound : s.collector.intvlBytesTrns = bytes := (findsLoaded_clear hperiod).mp hok
    rw [hperiod] at htotal helapsed
    have hcall : Collector.run [.getStatsInPrevPeriod s.collector.intvlStart] (c, s.returned) =
        some (⟨0, s.collector.intvlStart, c.totalBytesTrns + bytes.toUInt64⟩,
          s.returned ++ [bytes]) := by
      rw [← hfound, ← hinterval]
      simp [Collector.run, Collector.getStatsInPrevPeriod, helapsed rfl]
    refine ⟨⟨0, s.collector.intvlStart, c.totalBytesTrns + bytes.toUInt64⟩, ?_, rfl, ?_,
      fun _ => rfl, nofun⟩
    · rw [run_append, hrun]
      exact hcall
    · simpa [PeriodPc.added] using htotal

theorem serial_of_reaches (h : Reaches step FindsLoaded (start threads junk) s) :
    s.Serial junk :=
  h.invariant (serial_start threads junk) fun _ _ _ hi hok hs => hi.step hok hs

theorem conserved_iff (h : Reaches step FindsLoaded (start threads junk) s)
    (hperiod : s.period = .outside) (hsum : Collector.reported s.completed < 2 ^ 64) :
    s.collector.Conserved s.returned (Collector.reported s.completed) ↔
      (Collector.intervals s.completed .empty).Fits (2 ^ 32) := by
  obtain ⟨c, hrun, hprecedes⟩ := serial_of_reaches h
  obtain rfl := hprecedes.eq_collector hperiod
  rw [← Collector.total_intervals_empty] at hsum ⊢
  exact (Collector.run_reads (Collector.reads_new junk) hrun).conserved_iff hsum

/-- **Counting without a lock**: as long as every access finds what the first load of its
call found, the counters and the bytes returned are those of the completed calls made one
after the other, and no byte is lost or counted twice. Of the next accesses, exactly those
that find it keep the account. -/
theorem counters_serial (h : Reaches step FindsLoaded (start threads junk) s) :
    (∃ c, Collector.run s.completed (.new junk, []) = some (c, s.returned) ∧
      c.intvlBytesTrns = s.collector.intvlBytesTrns ∧
      (s.period = .outside → c = s.collector)) ∧
    s.Accounted ∧ ∀ a s', s.step a = some s' → (s'.Accounted ↔ s.FindsLoaded a) := by
  have haccounted : s.Accounted := h.invariant (accounted_start threads junk)
    fun _ _ _ hi hok hs => (hi.step_iff hs).mpr hok
  obtain ⟨c, hrun, hprecedes⟩ := serial_of_reaches h
  refine ⟨?_, haccounted, fun a s' hs => haccounted.step_iff hs⟩
  exact ⟨c, hrun, hprecedes.interval, hprecedes.eq_collector⟩

/-- Two calls overlap, of which one reports no byte, and a period ends inside a third, whose
store then counts bytes again that have been returned. -/
theorem counters_serial_two_threads : ∃ s s' : Unlocked, s.returned = [1024] ∧
    s.collector.intvlBytesTrns = 0 ∧ s.Accounted ∧ s.step (.store 1) = some s' ∧
    ¬ s'.Accounted := by
  obtain ⟨s, hreach, hreturned, hinterval, hlost, hsome⟩ : ∃ s,
      Reaches step FindsLoaded (start 2 0) s ∧ s.returned = [1024] ∧
      s.collector.intvlBytesTrns = 0 ∧ ¬ s.FindsLoaded (.store 1) ∧
      (s.step (.store 1)).isSome = true :=
    exists_reaches_of_runChecked [.report 0 1024, .report 1 0, .store 1, .store 0,
      .report 1 7, .load, .divide 300, .add, .clear] (by decide)
  obtain ⟨s', hs⟩ := Option.isSome_iff_exists.mp hsome
  obtain ⟨-, haccounted, hnext⟩ := counters_serial hreach
  exact ⟨s, s', hreturned, hinterval, haccounted, hs, fun h => hlost ((hnext _ _ hs).mp h)⟩

/-- Two threads load the same value. -/
theorem bytes_lost_reachable : ∃ s, Reaches step anyStep (start 2 0) s ∧
    s.completed = [.reportBytes 1024, .reportBytes 1024] ∧
    s.returned = [] ∧ s.collector.intvlBytesTrns = 1024 :=
  exists_reaches_of_runChecked [.report 0 1024, .report 1 1024, .store 0, .store 1] (by decide)

/-- A period ends between a load and its store. -/
theorem bytes_counted_twice_reachable : ∃ s, Reaches step anyStep (start 1 0) s ∧
    s.completed = [.reportBytes 1024, .getStatsInPrevPeriod 300, .reportBytes 7] ∧
    s.returned = [1024] ∧ s.collector.intvlBytesTrns = 1031 :=
  exists_reaches_of_runChecked
    [.report 0 1024, .store 0, .report 0 7, .load, .divide 300, .add, .clear, .store 0]
    (by decide)

def OneCallAtATime (s : Unlocked) : Action → Prop
  | .report .. | .load => s.period = .outside ∧ ∀ pc ∈ s.reports, pc = .outside
  | .store _ | .divide _ | .add | .clear => True

/-- At most one call is in progress, and nobody has written since it loaded the counter. -/
inductive Alone (s : Unlocked) : Prop
  | nobody (hreports : ∀ pc ∈ s.reports, pc = .outside) (hperiod : s.period = .outside)
  | reporting (i n : ℕ) (hi : s.reports[i]? = some (.storing n s.collector.intvlBytesTrns))
    (hothers : ∀ j pc, s.reports[j]? = some pc → j ≠ i → pc = .outside)
    (hperiod : s.period = .outside)
  | closing (hreports : ∀ pc ∈ s.reports, pc = .outside)
    (hloaded : s.period.loaded = some s.collector.intvlBytesTrns)

theorem Alone.findsLoaded (hi : s.Alone) (a : Action) : s.FindsLoaded a := by
  have hstore : ∀ i : ℕ, s.StillHolds ((s.reports[i]?).bind ReportPc.loaded) := by
    intro i
    cases hpc : s.reports[i]? with
    | none => exact .inl rfl
    | some pc =>
      cases hi with
      | nobody hreports =>
        obtain rfl := hreports pc (List.mem_of_getElem? hpc)
        exact .inl rfl
      | closing hreports =>
        obtain rfl := hreports pc (List.mem_of_getElem? hpc)
        exact .inl rfl
      | reporting j n hj hothers =>
        by_cases hij : i = j
        · subst hij
          obtain rfl := Option.some.inj (hj.symm.trans hpc)
          exact .inr rfl
        · obtain rfl := hothers i pc hpc hij
          exact .inl rfl
  have hperiod : s.StillHolds s.period.loaded := by
    cases hi with
    | nobody _ hperiod | reporting _ _ _ _ hperiod =>
      rw [hperiod]
      exact .inl rfl
    | closing _ hloaded => exact .inr hloaded
  cases a with
  | store i => exact hstore i
  | add | clear => exact hperiod
  | report | load | divide => trivial

theorem Alone.of_period (hi : s.Alone) (hperiod : s.period ≠ .outside) :
    (∀ pc ∈ s.reports, pc = .outside) ∧ s.period.loaded = some s.collector.intvlBytesTrns := by
  cases hi with
  | nobody _ houtside => exact absurd houtside hperiod
  | reporting _ _ _ _ houtside => exact absurd houtside hperiod
  | closing hreports hloaded => exact ⟨hreports, hloaded⟩

theorem Alone.step (hi : s.Alone) (hok : s.OneCallAtATime a) (hs : s.step a = some s') :
    s'.Alone := by
  cases step_move hs with
  | report i n hpc =>
    obtain ⟨hperiod, hreports⟩ := hok
    refine .reporting i n ?_ ?_ hperiod
    · exact List.getElem?_set_self (List.getElem?_eq_some_iff.mp hpc).1
    · intro j pc hj hne
      obtain ⟨rfl, -⟩ | ⟨-, hj⟩ := getElem?_set_cases hj
      · exact absurd rfl hne
      · exact hreports pc (List.mem_of_getElem? hj)
  | store i n loaded hpc =>
    cases hi with
    | nobody hreports => cases hreports _ (List.mem_of_getElem? hpc)
    | closing hreports => cases hreports _ (List.mem_of_getElem? hpc)
    | reporting j m hj hothers hperiod =>
      have hij : i = j := by
        by_contra hne
        cases hothers i _ hpc hne
      subst hij
      refine .nobody ?_ hperiod
      intro pc hmem
      obtain ⟨k, hk⟩ := List.getElem?_of_mem hmem
      obtain ⟨-, rfl⟩ | ⟨hne, hk⟩ := getElem?_set_cases hk
      · rfl
      · exact hothers k pc hk hne
  | load hperiod => exact .closing hok.2 rfl
  | crash now bytes hperiod =>
    obtain ⟨hreports, hloaded⟩ := hi.of_period (by simp [hperiod])
    exact .closing hreports hloaded
  | divide now bytes hperiod hnow =>
    obtain ⟨hreports, hloaded⟩ := hi.of_period (by simp [hperiod])
    rw [hperiod] at hloaded
    exact .closing hreports hloaded
  | add bytes hperiod =>
    obtain ⟨hreports, hloaded⟩ := hi.of_period (by simp [hperiod])
    rw [hperiod] at hloaded
    exact .closing hreports hloaded
  | clear bytes hperiod => exact .nobody (hi.of_period (by simp [hperiod])).1 rfl

/-- Calls that do not overlap meet the guard. -/
theorem reaches_of_oneCallAtATime
    (h : Reaches step OneCallAtATime (start threads junk) s) :
    Reaches step FindsLoaded (start threads junk) s := by
  apply h.mono_of_invariant (I := Alone)
  · exact .nobody (fun pc hpc => (List.mem_replicate.mp hpc).2) rfl
  · exact fun s a s' hi hok hs => hi.step hok hs
  · exact fun s a hi _ => hi.findsLoaded a

end Unlocked
end MddProxy
