import MddProxy.Counters.Intervals
import Mathlib.Data.UInt

/-!
# The counters of a `StatsCollector`

`ReportBytes` adds to a 32-bit interval counter, `GetStatsInPrevPeriod` moves it to a
64-bit total. Both are taken as a reading of the exact amounts through counters of these
widths.
-/
namespace MddProxy

open Counters

structure StatsRateT where
  rate : UInt32
  bytes : UInt32
  deriving DecidableEq, Repr

/-- `intvlStart` is the `tv_sec` of the member. -/
structure Collector where
  intvlBytesTrns : UInt32
  intvlStart : ℤ
  totalBytesTrns : UInt64
  deriving DecidableEq, Repr

namespace Collector

/-- The constructor stores no `intvlStart`: it stays what the memory held. -/
def new (junk : ℤ) : Collector where
  intvlBytesTrns := 0
  intvlStart := junk
  totalBytesTrns := 0

def reportBytes (transferedBytes : ℕ) (c : Collector) : Collector :=
  { c with intvlBytesTrns := c.intvlBytesTrns + UInt32.ofNat transferedBytes }

/-- The quotient is a `long`, the rate 32 bits of it. -/
def rateOf (bytes : UInt32) (elapsed : ℤ) : UInt32 := UInt32.ofInt ((bytes.toNat : ℤ).tdiv elapsed)

/-- `GetStatsInPrevPeriod` at a time with `tv_sec` equal to `now`; `none` where it divides
by zero. -/
def getStatsInPrevPeriod (now : ℤ) (c : Collector) : Option (StatsRateT × Collector) :=
  if now - c.intvlStart = 0 then none
  else some
    ({ bytes := c.intvlBytesTrns, rate := rateOf c.intvlBytesTrns (now - c.intvlStart) },
      { intvlBytesTrns := 0
        intvlStart := now
        totalBytesTrns := c.totalBytesTrns + c.intvlBytesTrns.toUInt64 })

inductive Call where
  | reportBytes (transferedBytes : ℕ)
  | getStatsInPrevPeriod (now : ℤ)
  deriving DecidableEq, Repr

/-- Some calls in a row, with the `bytes` fields that have been returned so far. -/
def run : List Call → Collector × List UInt32 → Option (Collector × List UInt32)
  | [], r => some r
  | .reportBytes n :: calls, (c, returned) => run calls (c.reportBytes n, returned)
  | .getStatsInPrevPeriod now :: calls, (c, returned) =>
    (c.getStatsInPrevPeriod now).bind fun r => run calls (r.2, returned ++ [r.1.bytes])

def reported : List Call → ℕ
  | [] => 0
  | .reportBytes n :: calls => n + reported calls
  | .getStatsInPrevPeriod _ :: calls => reported calls

/-- The sizes reported between one `GetStatsInPrevPeriod` and the next, added up. -/
def intervals : List Call → Intervals → Intervals
  | [], t => t
  | .reportBytes n :: calls, t => intervals calls (t.add n)
  | .getStatsInPrevPeriod _ :: calls, t => intervals calls t.close

variable {c : Collector} {t : Intervals} {returned : List UInt32} {n : ℕ} {now : ℤ}
  {calls : List Call} {r : Collector × List UInt32}

theorem total_intervals (calls : List Call) (t : Intervals) :
    (intervals calls t).total = t.total + reported calls := by
  induction calls generalizing t with
  | nil => rfl
  | cons call calls ih =>
    cases call with
    | reportBytes n => rw [intervals, ih, Intervals.total_add, reported, Nat.add_assoc]
    | getStatsInPrevPeriod now => rw [intervals, ih, Intervals.total_close, reported]

/-- The collector and what it has returned, as readings of the exact intervals. -/
structure Reads (c : Collector) (returned : List UInt32) (t : Intervals) : Prop where
  returned : returned.map UInt32.toNat = (t.read (2 ^ 32)).closed
  current : c.intvlBytesTrns.toNat = (t.read (2 ^ 32)).current
  total : c.totalBytesTrns.toNat = (t.read (2 ^ 32)).closed.sum % 2 ^ 64

theorem reads_new (junk : ℤ) : (new junk).Reads [] .empty where
  returned := rfl
  current := rfl
  total := rfl

theorem Reads.reportBytes (h : c.Reads returned t) (n : ℕ) :
    (c.reportBytes n).Reads returned (t.add n) := by
  obtain ⟨hreturned, hcurrent, htotal⟩ := h
  refine ⟨hreturned, ?_, htotal⟩
  rw [Intervals.read_add, ← hcurrent]
  simp [Collector.reportBytes]

theorem Reads.getStats (h : c.Reads returned t) {stats : StatsRateT} {c' : Collector}
    (hc : c.getStatsInPrevPeriod now = some (stats, c')) :
    c'.Reads (returned ++ [stats.bytes]) t.close := by
  obtain ⟨hreturned, hcurrent, htotal⟩ := h
  obtain ⟨-, hstats⟩ := Option.ite_none_left_eq_some.mp hc
  obtain ⟨rfl, rfl⟩ := Prod.mk.inj (Option.some.inj hstats)
  constructor
  · rw [Intervals.read_close]
    simp [Intervals.close, hreturned, hcurrent]
  · rfl
  · rw [Intervals.read_close]
    simp [Intervals.close, htotal, hcurrent]

/-- The code refines the exact intervals, read through its counters. -/
theorem run_reads (h : c.Reads returned t) (hrun : run calls (c, returned) = some r) :
    r.1.Reads r.2 (intervals calls t) := by
  induction calls generalizing c returned t with
  | nil =>
    obtain rfl := Option.some.inj hrun
    exact h
  | cons call calls ih =>
    cases call with
    | reportBytes n => exact ih (h.reportBytes n) hrun
    | getStatsInPrevPeriod now =>
      obtain ⟨⟨stats, c'⟩, hc, hrest⟩ := Option.bind_eq_some_iff.mp hrun
      exact ih (h.getStats hc) hrest

/-- Both accounts of the bytes reported add up to `total`. -/
structure Conserved (c : Collector) (returned : List UInt32) (total : ℕ) : Prop where
  counters : c.totalBytesTrns.toNat + c.intvlBytesTrns.toNat = total
  returned : (returned.map UInt32.toNat).sum + c.intvlBytesTrns.toNat = total

theorem Reads.conserved_iff (h : c.Reads returned t) (hsum : t.total < 2 ^ 64) :
    c.Conserved returned t.total ↔ t.Fits (2 ^ 32) := by
  obtain ⟨hreturned, hcurrent, htotal⟩ := h
  have hle := t.read_total_le (2 ^ 32)
  have hread : (t.read (2 ^ 32)).total =
      (t.read (2 ^ 32)).closed.sum + (t.read (2 ^ 32)).current := rfl
  rw [Nat.mod_eq_of_lt (by omega)] at htotal
  rw [← Intervals.read_total_eq_iff (by decide), hread]
  constructor
  · intro hc
    rw [← hc.counters, htotal, hcurrent]
  · intro hc
    exact ⟨by rw [htotal, hcurrent, hc], by rw [hreturned, hcurrent, hc]⟩

theorem total_intervals_empty (calls : List Call) :
    (intervals calls .empty).total = reported calls := by
  rw [total_intervals, Intervals.total_empty, Nat.zero_add]

/-- **Conservation of reported bytes**: after any calls the counters, and the values
returned, add up to the bytes reported exactly when no interval has `2 ^ 32` of them. -/
theorem bytes_conserved_iff {junk : ℤ} {calls : List Call} {r : Collector × List UInt32}
    (hrun : run calls (new junk, []) = some r) (hsum : reported calls < 2 ^ 64) :
    r.1.Conserved r.2 (reported calls) ↔ (intervals calls .empty).Fits (2 ^ 32) := by
  rw [← total_intervals_empty] at hsum ⊢
  exact (run_reads (reads_new junk) hrun).conserved_iff hsum

theorem bytes_conserved_two_intervals : ∃ r,
    run [.reportBytes 1024, .getStatsInPrevPeriod 300, .reportBytes 7] (new 0, []) = some r ∧
      r.1.Conserved r.2 1031 := by
  have hrun : run [.reportBytes 1024, .getStatsInPrevPeriod 300, .reportBytes 7] (new 0, []) =
      some (⟨7, 300, 1024⟩, [1024]) := by decide
  exact ⟨_, hrun, (bytes_conserved_iff hrun (by decide)).mpr (by decide)⟩

theorem run_reports (k n : ℕ) (c : Collector) (returned : List UInt32) :
    ∃ c', run (List.replicate k (.reportBytes n)) (c, returned) = some (c', returned) := by
  induction k generalizing c with
  | zero => exact ⟨c, rfl⟩
  | succ k ih => exact ih (c.reportBytes n)

theorem intervals_reports (k n : ℕ) (t : Intervals) :
    intervals (List.replicate k (.reportBytes n)) t = t.add (k * n) := by
  induction k generalizing t with
  | zero => simp [intervals, Intervals.add]
  | succ k ih =>
    rw [List.replicate_succ, intervals, ih, Nat.succ_mul]
    simp only [Intervals.add]
    congr 1
    omega

/-- A feed of 4194304 datagrams of 1024 bytes within one interval leaves no trace. -/
theorem interval_volume_lost : ¬ ∀ (junk : ℤ) (calls : List Call) (r : Collector × List UInt32),
    run calls (new junk, []) = some r → reported calls < 2 ^ 64 →
      r.1.Conserved r.2 (reported calls) := by
  intro hstated
  obtain ⟨c, hc⟩ := run_reports 4194304 1024 (new 0) []
  have hreads := run_reads (reads_new 0) hc
  have hreported := total_intervals_empty (List.replicate 4194304 (.reportBytes 1024))
  rw [intervals_reports] at hreads hreported
  have hconserved := hstated 0 _ _ hc (by rw [← hreported]; decide)
  rw [← hreported, hreads.conserved_iff (by decide)] at hconserved
  exact absurd hconserved (by decide)

end Collector
end MddProxy
