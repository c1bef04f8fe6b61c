import MddProxy.Management.Statistics
import MddProxy.Management.Collector
import MddProxy.Interleaving.Slots
import Mathlib.Logic.Function.Basic

/-!
# The rates that `WriteStats` computes

The stats thread with a clock and the counters that it reports. The frequency is cut to 16
bits on its way to `sleep`, and `GetStatsInPrevPeriod` divides by the seconds since an
`intvlStart` that only an earlier `GetStatsInPrevPeriod` stores.
-/
namespace MddProxy

open Interleaving

def seconds (micros : ℕ) : ℤ := (micros / 1000000 : ℕ)

/-- A collector, with the time of the last `GetStatsInPrevPeriod` on it. -/
structure Sampled where
  collector : Collector
  lastCall : Option ℕ
  deriving DecidableEq, Repr

/-- A `GetStatsInPrevPeriod` at `now` divides by a positive number of seconds since an
`intvlStart` that has been stored, and the rate is that of the bytes. -/
structure Sampled.Defined (now : ℕ) (e : Sampled) : Prop where
  initialised : e.lastCall.isSome = true
  positive : 0 < seconds now - e.collector.intvlStart
  rate : ∃ stats c, e.collector.getStatsInPrevPeriod (seconds now) = some (stats, c) ∧
    stats.rate.toNat * (seconds now - e.collector.intvlStart) ≤ stats.bytes.toNat ∧
    stats.bytes.toNat < (stats.rate.toNat + 1) * (seconds now - e.collector.intvlStart)

/-- The control of the statistics with a clock in microseconds. `wakeAt k` is when the
`sleep` of stats thread `k` is over, `slept` lists the arguments of all `sleep` calls, and
`crashed` says that a division by zero has ended the process. -/
structure Timed where
  control : Statistics
  clock : ℕ
  wakeAt : ℕ → ℕ
  slept : List ℕ
  counters : List Sampled
  crashed : Bool

namespace Timed

/-- New collectors, and a `startstats` command with a frequency before the management
thread. -/
def start (frequency : UInt32) (junk : List ℤ) (clock : ℕ) : Timed where
  control := .start junk.length [.startStats (some frequency.toNat)]
  clock
  wakeAt := fun _ => 0
  slept := []
  counters := junk.map fun j => ⟨.new j, none⟩
  crashed := false

/-- The call that stats thread `k` makes at some point of `WriteStats`. -/
def statsCall (s : Timed) (k : ℕ) : StatsPc → Timed
  | .test =>
    if s.control.writeStats = true then
      { s with
        wakeAt := Function.update s.wakeAt k (s.clock + s.control.frequency * 1000000)
        slept := s.slept ++ [s.control.frequency] }
    else s
  | .report i =>
    match s.counters[i]? with
    | none => s
    | some e =>
      match e.collector.getStatsInPrevPeriod (seconds s.clock) with
      | none => { s with crashed := true }
      | some (_, collector) => { s with counters := s.counters.set i ⟨collector, some s.clock⟩ }
  | .sleep | .log | .exited => s

inductive Action where
  | tick (micros : ℕ)
  | reportBytes (i transferedBytes : ℕ)
  | management
  | stats (k : ℕ)
  deriving DecidableEq, Repr

/-- The clock does not go back, and a thread that sleeps stays asleep for the time it asked
for at least. -/
def step (s : Timed) (a : Action) : Option Timed :=
  if s.crashed = true then none
  else match a with
  | .tick micros => some { s with clock := s.clock + micros }
  | .reportBytes i n => (s.counters[i]?).map fun e =>
    { s with counters := s.counters.set i { e with collector := e.collector.reportBytes n } }
  | .management => (s.control.step .management).map fun control => { s with control }
  | .stats k => (s.control.threads[k]?).bind fun pc =>
    if pc = .sleep ∧ s.clock < s.wakeAt k then none
    else (s.control.step (.stats k)).map fun control => { s.statsCall k pc with control }

/-- The rates are defined in every run, and each `sleep` is as long as requested. -/
structure RatesDefined (frequency : UInt32) (junk : List ℤ) (clock : ℕ) : Prop where
  slept : ∀ s, Reaches step anyStep (start frequency junk clock) s →
    ∀ f ∈ s.slept, f = frequency.toNat
  defined : ∀ s, Reaches step anyStep (start frequency junk clock) s →
    ∀ (k i : ℕ) (e : Sampled), s.control.threads[k]? = some (.report i) → s.counters[i]? = some e →
      e.Defined s.clock
  noCrash : ∀ s, Reaches step anyStep (start frequency junk clock) s → s.crashed = false

variable {s s' : Timed} {frequency : UInt32} {junk : List ℤ} {clock k i : ℕ} {e : Sampled}

theorem rateOf_toNat (bytes : UInt32) (elapsed : ℕ) :
    (Collector.rateOf bytes elapsed).toNat = bytes.toNat / elapsed := by
  have hlt := bytes.toNat_lt
  have hle : bytes.toNat / elapsed ≤ bytes.toNat := Nat.div_le_self _ _
  rw [Collector.rateOf, ← Int.ofNat_tdiv, UInt32.ofInt]
  generalize bytes.toNat / elapsed = rate at hle
  simp only [UInt32.toNat_ofNat']
  omega

theorem defined_of_elapsed (hlast : e.lastCall.isSome = true)
    (hpos : 0 < seconds clock - e.collector.intvlStart) : e.Defined clock := by
  obtain ⟨elapsed, helapsed⟩ := Int.eq_ofNat_of_zero_le (Int.le_of_lt hpos)
  have hpos' : 0 < elapsed := by omega
  have hlower := Nat.div_mul_le_self e.collector.intvlBytesTrns.toNat elapsed
  have hupper := Nat.lt_mul_div_succ e.collector.intvlBytesTrns.toNat hpos'
  have hne : ¬ seconds clock - e.collector.intvlStart = 0 := by omega
  refine ⟨hlast, hpos, _, _, if_neg hne, ?_, ?_⟩
  · rw [helapsed, rateOf_toNat]
    exact_mod_cast hlower
  · rw [helapsed, rateOf_toNat, Int.mul_comm]
    exact_mod_cast hupper

theorem getStats_intvlStart {now : ℤ} {c : Collector} {r : StatsRateT × Collector}
    (h : c.getStatsInPrevPeriod now = some r) : r.2.intvlStart = now := by
  obtain ⟨-, h⟩ := Option.ite_none_left_eq_some.mp h
  rw [← Option.some.inj h]

inductive Move (s : Timed) : Action → Timed → Prop
  | tick (micros : ℕ) : Move s (.tick micros) { s with clock := s.clock + micros }
  | reportBytes (i n : ℕ) (e : Sampled) (he : s.counters[i]? = some e) :
      Move s (.reportBytes i n)
        { s with counters := s.counters.set i { e with collector := e.collector.reportBytes n } }
  | management (control : Statistics) (hc : s.control.step .management = some control) :
      Move s .management { s with control }
  | stats (k : ℕ) (pc : StatsPc) (control : Statistics) (hpc : s.control.threads[k]? = some pc)
      (hawake : pc = .sleep → s.wakeAt k ≤ s.clock)
      (hc : s.control.step (.stats k) = some control) :
      Move s (.stats k) { s.statsCall k pc with control }

theorem step_move {a : Action} (h : s.step a = some s') : s.crashed = false ∧ s.Move a s' := by
  obtain ⟨hcrashed, h⟩ := Option.ite_none_left_eq_some.mp h
  refine ⟨(Bool.not_eq_true _).mp hcrashed, ?_⟩
  cases a with
  | tick micros =>
    obtain rfl := Option.some.inj h
    exact .tick micros
  | reportBytes i n =>
    obtain ⟨e, he, rfl⟩ := Option.map_eq_some_iff.mp h
    exact .reportBytes i n e he
  | management =>
    obtain ⟨control, hc, rfl⟩ := Option.map_eq_some_iff.mp h
    exact .management control hc
  | stats k =>
    obtain ⟨pc, hpc, h⟩ := Option.bind_eq_some_iff.mp h
    obtain ⟨hawake, h⟩ := Option.ite_none_left_eq_some.mp h
    obtain ⟨control, hc, rfl⟩ := Option.map_eq_some_iff.mp h
    refine .stats k pc control hpc (fun hsleep => ?_) hc
    exact Nat.le_of_not_lt fun hlt => hawake ⟨hsleep, hlt⟩

/-- The control states of a run with a single `startstats` command. -/
inductive Started (frequency : Option ℕ) (collectors : ℕ) : Statistics → Prop
  | idle : Started frequency collectors (.start collectors [.startStats frequency])
  | setWriteStats : Started frequency collectors
      ⟨false, 0, collectors, [], .setWriteStats (startSeconds frequency), []⟩
  | setFrequency : Started frequency collectors
      ⟨true, 0, collectors, [], .setFrequency (startSeconds frequency), []⟩
  | create : Started frequency collectors
      ⟨true, startSeconds frequency, collectors, [], .create, []⟩
  | join (pc : StatsPc) (hlive : pc ≠ .exited) : Started frequency collectors
      ⟨true, startSeconds frequency, collectors, [pc], .join 0, []⟩

theorem Started.step {f : Option ℕ} {n : ℕ} {c c' : Statistics} {a : Statistics.Action}
    (h : Started f n c) (hs : c.step a = some c') : Started f n c' := by
  cases a with
  | management =>
    cases h with
    | idle =>
      obtain rfl := Option.some.inj hs
      exact .setWriteStats
    | setWriteStats =>
      obtain rfl := Option.some.inj hs
      exact .setFrequency
    | setFrequency =>
      obtain rfl := Option.some.inj hs
      exact .create
    | create =>
      obtain rfl := Option.some.inj hs
      exact .join .test (by simp)
    | join pc hlive => simp [Statistics.step, Statistics.managementStep, hlive] at hs
  | stats k =>
    obtain ⟨pc, pc', hpc, hnext, rfl⟩ := Statistics.step_stats hs
    cases h with
    | join pc₀ hlive =>
      obtain ⟨rfl, rfl⟩ : k = 0 ∧ pc₀ = pc := by
        cases k with
        | zero => simpa using hpc
        | succ k => simp at hpc
      exact .join pc' (Statistics.statsNext_ne_exited rfl hnext)
    | _ => simp [Statistics.start] at hpc

theorem Started.running {f : Option ℕ} {n : ℕ} {c : Statistics} {pc : StatsPc}
    (h : Started f n c) (hpc : c.threads[k]? = some pc) :
    k = 0 ∧ c = ⟨true, startSeconds f, n, [pc], .join 0, []⟩ := by
  cases h with
  | join pc₀ hlive =>
    cases k with
    | zero =>
      obtain rfl : pc₀ = pc := by simpa using hpc
      exact ⟨rfl, rfl⟩
    | succ k => simp at hpc
  | _ => simp [Statistics.start] at hpc

theorem started_step {f : Option ℕ} {n : ℕ} {a : Action} (hi : Started f n s.control)
    (hs : s.step a = some s') : Started f n s'.control := by
  cases (step_move hs).2 with
  | tick micros => exact hi
  | reportBytes i n e he => exact hi
  | management control hc => exact hi.step hc
  | stats k pc control hpc hawake hc => exact hi.step hc

/-- The argument of `sleep` is the frequency cut to 16 bits. -/
theorem slept_reaches (h : Reaches step anyStep (start frequency junk clock) s) :
    ∀ f ∈ s.slept, f = startSeconds (some frequency.toNat) := by
  suffices hboth : Started (some frequency.toNat) junk.length s.control ∧
      ∀ f ∈ s.slept, f = startSeconds (some frequency.toNat) from hboth.2
  apply h.invariant (I := fun s => Started (some frequency.toNat) junk.length s.control ∧
    ∀ f ∈ s.slept, f = startSeconds (some frequency.toNat)) ⟨.idle, by simp [start]⟩
  rintro s a s' ⟨hi, hslept⟩ _ hs
  refine ⟨started_step hi hs, ?_⟩
  cases (step_move hs).2 with
  | tick micros => exact hslept
  | reportBytes i n e he => exact hslept
  | management control hc => exact hslept
  | stats k pc control hpc hawake hc =>
    obtain ⟨rfl, hcontrol⟩ := hi.running hpc
    cases pc with
    | test =>
      intro f hf
      simp only [statsCall, hcontrol, if_true] at hf
      rcases List.mem_append.mp hf with hf | hf
      · exact hslept f hf
      · exact List.mem_singleton.mp hf
    | report i =>
      simp only [statsCall]
      split
      · exact hslept
      · split <;> exact hslept
    | sleep | log | exited => exact hslept

/-- A call at `t` on collector `i` is at least `f` seconds before the next one on it. -/
def Apart (s : Timed) (f i t : ℕ) : Prop :=
  match (s.control.threads[0]? : Option StatsPc) with
  | some .sleep => t + f * 1000000 ≤ s.wakeAt 0
  | some .log => t + f * 1000000 ≤ s.clock
  | some (.report j) => t ≤ s.clock ∧ (j ≤ i → t + f * 1000000 ≤ s.clock)
  | some .test | some .exited | none => t ≤ s.clock

structure Paced (f n : ℕ) (s : Timed) : Prop where
  length : s.counters.length = n
  stored : ∀ (i : ℕ) (e : Sampled) (t : ℕ), s.counters[i]? = some e → e.lastCall = some t →
    e.collector.intvlStart = seconds t ∧ s.Apart f i t

theorem Apart.tick {f t : ℕ} (h : s.Apart f i t) (micros : ℕ) :
    Apart { s with clock := s.clock + micros } f i t := by
  unfold Apart at *
  simp only
  split at h <;> omega

theorem Paced.setCollector {f n : ℕ} (h : s.Paced f n) (he : s.counters[i]? = some e)
    (transferedBytes : ℕ) : Paced f n { s with
      counters := s.counters.set i
        { e with collector := e.collector.reportBytes transferedBytes } } := by
  refine ⟨by simpa using h.length, fun i' e' t he' ht => ?_⟩
  rcases getElem?_set_cases he' with ⟨rfl, rfl⟩ | ⟨-, he'⟩
  · exact h.stored i' e t he ht
  · exact h.stored i' e' t he' ht

theorem Paced.management {f n : ℕ} {control : Statistics} (h : s.Paced f n)
    (hi : Started (some frequency.toNat) n s.control)
    (hc : s.control.step .management = some control) : Paced f n { s with control } := by
  refine ⟨h.length, fun i e t he ht => ?_⟩
  obtain ⟨hstart, hapart⟩ := h.stored i e t he ht
  refine ⟨hstart, ?_⟩
  generalize hcontrol : s.control = before at hi hc
  unfold Apart at *
  rw [hcontrol] at hapart
  cases hi with
  | join pc hlive => simp [Statistics.step, Statistics.managementStep, hlive] at hc
  | _ =>
    obtain rfl := Option.some.inj hc
    exact hapart

theorem Paced.stats {f n : ℕ} {pc pc' : StatsPc} (h : s.Paced f n)
    (hcontrol : s.control = ⟨true, f, n, [pc], .join 0, []⟩)
    (hawake : pc = .sleep → s.wakeAt 0 ≤ s.clock) (hnext : s.control.statsNext pc = some pc') :
    Paced f n { s.statsCall 0 pc with control := ⟨true, f, n, [pc'], .join 0, []⟩ } := by
  have hthread : (s.control.threads[0]? : Option StatsPc) = some pc := by rw [hcontrol]; rfl
  have hstored : ∀ (i : ℕ) (e : Sampled) (t : ℕ), s.counters[i]? = some e →
      e.lastCall = some t → e.collector.intvlStart = seconds t ∧ s.Apart f i t := h.stored
  simp only [Apart, hthread] at hstored
  cases pc with
  | test =>
    simp only [statsCall, hcontrol, if_true]
    obtain rfl : StatsPc.sleep = pc' := by simpa [Statistics.statsNext, hcontrol] using hnext
    refine ⟨h.length, fun i e t he ht => ⟨(hstored i e t he ht).1, ?_⟩⟩
    have hpast := (hstored i e t he ht).2
    simp only [Apart, List.getElem?_cons_zero, Function.update_self]
    omega
  | sleep =>
    obtain rfl : StatsPc.log = pc' := by simpa [Statistics.statsNext] using hnext
    refine ⟨h.length, fun i e t he ht => ⟨(hstored i e t he ht).1, ?_⟩⟩
    exact Nat.le_trans (hstored i e t he ht).2 (hawake rfl)
  | log =>
    obtain rfl : StatsPc.report 0 = pc' := by simpa [Statistics.statsNext] using hnext
    refine ⟨h.length, fun i e t he ht => ⟨(hstored i e t he ht).1, ?_, fun _ => ?_⟩⟩
    · have hpast := (hstored i e t he ht).2
      simp only [statsCall]
      omega
    · exact (hstored i e t he ht).2
  | report j =>
    cases hj : s.counters[j]? with
    | none =>
      have hlen := h.length
      have hnot : ¬ j < n := by
        rw [List.getElem?_eq_none_iff] at hj
        omega
      obtain rfl : StatsPc.test = pc' := by
        simpa [Statistics.statsNext, hcontrol, hnot] using hnext
      simp only [statsCall, hj]
      exact ⟨h.length, fun i e t he ht => ⟨(hstored i e t he ht).1, (hstored i e t he ht).2.1⟩⟩
    | some e₀ =>
      have hlen := h.length
      have hlt : j < n := by
        have := (List.getElem?_eq_some_iff.mp hj).1
        omega
      obtain rfl : StatsPc.report (j + 1) = pc' := by
        simpa [Statistics.statsNext, hcontrol, hlt] using hnext
      have hlater : ∀ i e t, s.counters[i]? = some e → e.lastCall = some t →
          t ≤ s.clock ∧ (j + 1 ≤ i → t + f * 1000000 ≤ s.clock) := by
        intro i e t he ht
        obtain ⟨-, hpast, hfar⟩ := hstored i e t he ht
        exact ⟨hpast, fun hi => hfar (by omega)⟩
      cases hcall : e₀.collector.getStatsInPrevPeriod (seconds s.clock) with
      | none =>
        simp only [statsCall, hj, hcall]
        exact ⟨h.length, fun i e t he ht => ⟨(hstored i e t he ht).1, hlater i e t he ht⟩⟩
      | some r =>
        simp only [statsCall, hj, hcall]
        refine ⟨by simpa using hlen, fun i e t he ht => ?_⟩
        rcases getElem?_set_cases he with ⟨rfl, rfl⟩ | ⟨-, he⟩
        · obtain rfl := Option.some.inj ht
          refine ⟨getStats_intvlStart hcall, Nat.le_refl _, fun hle => ?_⟩
          omega
        · exact ⟨(hstored i e t he ht).1, hlater i e t he ht⟩
  | exited => simp [Statistics.statsNext] at hnext

theorem paced_start : Paced (startSeconds (some frequency.toNat)) junk.length
    (start frequency junk clock) := by
  refine ⟨by simp [start], fun i e t he ht => ?_⟩
  simp only [start, List.getElem?_map, Option.map_eq_some_iff] at he
  obtain ⟨j, -, rfl⟩ := he
  cases ht

theorem Paced.step {a : Action} (h : s.Paced (startSeconds (some frequency.toNat)) junk.length)
    (hi : Started (some frequency.toNat) junk.length s.control) (hs : s.step a = some s') :
    s'.Paced (startSeconds (some frequency.toNat)) junk.length := by
  cases (step_move hs).2 with
  | tick micros =>
    exact ⟨h.length, fun i e t he ht => ⟨(h.stored i e t he ht).1,
      (h.stored i e t he ht).2.tick micros⟩⟩
  | reportBytes i n e he => exact h.setCollector he n
  | management control hc => exact h.management hi hc
  | stats k pc control hpc hawake hc =>
    obtain ⟨rfl, hcontrol⟩ := hi.running hpc
    obtain ⟨pc₁, pc', hpc₁, hnext, rfl⟩ := Statistics.step_stats hc
    obtain rfl := Option.some.inj (hpc.symm.trans hpc₁)
    have hp := h.stats hcontrol hawake hnext
    rw [hcontrol]
    exact hp

theorem paced_reaches (h : Reaches step anyStep (start frequency junk clock) s) :
    Started (some frequency.toNat) junk.length s.control ∧
      s.Paced (startSeconds (some frequency.toNat)) junk.length := by
  apply h.invariant (I := fun s => Started (some frequency.toNat) junk.length s.control ∧
    s.Paced (startSeconds (some frequency.toNat)) junk.length) ⟨.idle, paced_start⟩
  rintro s a s' ⟨hi, hp⟩ _ hs
  exact ⟨started_step hi hs, hp.step hi hs⟩

/-- **Rates from the second call on**: where `sleep` gets a second at least, a call on a
collector is defined exactly when it is not the first one on it. -/
theorem later_rates_defined (hf : 0 < startSeconds (some frequency.toNat))
    (h : Reaches step anyStep (start frequency junk clock) s)
    (hk : s.control.threads[k]? = some (.report i)) (he : s.counters[i]? = some e) :
    e.Defined s.clock ↔ e.lastCall.isSome = true := by
  refine ⟨fun hdefined => hdefined.initialised, fun hlast => ?_⟩
  obtain ⟨hi, hp⟩ := paced_reaches h
  obtain ⟨t, ht⟩ := Option.isSome_iff_exists.mp hlast
  obtain ⟨hstart, hapart⟩ := hp.stored i e t he ht
  obtain ⟨rfl, hcontrol⟩ := hi.running hk
  simp only [Apart, hcontrol, List.getElem?_cons_zero] at hapart
  apply defined_of_elapsed hlast
  have hfar := hapart.2 (Nat.le_refl i)
  rw [hstart, seconds, seconds]
  omega

theorem reaches_report_of_sleep {f n : ℕ} (hlive : s.crashed = false)
    (hcontrol : s.control = ⟨true, f, n, [.sleep], .join 0, []⟩) :
    ∃ t, Reaches step anyStep s t ∧ t.control.threads[0]? = some (.report 0) ∧
      t.slept = s.slept ∧ t.counters = s.counters := by
  have htick : s.step (.tick (s.wakeAt 0)) = some { s with clock := s.clock + s.wakeAt 0 } := by
    simp [step, hlive]
  have hnot : ¬ s.clock + s.wakeAt 0 < s.wakeAt 0 := by omega
  have hwake : step { s with clock := s.clock + s.wakeAt 0 } (.stats 0) = some
      { s with
        clock := s.clock + s.wakeAt 0
        control := ⟨true, f, n, [.log], .join 0, []⟩ } := by
    simp [step, hlive, hcontrol, hnot, Statistics.step, Statistics.statsNext, statsCall]
  have hlog : step
      { s with
        clock := s.clock + s.wakeAt 0
        control := ⟨true, f, n, [.log], .join 0, []⟩ } (.stats 0) = some
      { s with
        clock := s.clock + s.wakeAt 0
        control := ⟨true, f, n, [.report 0], .join 0, []⟩ } := by
    simp [step, hlive, Statistics.step, Statistics.statsNext, statsCall]
  exact ⟨_, .head trivial htick (.head trivial hwake (.single trivial hlog)), rfl, rfl, rfl⟩

theorem reaches_report (frequency : UInt32) (junk : List ℤ) (clock : ℕ) :
    ∃ s, Reaches step anyStep (start frequency junk clock) s ∧
      s.control.threads[0]? = some (.report 0) ∧
      s.slept = [startSeconds (some frequency.toNat)] ∧
      s.counters = junk.map fun j => ⟨.new j, none⟩ := by
  set f := startSeconds (some frequency.toNat) with hf
  set asleep : Timed :=
    { control := ⟨true, f, junk.length, [.sleep], .join 0, []⟩
      clock
      wakeAt := Function.update (fun _ => 0) 0 (clock + f * 1000000)
      slept := [f]
      counters := junk.map fun j => ⟨.new j, none⟩
      crashed := false } with hasleep
  have hrun : runChecked step anyStep (start frequency junk clock)
      (List.replicate 4 .management ++ [.stats 0]) = some asleep := by
    simp [runChecked, step, start, Statistics.start, Statistics.step, Statistics.managementStep,
      Statistics.statsNext, statsCall, hf, hasleep]
  obtain ⟨t, ht, hthread, hslept, hcounters⟩ := reaches_report_of_sleep (s := asleep) rfl rfl
  exact ⟨t, (Reaches.of_runChecked hrun).trans ht, hthread, hslept, hcounters⟩

theorem RatesDefined.fits (h : RatesDefined frequency junk clock) : frequency.toNat < 65536 := by
  obtain ⟨s, hs, -, hslept, -⟩ := reaches_report frequency junk clock
  have hsame := h.slept s hs (startSeconds (some frequency.toNat)) (by simp [hslept])
  rw [← hsame]
  exact Nat.mod_lt _ (by decide)

theorem RatesDefined.noCollector (h : RatesDefined frequency junk clock) : junk = [] := by
  obtain ⟨s, hs, hthread, -, hcounters⟩ := reaches_report frequency junk clock
  cases junk with
  | nil => rfl
  | cons j junk =>
    have hfirst := (h.defined s hs 0 0 ⟨.new j, none⟩ hthread (by simp [hcounters])).initialised
    cases hfirst

theorem step_noCollector {a : Action} (hc : s.counters = []) (hs : s.step a = some s') :
    s'.counters = [] ∧ s'.crashed = false := by
  obtain ⟨hcrashed, hm⟩ := step_move hs
  cases hm with
  | tick micros => exact ⟨hc, hcrashed⟩
  | reportBytes i n e he => simp [hc] at he
  | management control hcontrol => exact ⟨hc, hcrashed⟩
  | stats k pc control hpc hawake hcontrol =>
    cases pc with
    | test =>
      simp only [statsCall]
      split <;> exact ⟨hc, hcrashed⟩
    | report i => simp [statsCall, hc, hcrashed]
    | sleep | log | exited => exact ⟨hc, hcrashed⟩

theorem ratesDefined_of_fits (hf : frequency.toNat < 65536) : RatesDefined frequency [] clock := by
  have hnone : ∀ s, Reaches step anyStep (start frequency [] clock) s →
      s.counters = [] ∧ s.crashed = false := by
    intro s hs
    apply hs.invariant (I := fun s => s.counters = [] ∧ s.crashed = false) ⟨rfl, rfl⟩
    rintro s a s' ⟨hc, -⟩ _ hstep
    exact step_noCollector hc hstep
  refine ⟨fun s hs f hslept => ?_, fun s hs k i e _ he => ?_, fun s hs => (hnone s hs).2⟩
  · rw [slept_reaches hs f hslept]
    exact Nat.mod_eq_of_lt hf
  · simp [(hnone s hs).1] at he

/-- **Rate computation**: the rates are defined in every run, with the frequency that was
requested, exactly when the frequency has 16 bits and there is no collector. -/
theorem rates_defined_iff (frequency : UInt32) (junk : List ℤ) (clock : ℕ) :
    RatesDefined frequency junk clock ↔ frequency.toNat < 65536 ∧ junk = [] := by
  constructor
  · intro h
    exact ⟨h.fits, h.noCollector⟩
  · rintro ⟨hf, rfl⟩
    exact ratesDefined_of_fits hf

/-- One collector and the default frequency. -/
theorem first_rate_undefined : ¬ ∀ frequency junk clock, RatesDefined frequency junk clock := by
  intro hstated
  have hnone := (hstated 300 [0] 0).noCollector
  cases hnone

end Timed
end MddProxy
