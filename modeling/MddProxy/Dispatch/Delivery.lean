import MddProxy.Dispatch.Polling

/-!
# What is left when nothing moves

When the kernel lists no descriptor, no call of `ProcessData` or `AddWorkers` is in progress
and every worker sleeps, nobody is on the way to a datagram. So none waits, and each sender
has transmitted everything that arrived.
-/
namespace MddProxy

open Interleaving

namespace System

variable {s s' : System} {w k n : ℕ} {wk : Worker} {pc : RunPc} {fd : Fd} {f : Feed}

theorem heap_length_step {a : Action} (hs : s.step a = some s') :
    s.heap.length ≤ s'.heap.length := by
  cases (step_move hs).2 with
  | dispatch pc s' _ hm => cases hm <;> simp
  | add pc s' _ hm => cases hm <;> simp
  | sweep pc s' _ hm => cases hm <;> simp
  | thread w k wk pc s' _ _ hm => cases hm <;> simp
  | _ => exact Nat.le_refl _

/-- Every worker is told to sleep, and each of its threads is in `Pause`. -/
def Asleep (s : System) : Prop :=
  ∀ wk ∈ s.heap, wk.state = .sleepWait ∧ ∀ pc ∈ wk.threads, pc = .paused

instance (s : System) : Decidable s.Asleep :=
  inferInstanceAs (Decidable (∀ wk ∈ s.heap, wk.state = .sleepWait ∧
    ∀ pc ∈ wk.threads, pc = .paused))

theorem Asleep.inFlight (ha : s.Asleep) : ∀ wk ∈ s.heap, wk.inFlight = [] := by
  intro wk hwk
  obtain ⟨hst, hpaused⟩ := ha wk hwk
  rw [Worker.inFlight, List.flatMap_eq_nil_iff]
  intro pc hpc
  rw [hpaused pc hpc]
  simp [RunPc.carries, hst]

theorem Asleep.paused (ha : s.Asleep) (h : s.pcAt w k = some pc) : pc = .paused := by
  obtain ⟨wk, hw, hpc⟩ := pcAt_eq_some.mp h
  exact (ha wk (List.mem_of_getElem? hw)).2 pc (List.mem_of_getElem? hpc)

theorem Asleep.pendingItems (ha : s.Asleep) (hn : s.NoneStranded) (hh : s.SleepersHeld)
    (hworker : 0 < s.heap.length) (hd : s.dispatching = .idle) (hadd : s.adding = .idle) :
    s.pendingItems = [] := by
  by_contra hne
  have hw := List.getElem?_eq_getElem hworker
  obtain ⟨hst, hpaused⟩ := ha _ (List.mem_of_getElem? hw)
  rcases hh 0 _ hw hst with h | h | h | h
  · simp [hn.free hne] at h
  · simp [hd, DispatchPc.worker] at h
  · simp [hadd, AddPc.worker] at h
  · cases hpaused _ h

def Delivers (fd : Fd) (s : System) (a : Action) : Prop :=
  s.Attended a ∧ s.LooksAreFresh a ∧ s.ServedAlone fd a

instance (fd : Fd) (s : System) (a : Action) : Decidable (s.Delivers fd a) :=
  inferInstanceAs (Decidable (_ ∧ _ ∧ _))

theorem Orderly.transmitted (ho : Orderly fd s f) (ha : s.Asleep) (hwait : f.waiting = []) :
    ∀ t ∈ f.transmitted, t = f.arrived := by
  have hset : f.Settled := ho.settled fun w k count i h => by cases ha.paused h
  intro t ht
  rw [hset.2 t ht]
  exact List.take_of_length_le (List.drop_eq_nil_iff.mp hwait)

end System

namespace Polled

variable {t : Polled} {fd : Fd} {f : Feed} {count n : ℕ} {senders : Fd → Option ℕ}
  {junk : Junk}

/-- Nothing is listed, no call is in progress and every worker sleeps. -/
structure AtRest (t : Polled) : Prop where
  ready : t.ready = []
  dispatching : t.system.dispatching = .idle
  adding : t.system.adding = .idle
  asleep : t.system.Asleep

instance (t : Polled) : Decidable t.AtRest :=
  decidable_of_iff (t.ready = [] ∧ t.system.dispatching = .idle ∧ t.system.adding = .idle ∧
    t.system.Asleep) ⟨fun h => ⟨h.1, h.2.1, h.2.2.1, h.2.2.2⟩, fun h => ⟨h.1, h.2, h.3, h.4⟩⟩

theorem Under.mono {ok ok' : System → System.Action → Prop}
    (himp : ∀ s a, ok s a → ok' s a) (a : Action) (h : t.Under ok a) : t.Under ok' a :=
  fun b hb => himp t.system b (h b hb)

theorem AtRest.nothing_waits (hrest : t.AtRest) (hcount : 0 < count)
    (h : Reaches step (Under (System.Delivers fd)) (start count senders junk) t)
    (hf : t.system.receivers fd = some f) : f.waiting = [] ∧ t.system.pendingItems = [] := by
  have hsys := reaches_system h
  obtain ⟨hn, hh, hlen⟩ : t.system.NoneStranded ∧ t.system.SleepersHeld ∧
      count ≤ t.system.heap.length := by
    apply hsys.invariant
      (I := fun s => s.NoneStranded ∧ s.SleepersHeld ∧ count ≤ s.heap.length)
    · exact ⟨System.noneStranded_start count senders junk,
        System.sleepersHeld_start count senders junk, by simp [start, System.start]⟩
    · rintro s a s' ⟨hn, hh, hlen⟩ hok hs
      exact ⟨hn.step hok.2.1 hs, hh.step hs, hlen.trans (System.heap_length_step hs)⟩
  have hpending := hrest.asleep.pendingItems hn hh (by omega) hrest.dispatching hrest.adding
  refine ⟨?_, hpending⟩
  by_contra hwait
  have hattended := h.mono fun t a => Under.mono (fun s b hok => hok.1) a
  obtain ⟨hk, hi⟩ := followed_of_reaches hattended
  rcases System.exists_caller hk.conserved (hi fd f hf hwait) with
    h | h | h | h | ⟨wk, hwk, h⟩ | ⟨w, k, pc, hpc, h⟩
  · simp [hrest.ready] at h
  · simp [hrest.dispatching, DispatchPc.upcoming] at h
  · simp [hrest.dispatching, DispatchPc.hand] at h
  · simp [hpending] at h
  · simp [hrest.asleep.inFlight wk hwk] at h
  · rw [hrest.asleep.paused hpc] at h
    cases h

/-- At rest every sender has transmitted all of what arrived. -/
theorem AtRest.all_sent (hrest : t.AtRest) (hcount : 0 < count) (hreg : senders fd = some n)
    (h : Reaches step (Under (System.Delivers fd)) (start count senders junk) t) :
    ∃ f, t.system.receivers fd = some f ∧ f.taken = f.arrived.length ∧
      f.transmitted.length = n ∧ ∀ sent ∈ f.transmitted, sent = f.arrived := by
  have hsys := (reaches_system h).mono fun _ _ hok => hok.2.2
  obtain ⟨f, hf, ho, hrelay⟩ := System.feed_refines_relay hreg hsys
  obtain ⟨hwait, -⟩ := hrest.nothing_waits hcount h hf
  have hset : f.Settled := ho.settled fun w k count i h => by cases hrest.asleep.paused h
  have hlen := Relay.length_outputs hrelay
  rw [ho.frontParts.outputs] at hlen
  exact ⟨f, hf, Nat.le_antisymm hset.1 (List.drop_eq_nil_iff.mp hwait), hlen,
    ho.transmitted hrest.asleep hwait⟩

/-- **Everything is delivered**: when a run comes to rest in which each worker is created once,
all looks are fresh and the receiver of `fd` is served by one call at a time, each of its
senders has transmitted exactly what arrived. -/
theorem delivered_at_rest (hcount : 0 < count) (hreg : senders fd = some n)
    (h : Reaches step (Under (System.Delivers fd)) (start count senders junk) t)
    (hrest : t.AtRest) :
    ∃ f, t.system.receivers fd = some f ∧ f.taken = f.arrived.length ∧
      f.transmitted = List.replicate n f.arrived := by
  obtain ⟨f, hf, htaken, hlen, hall⟩ := hrest.all_sent hcount hreg h
  exact ⟨f, hf, htaken, List.eq_replicate_iff.mpr ⟨hlen, hall⟩⟩

/-- Two datagrams of one descriptor, the second one before the first has been sent. -/
theorem delivered_at_rest_two_datagrams : ∃ t f,
    Reaches step (Under (System.Delivers 0)) elevenPolled t ∧ t.AtRest ∧
      t.system.receivers 0 = some f ∧ f.arrived = [[1], [2]] ∧
      f.transmitted = List.replicate 1 f.arrived := by
  obtain ⟨t, ht, hrest, f, hf, harrived⟩ : ∃ t,
      Reaches step (Under (System.Delivers 0)) elevenPolled t ∧ t.AtRest ∧
        ∃ f ∈ t.system.receivers 0, f.arrived = [[1], [2]] :=
    exists_reaches_of_runChecked
      (((List.range 5).map fun w => .program (.thread w 0)) ++ [.arrive 0 [1], .wait 1] ++
        List.replicate 5 (.program .dispatch) ++ List.replicate 4 (.program (.thread 0 0)) ++
        [.arrive 0 [2]] ++ List.replicate 10 (.program (.thread 0 0)) ++ [.wait 1] ++
        List.replicate 5 (.program .dispatch) ++ List.replicate 8 (.program (.thread 1 0)))
      (by decide)
  obtain ⟨f', hf', -, hsent⟩ := delivered_at_rest (n := 1) (by decide) (by decide) ht hrest
  obtain rfl : f = f' := Option.some.inj (hf.symm.trans hf')
  exact ⟨t, f, ht, hrest, hf, harrived, hsent⟩

end Polled
end MddProxy
