import MddProxy.Dispatch.InOrder

/-!
# One event of a descriptor at a time

The overlap of two `ReceiveData` calls on one receiver can be kept out from the
outside: if `ProcessData` consumes an event of a descriptor only after every earlier
one has been served to the end, the ownership discipline does the rest.
-/
namespace MddProxy

def DispatchPc.event : DispatchPc → Option Fd
  | .next (fd :: _) => some fd
  | _ => none

namespace System

open Interleaving

variable {s s' : System} {w k : ℕ} {wk : Worker} {pc : RunPc} {fd : Fd}

/-- The guard: datagrams for `fd` have 1 to 1024 bytes and none is taken with a length that is
refused, each worker is created once, and an event of `fd` is consumed when all earlier ones
have been served. -/
def OneEventAtATime (fd : Fd) (s : System) : Action → Prop
  | .arrive fd' d => fd' = fd → 1 ≤ d.length ∧ d.length ≤ MAX_PACKET_SIZE
  | .dispatch => s.CreatesOnce .dispatch ∧ (s.dispatching.event = some fd →
      s.consumed.count fd = s.started.count fd ∧ threadsAt (RunPc.serving fd) s.heap = 0)
  | .thread w k => s.refusedOn w k ≠ some fd
  | .stop => False
  | _ => True

/-- At most one event of `fd` is under way or being served. -/
def Frugal (fd : Fd) (s : System) : Prop :=
  s.consumed.count fd + threadsAt (RunPc.serving fd) s.heap ≤ s.started.count fd + 1

theorem frugal_start (count : ℕ) (senders : Fd → Option ℕ) (junk : Junk) :
    (start count senders junk).Frugal fd := by
  unfold Frugal
  rw [threadsAt_start count senders junk rfl]
  simp [start]

theorem Frugal.congr (hi : s.Frugal fd)
    (hserving : threadsAt (RunPc.serving fd) s'.heap ≤ threadsAt (RunPc.serving fd) s.heap)
    (hconsumed : s'.consumed = s.consumed) (hstarted : s'.started = s.started) :
    s'.Frugal fd := by
  unfold Frugal at *
  rw [hconsumed, hstarted]
  omega

theorem Frugal.run (hi : s.Frugal fd) (hw : s.heap[w]? = some wk)
    (hpc : wk.threads[k]? = some pc) (hm : RunMove s w wk k pc s') : s'.Frugal fd := by
  have keep : ∀ (wk' : Worker) (pc' : RunPc), s'.heap = s.heap.set w wk' →
      wk'.threads = wk.threads.set k pc' → s'.consumed = s.consumed → s'.started = s.started →
      (pc'.serving fd = true → pc.serving fd = true) → s'.Frugal fd := by
    intro wk' pc' hheap hset hconsumed hstarted hserving
    refine hi.congr ?_ hconsumed hstarted
    have hmove := threadsAt_move (P := RunPc.serving fd) hw hpc hset
    have hle : (pc'.serving fd).toNat ≤ (pc.serving fd).toNat := by
      cases h : pc'.serving fd with
      | false => exact Nat.zero_le _
      | true => rw [hserving h]
    rw [hheap]
    omega
  cases hm with
  | unset | popEmpty => exact hi
  | call fd' hr =>
    have hmove := threadsAt_move (P := RunPc.serving fd) hw hpc
      (rfl : (wk.jump k (.recvfrom fd' (s.sockLen s.started.length))).threads = _)
    unfold Frugal at *
    simp only [heap_put, consumed_put, List.count_append, List.count_singleton]
    by_cases hfd : fd' = fd
    · simp only [RunPc.serving, hfd, decide_true, Bool.toNat_true, Bool.toNat_false,
        beq_self_eq_true, if_true] at hmove ⊢
      omega
    · simp only [RunPc.serving, hfd, decide_false, Bool.toNat_false] at hmove
      omega
  | received fd' | send fd' | sentAll fd' => exact keep _ _ rfl rfl rfl rfl id
  | _ => exact keep _ _ rfl rfl rfl rfl (by simp [RunPc.serving])

theorem Frugal.dispatch (hi : s.Frugal fd)
    (hok : s.dispatching.event = some fd →
      s.consumed.count fd = s.started.count fd ∧ threadsAt (RunPc.serving fd) s.heap = 0)
    (hm : DispatchMove s s.dispatching s') : s'.Frugal fd := by
  generalize hpc : s.dispatching = pc at hm hok
  cases hm with
  | found fd' evs f _ =>
    unfold Frugal at *
    simp only [List.count_append, List.count_singleton]
    by_cases hfd : fd' = fd
    · obtain ⟨hall, hnone⟩ := hok (by rw [hfd]; rfl)
      simp only [hfd, beq_self_eq_true, if_true]
      omega
    · simp only [beq_iff_eq, hfd, if_false]
      omega
  | assignFree v fd' evs wk hv | resumeFree v fd' evs wk hv | assignNew v fd' evs wk hv
  | resumeNew v fd' evs wk hv =>
    exact hi.congr (Nat.le_of_eq (threadsAt_store hv rfl)) rfl rfl
  | createNew fd' evs => exact hi.congr (Nat.le_of_eq (threadsAt_newWorker _)) rfl rfl
  | createAgain v fd' evs wk hv => exact hi.congr (Nat.le_of_eq (threadsAt_create hv)) rfl rfl
  | _ => exact hi

theorem Frugal.step {a : Action} (hi : s.Frugal fd) (hok : s.OneEventAtATime fd a)
    (hs : s.step a = some s') : s'.Frugal fd := by
  cases (step_move hs).2 with
  | dispatch pc s' hpc hm => exact hi.dispatch hok.2 (hpc ▸ hm)
  | add pc s' _ hm =>
    cases hm with
    | createNew k => exact hi.congr (Nat.le_of_eq (threadsAt_newWorker _)) rfl rfl
    | _ => exact hi
  | stop _ => exact hok.elim
  | sweep pc s' _ hm =>
    cases hm with
    | finishAndDie i n v wk _ _ hv =>
      exact hi.congr (Nat.le_of_eq (threadsAt_store hv rfl)) rfl rfl
    | finish => exact hi
  | thread w k wk pc s' hw hpc hm => exact hi.run hw hpc hm
  | _ => exact hi

theorem OneEventAtATime.createsOnce {a : Action} (hok : s.OneEventAtATime fd a) :
    s.CreatesOnce a := by
  cases a with
  | dispatch => exact hok.1
  | stop => exact hok.elim
  | _ => trivial

theorem Frugal.startsAlone (hi : s.Frugal fd) (ho : s.Owned) (hc : s.Conserved)
    (hstart : s.startsOn w k = some fd) : threadsAt (RunPc.serving fd) s.heap = 0 := by
  obtain ⟨wk, hw, hstart⟩ := Option.bind_eq_some_iff.mp hstart
  split_ifs at hstart with hpc
  obtain ⟨-, hone, -⟩ := (ho.tended wk (List.mem_of_getElem? hw)).single hpc
  have hflight : wk.inFlight.count fd = 1 := by
    rw [Worker.inFlight_single _ hone]
    simp [RunPc.carries, hstart]
  have hle := le_weigh (fun wk => wk.inFlight.count fd) hw
  have hcons := hc fd
  rw [whereabouts] at hcons
  simp only [hflight] at hle
  unfold Frugal at hi
  omega

/-- A run that consumes one event of `fd` at a time serves `fd` alone. -/
theorem servedAlone_of_oneEventAtATime {count : ℕ} {senders : Fd → Option ℕ}
    {junk : Junk}
    (h : Reaches step (OneEventAtATime fd) (start count senders junk) s) :
    Reaches step (ServedAlone fd) (start count senders junk) s := by
  refine h.mono_of_invariant (I := fun s => s.Frugal fd ∧ s.Owned ∧ s.Conserved)
    ⟨frugal_start count senders junk, owned_start count senders junk,
      conserved_start count senders junk⟩ ?_ ?_
  · rintro s a s' ⟨hf, ho, hc⟩ hok hs
    have honce := hok.createsOnce
    exact ⟨hf.step hok hs, ho.step honce hs, hc.step ho honce hs⟩
  · rintro s a ⟨hf, ho, hc⟩ hok
    cases a with
    | arrive fd' d => exact hok
    | thread w k => exact ⟨hf.startsAlone ho hc, hok⟩
    | _ => trivial

/-- In-order delivery for events that come one at a time. -/
theorem in_order_of_oneEventAtATime {count n : ℕ} {senders : Fd → Option ℕ}
    {junk : Junk} (hreg : senders fd = some n)
    (h : Reaches step (OneEventAtATime fd) (start count senders junk) s) :
    ∃ f, s.receivers fd = some f ∧ ∀ t ∈ f.transmitted, t <+: f.arrived := by
  obtain ⟨f, hf, ho, -⟩ := feed_refines_relay hreg (servedAlone_of_oneEventAtATime h)
  exact ⟨f, hf, fun t ht => f.toRelay.outputs_prefix t (ho.frontParts.outputs ▸ ht)⟩

end System
end MddProxy
