import MddProxy.Dispatch.Delivery
import MddProxy.Dispatch.Effort
import MddProxy.Interleaving.Rest

/-!
# Without new traffic the dispatcher comes to rest

The work that is left bounds every run, and a run that cannot go on has stopped where it
should: no thread is stuck inside `ReceiveData`, in the hand of `ProcessData` or at a lock.
-/
namespace MddProxy

open Interleaving

namespace System

variable {s s' : System} {w k : ℕ} {wk wk' : Worker} {pc : RunPc} {fd : Fd}

theorem registered_step {a : Action} (hs : s.step a = some s')
    (h : (s.receivers fd).isSome = true) : (s'.receivers fd).isSome = true := by
  have hupdate : ∀ fd' (f' : Feed),
      (Function.update s.receivers fd' (some f') fd).isSome = true := by
    intro fd' f'
    rw [Function.update_apply]
    split
    · rfl
    · exact h
  cases (step_move hs).2 with
  | arrive fd' d f => exact hupdate fd' _
  | dispatch pc s' _ hm => cases hm <;> exact h
  | add pc s' _ hm => cases hm <;> exact h
  | sweep pc s' _ hm => cases hm <;> exact h
  | thread w k wk pc s' _ _ hm =>
    cases hm with
    | invalid fd' | emptyDatagram fd' | received fd' | send fd' => exact hupdate fd' _
    | _ => exact h
  | _ => exact h

/-- The receivers of consumed events are registered, and so are those of the calls. -/
structure Found (s : System) : Prop where
  consumed : ∀ fd ∈ s.consumed, (s.receivers fd).isSome = true
  serving : ∀ w k pc fd, s.pcAt w k = some pc → pc.serving fd = true →
    (s.receivers fd).isSome = true

theorem found_start (count : ℕ) (senders : Fd → Option ℕ) (junk : Junk) :
    (start count senders junk).Found where
  consumed := by simp [start]
  serving w k pc fd h hserving := by
    obtain ⟨wk, hw, hpc⟩ := pcAt_eq_some.mp h
    have hnone := threadsAt_start (P := RunPc.serving fd) count senders junk rfl
    have hpos := threadsAt_pos hw hpc hserving
    omega

theorem Found.congr (hi : s.Found)
    (hreg : ∀ fd, (s.receivers fd).isSome = true → (s'.receivers fd).isSome = true)
    (hconsumed : s'.consumed = s.consumed)
    (hpc : ∀ w k pc fd, s'.pcAt w k = some pc → pc.serving fd = true →
      s.pcAt w k = some pc ∨ (s.receivers fd).isSome = true) : s'.Found where
  consumed fd hfd := hreg fd (hi.consumed fd (hconsumed ▸ hfd))
  serving w k pc fd h hserving := by
    apply hreg
    rcases hpc w k pc fd h hserving with h | h
    · exact hi.serving w k pc fd h hserving
    · exact h

theorem Found.store (hi : s.Found)
    (hreg : ∀ fd, (s.receivers fd).isSome = true → (s'.receivers fd).isSome = true)
    (hconsumed : s'.consumed = s.consumed) (hw : s.heap[w]? = some wk)
    (hheap : s'.heap = s.heap.set w wk') (hset : wk'.threads = wk.threads) : s'.Found := by
  refine hi.congr hreg hconsumed fun i j pc fd h _ => .inl ?_
  rwa [pcAt_store hw hheap hset] at h

theorem Found.run (hi : s.Found) (hfrom : s.FromEvents)
    (hreg : ∀ fd, (s.receivers fd).isSome = true → (s'.receivers fd).isSome = true)
    (hw : s.heap[w]? = some wk) (hpc : wk.threads[k]? = some pc) (hm : RunMove s w wk k pc s') :
    s'.Found := by
  have hat : s.pcAt w k = some pc := pcAt_eq_some.mpr ⟨wk, hw, hpc⟩
  have hmoved : ∀ (wk' : Worker) (pc' : RunPc), s'.heap = s.heap.set w wk' →
      wk'.threads = wk.threads.set k pc' → s'.consumed = s.consumed →
      (∀ fd, pc'.serving fd = true → (s.receivers fd).isSome = true) → s'.Found := by
    intro wk' pc' hheap hset hconsumed hnew
    refine hi.congr hreg hconsumed fun i j pc₀ fd h hserving => ?_
    rw [pcAt_move hw hpc hheap hset] at h
    split at h
    · obtain rfl := Option.some.inj h
      exact .inr (hnew fd hserving)
    · exact .inl h
  cases hm with
  | unset | popEmpty => exact hi.congr hreg rfl fun _ _ _ _ h _ => .inl h
  | call fd' hr =>
    apply hmoved _ _ rfl rfl rfl
    intro fd hserving
    obtain rfl : fd' = fd := by simpa [RunPc.serving] using hserving
    exact hi.consumed fd' (hfrom.socket_consumed wk (List.mem_of_getElem? hw) fd' hr)
  | received | send | sentAll =>
    apply hmoved _ _ rfl rfl rfl
    intro fd hserving
    exact hi.serving w k _ fd hat hserving
  | _ =>
    apply hmoved _ _ rfl rfl rfl
    intro fd hserving
    cases hserving

theorem Found.dispatch (hi : s.Found)
    (hreg : ∀ fd, (s.receivers fd).isSome = true → (s'.receivers fd).isSome = true)
    (hm : DispatchMove s s.dispatching s') : s'.Found := by
  generalize hpc : s.dispatching = pc at hm
  cases hm with
  | found fd' evs f hf =>
    refine ⟨fun fd hfd => ?_, hi.serving⟩
    rcases List.mem_append.mp hfd with hfd | hfd
    · exact hi.consumed fd hfd
    · obtain rfl := List.mem_singleton.mp hfd
      exact Option.isSome_iff_exists.mpr ⟨f, hf⟩
  | assignFree v fd' evs wk hv | resumeFree v fd' evs wk hv | assignNew v fd' evs wk hv
  | resumeNew v fd' evs wk hv =>
    exact hi.store hreg rfl hv rfl rfl
  | createNew fd' evs =>
    refine hi.congr hreg rfl fun i j pc fd h hserving => .inl ?_
    rwa [pcAt_newWorker rfl i j (RunPc.serving_ne_loop hserving)] at h
  | createAgain v fd' evs wk hv =>
    refine hi.congr hreg rfl fun i j pc fd h hserving => .inl ?_
    rwa [pcAt_create hv rfl i j (RunPc.serving_ne_loop hserving)] at h
  | _ => exact hi.congr hreg rfl fun _ _ _ _ h _ => .inl h

theorem Found.step {a : Action} (hi : s.Found) (hfrom : s.FromEvents)
    (hs : s.step a = some s') : s'.Found := by
  have hreg : ∀ fd, (s.receivers fd).isSome = true → (s'.receivers fd).isSome = true :=
    fun fd => registered_step hs
  cases (step_move hs).2 with
  | dispatch pc s' hpc hm => exact hi.dispatch hreg (hpc ▸ hm)
  | add pc s' _ hm =>
    cases hm with
    | createNew j =>
      refine hi.congr hreg rfl fun i j pc fd h hserving => .inl ?_
      rwa [pcAt_newWorker rfl i j (RunPc.serving_ne_loop hserving)] at h
    | _ => exact hi.congr hreg rfl fun _ _ _ _ h _ => .inl h
  | sweep pc s' _ hm =>
    cases hm with
    | finishAndDie i n v wk _ _ hv =>
      exact hi.store hreg rfl hv rfl rfl
    | finish => exact hi.congr hreg rfl fun _ _ _ _ h _ => .inl h
  | thread w k wk pc s' hw hpc hm => exact hi.run hfrom hreg hw hpc hm
  | _ => exact hi.congr hreg rfl fun _ _ _ _ h _ => .inl h

theorem Owned.paused (ho : s.Owned) (hfound : s.Found) (hfault : s.fault = none)
    (hw : s.heap[w]? = some wk) (hpc : wk.threads[k]? = some pc)
    (hstuck : s.step (.thread w k) = none) : wk.state = .sleepWait ∧ pc = .paused := by
  obtain ⟨rfl, hone, hagree⟩ := (ho.tended wk (List.mem_of_getElem? hw)).single hpc
  have hat : s.pcAt w 0 = some pc := pcAt_eq_some.mpr ⟨wk, hw, hpc⟩
  rw [threadStep_eq hfault hw hpc] at hstuck
  cases pc with
  | loop => cases hst : wk.state <;> simp [runStep, hst] at hstuck
  | paused =>
    have hor : wk.state = .resume ∨ wk.state = .sleepWait := by simpa [RunPc.agrees] using hagree
    rcases hor with hst | hst
    · simp [runStep, hst, WorkerState.sleeping] at hstuck
    · exact ⟨hst, rfl⟩
  | receiving => cases hr : wk.receiverSocket <;> simp [runStep, hr] at hstuck
  | recvfrom fd len | sending fd count i =>
    obtain ⟨f, hf⟩ := Option.isSome_iff_exists.mp
      (hfound.serving w 0 _ fd hat (by simp [RunPc.serving]))
    simp [runStep, hf] at hstuck
  | countPending =>
    simp only [runStep] at hstuck
    split at hstuck <;> cases hstuck
  | pop => cases hp : s.pendingItems <;> simp [runStep, PendingWorkQueue.pop, hp] at hstuck
  | returnFree => simp [runStep, lockFree, ho.running] at hstuck
  | exited => simp [RunPc.agrees] at hagree
  | _ => simp [runStep] at hstuck

theorem Owned.dispatch_idle (ho : s.Owned) (hfull : s.Full) (hfault : s.fault = none)
    (hstuck : s.step .dispatch = none) : s.dispatching = .idle := by
  have hsteady := hfull.steady
  have hparked : ∀ i, s.dispatching.worker = some i → ∃ wk, s.heap[i]? = some wk := by
    intro i hi
    obtain ⟨wk, hw, -⟩ := ho.parked i (by simp [idlers, hi])
    exact ⟨wk, hw⟩
  have hlock : s.lockFree = true := by simp [lockFree, ho.running]
  have hstuck : s.dispatchStep = none := by simpa [System.step, hfault] using hstuck
  unfold dispatchStep at hstuck
  cases hpc : s.dispatching with
  | idle => rfl
  | next evs =>
    cases evs with
    | nil => simp [hpc] at hstuck
    | cons fd evs => cases hf : s.receivers fd <;> simp [hpc, hf] at hstuck
  | getFree fd evs => cases hw : s.freeWorkers <;> simp [hpc, hlock, getFreeWorker, hw] at hstuck
  | assignFree v fd evs | resumeFree v fd evs =>
    obtain ⟨wk, hv⟩ := hparked v (by rw [hpc]; rfl)
    simp [hpc, hv] at hstuck
  | checkTotal fd evs =>
    simp only [hpc] at hstuck
    split at hstuck <;> cases hstuck
  | push fd evs => simp [hpc] at hstuck
  | _ => simp [hpc, DispatchPc.growing] at hsteady

theorem add_idle (hfault : s.fault = none) (hstuck : s.step .add = none) : s.adding = .idle := by
  have hstuck : s.addStep = none := by simpa [step, hfault] using hstuck
  unfold addStep at hstuck
  cases hpc : s.adding with
  | idle => rfl
  | next k => cases k <;> simp [hpc] at hstuck
  | _ => simp [hpc] at hstuck

end System

namespace Polled

variable {t t' : Polled} {count : ℕ} {senders : Fd → Option ℕ} {junk : Junk}
  {fds : Finset Fd}

/-- The steps that nobody outside has to cause: neither traffic nor a management command. -/
def Internal : Action → Prop
  | .wait _ => True
  | .program a => System.Internal a
  | .arrive _ _ | .flag _ => False

/-- The work that is left, with the descriptors that are listed. -/
def effort (fds : Finset Fd) (senders : Fd → Option ℕ) (t : Polled) : ℕ :=
  14 * t.ready.length + t.system.effort fds fun fd => (senders fd).getD 0

structure Steady (fds : Finset Fd) (senders : Fd → Option ℕ) (t : Polled) : Prop where
  owned : t.system.Owned
  full : t.system.Full
  sized : t.system.Sized fds fun fd => (senders fd).getD 0
  fromEvents : t.system.FromEvents
  found : t.system.Found

theorem Steady.system {a : System.Action} {s' : System} (hi : t.Steady fds senders)
    (hok : t.system.CreatesOnce a) (hs : t.system.step a = some s') (ready : List Fd) :
    Steady fds senders ⟨s', ready⟩ where
  owned := hi.owned.step hok hs
  full := hi.full.step hs
  sized := hi.sized.step hs
  fromEvents := hi.fromEvents.step hs
  found := hi.found.step hi.fromEvents hs

theorem Steady.step {a : Action} (hi : t.Steady fds senders) (ha : Internal a)
    (hs : t.step a = some t') : t'.Steady fds senders := by
  cases a with
  | arrive fd d => exact ha.elim
  | flag fd => exact ha.elim
  | wait n =>
    obtain ⟨-, s', hs', rfl⟩ := wait_eq hs
    have honce : t.system.CreatesOnce (.processData (t.ready.take n)) := trivial
    exact hi.system honce hs' _
  | program a =>
    obtain ⟨-, s', hs', rfl⟩ := program_eq hs
    exact hi.system (hi.full.createsOnce ha) hs' _

theorem effort_step {a : Action} (hi : t.Steady fds senders) (ha : Internal a)
    (hs : t.step a = some t') : t'.effort fds senders < t.effort fds senders := by
  cases a with
  | arrive fd d => exact ha.elim
  | flag fd => exact ha.elim
  | wait n =>
    obtain ⟨⟨hn, hne⟩, s', hs', rfl⟩ := wait_eq hs
    have hpos := List.length_pos_iff.mpr hne
    cases (System.step_move hs').2 with
    | processData _ hidle =>
      simp only [effort, System.effort, hidle, DispatchPc.effort, List.length_take,
        List.length_drop]
      omega
  | program a =>
    obtain ⟨-, s', hs', rfl⟩ := program_eq hs
    exact Nat.add_lt_add_left (System.effort_step hi.owned hi.full hi.sized ha hs') _

theorem lowers_effort (fds : Finset Fd) (senders : Fd → Option ℕ) :
    Lowers step (fun _ => Internal) (Steady fds senders) (effort fds senders) where
  keeps _ _ _ hi ha hs := hi.step ha hs
  lowers _ _ _ hi ha hs := effort_step hi ha hs

/-- A run that cannot go on is at rest. -/
theorem atRest_of_rests (hi : t.Steady fds senders) (hfault : t.system.fault = none)
    (hrest : Rests step (fun _ => Internal) t) : t.AtRest := by
  have hprogram : ∀ a, System.Internal a → t.system.step a = none := by
    intro a ha
    have hnone := hrest (.program a) ha
    have hown : ofProgram a = true := by
      cases a with
      | arrive fd d => exact ha.elim
      | processData evs => exact ha.elim
      | _ => rfl
    simpa [step, hown] using hnone
  have hidle := hi.owned.dispatch_idle hi.full hfault (hprogram .dispatch trivial)
  refine ⟨?_, hidle, System.add_idle hfault (hprogram .add trivial), ?_⟩
  · by_contra hne
    have hwait := hrest (.wait 1) trivial
    simp [step, hne, System.step, hfault, hidle] at hwait
  · intro wk hwk
    obtain ⟨w, hw⟩ := List.getElem?_of_mem hwk
    obtain ⟨pc, hone, -⟩ := hi.owned.tended wk hwk
    have hpc : wk.threads[0]? = some pc := by simp [hone]
    have hstuck := hprogram (.thread w 0) trivial
    obtain ⟨hst, rfl⟩ := hi.owned.paused hi.found hfault hw hpc hstuck
    exact ⟨hst, by simp [hone]⟩

theorem steady_of_reaches (hfds : ∀ fd, (senders fd).isSome = true → fd ∈ fds)
    (h : Reaches step (Under System.CreatesOnce) (start count senders junk) t)
    (hfull : t.system.Full) : t.Steady fds senders := by
  have hsys := reaches_system h
  have hsized : t.system.Sized fds fun fd => (senders fd).getD 0 := by
    apply hsys.invariant (I := System.Sized fds fun fd => (senders fd).getD 0)
    · intro fd f hf
      obtain ⟨n, hn, rfl⟩ := Option.map_eq_some_iff.mp hf
      exact ⟨hfds fd (by simp [hn]), by simp [Feed.fresh, hn]⟩
    · intro s a s' hi _ hs
      exact hi.step hs
  obtain ⟨ho, hfrom, hfound⟩ : t.system.Owned ∧ t.system.FromEvents ∧ t.system.Found := by
    apply hsys.invariant (I := fun s => s.Owned ∧ s.FromEvents ∧ s.Found)
    · exact ⟨System.owned_start count senders junk, System.fromEvents_start count senders junk,
        System.found_start count senders junk⟩
    · rintro s a s' ⟨ho, hfrom, hfound⟩ hok hs
      exact ⟨ho.step hok hs, hfrom.step hs, hfound.step hfrom hs⟩
  exact ⟨ho, hfull, hsized, hfrom, hfound⟩

/-- **Without new traffic every run comes to rest**: once the pool of a run that creates each
worker once is full, the steps that follow are bounded in number, and where none is left without
a fault nothing is listed, no call is in progress and every worker sleeps. -/
theorem comes_to_rest (hfds : ∀ fd, (senders fd).isSome = true → fd ∈ fds)
    (h : Reaches step (Under System.CreatesOnce) (start count senders junk) t)
    (hfull : t.system.Full) :
    (∀ n t', Steps step (fun _ => Internal) t n t' → n ≤ t.effort fds senders) ∧
      (∃ t', Reaches step (fun _ => Internal) t t' ∧ Rests step (fun _ => Internal) t') ∧
      ∀ t', Reaches step (fun _ => Internal) t t' → Rests step (fun _ => Internal) t' →
        t'.system.fault = none → t'.AtRest := by
  have hi := steady_of_reaches hfds h hfull
  have hl := lowers_effort fds senders
  refine ⟨fun n t' hsteps => ?_, ?_, fun t' ht' hrest hfault => ?_⟩
  · have hle := hl.length_le hi hsteps
    omega
  · obtain ⟨t', ht', -, hrest⟩ := hl.exists_rest hi
    exact ⟨t', ht', hrest⟩
  · exact atRest_of_rests (ht'.invariant hi hl.keeps) hfault hrest

/-- Ten workers and two listed descriptors. -/
theorem comes_to_rest_ten_workers : ∃ t, Reaches step (Under System.CreatesOnce) elevenPolled t ∧
    t.ready = [0, 3] ∧
    (∀ n t', Steps step (fun _ => Internal) t n t' →
      n ≤ t.effort (Finset.range 11) fun fd => if fd < 11 then some 1 else none) ∧
    (∃ t', Reaches step (fun _ => Internal) t t' ∧ Rests step (fun _ => Internal) t') ∧
    ∀ t', Reaches step (fun _ => Internal) t t' → Rests step (fun _ => Internal) t' →
      t'.system.fault = none → t'.AtRest := by
  obtain ⟨t, ht, hready, hfull⟩ : ∃ t, Reaches step (Under System.CreatesOnce) elevenPolled t ∧
      t.ready = [0, 3] ∧ t.system.Full :=
    exists_reaches_of_runChecked
      (.program (.addWorkers 5) :: List.replicate 21 (.program .add) ++
        [.arrive 0 [1], .arrive 3 [2]]) (by decide)
  refine ⟨t, ht, hready, comes_to_rest (fun fd hfd => ?_) ht hfull⟩
  rw [Finset.mem_range]
  by_contra hge
  simp [hge] at hfd

end Polled
end MddProxy
