import MddProxy.Dispatch.Threads

/-!
# Popping the pending queue

`OnWorkComplete` reads `Count()` and calls `Pop()` in two steps, and several
workers may stand between the two. The queue is never popped when empty as long
as there are at least as many pending items as such workers; a `Count` that lets
in one worker too many is the only step that can break it.
-/
namespace MddProxy
namespace System

open Interleaving

variable {s s' : System} {w k : ℕ} {wk : Worker} {pc : RunPc}

/-- Every worker between `Count() > 0` and its `Pop` has an item of its own. -/
def PopCovered (s : System) : Prop := threadsAt RunPc.popping s.heap ≤ s.pendingItems.length

/-- The guard: a `Count` that finds items finds more of them than there are
workers already on their way to a `Pop`. -/
def CountLeavesItem (s : System) : Action → Prop
  | .thread w k => s.pcAt w k = some .countPending → s.pendingItems ≠ [] →
      threadsAt RunPc.popping s.heap < s.pendingItems.length
  | _ => True

instance (s : System) (a : Action) : Decidable (s.CountLeavesItem a) :=
  match a with
  | .thread w k => inferInstanceAs (Decidable (s.pcAt w k = some .countPending →
      s.pendingItems ≠ [] → threadsAt RunPc.popping s.heap < s.pendingItems.length))
  | .arrive .. | .processData _ | .dispatch | .addWorkers _ | .add | .stop | .sweep
  | .sendFails .. => .isTrue trivial

theorem popCovered_start (count : ℕ) (senders : Fd → Option ℕ) (junk : Junk) :
    (start count senders junk).PopCovered := by
  unfold PopCovered
  rw [threadsAt_start count senders junk rfl]
  exact Nat.zero_le _

theorem PopCovered.run (hi : s.PopCovered) (hw : s.heap[w]? = some wk)
    (hpc : wk.threads[k]? = some pc)
    (hok : pc = .countPending → s.pendingItems ≠ [] →
      threadsAt RunPc.popping s.heap < s.pendingItems.length)
    (hm : RunMove s w wk k pc s') : s'.PopCovered := by
  unfold PopCovered at *
  cases hm with
  | unset | popEmpty => exact hi
  | somePending hne =>
    have hlt := hok rfl hne
    have := threadsAt_move (P := RunPc.popping) hw hpc
      (rfl : (wk.jump k .setResume).threads = _)
    simp only [RunPc.popping, Bool.toNat_true, Bool.toNat_false] at this
    simp only [heap_put, pendingItems_put]
    omega
  | pop fd rest hp =>
    have := threadsAt_move (P := RunPc.popping) hw hpc
      (rfl : (wk.jump k (.store fd)).threads = _)
    simp only [RunPc.popping, Bool.toNat_true, Bool.toNat_false] at this
    rw [hp, List.length_cons] at hi
    simp only [heap_put]
    omega
  | _ => exact le_of_eq_of_le (threadsAt_same hw hpc rfl (by rfl)) hi

theorem PopCovered.dispatch {pc : DispatchPc} (hi : s.PopCovered) (hm : DispatchMove s pc s') :
    s'.PopCovered := by
  unfold PopCovered at *
  cases hm with
  | assignFree w fd evs wk hw | resumeFree w fd evs wk hw | assignNew w fd evs wk hw
  | resumeNew w fd evs wk hw => exact le_of_eq_of_le (threadsAt_store hw rfl) hi
  | createNew fd evs => exact le_of_eq_of_le (threadsAt_newWorker _) hi
  | createAgain w fd evs wk hw => exact le_of_eq_of_le (threadsAt_create hw) hi
  | push fd evs => simpa using Nat.le_succ_of_le hi
  | _ => exact hi

theorem PopCovered.step {a : Action} (hi : s.PopCovered) (hok : s.CountLeavesItem a)
    (hs : s.step a = some s') : s'.PopCovered := by
  cases (step_move hs).2 with
  | dispatch pc s' _ hm => exact hi.dispatch hm
  | add pc s' _ hm =>
    cases hm with
    | createNew k => exact le_of_eq_of_le (threadsAt_newWorker _) hi
    | _ => exact hi
  | sweep pc s' _ hm =>
    cases hm with
    | finishAndDie i n w wk _ _ hw => exact le_of_eq_of_le (threadsAt_store hw rfl) hi
    | finish => exact hi
  | thread w k wk pc s' hw hpc hm =>
    refine hi.run hw hpc (fun h => hok ?_) hm
    exact pcAt_eq_some.mpr ⟨wk, hw, h ▸ hpc⟩
  | _ => exact hi

/-- Whoever stands at a `Pop` finds an item. -/
theorem PopCovered.pop_nonempty (hi : s.PopCovered) (hpc : s.pcAt w k = some .pop) :
    s.pendingItems ≠ [] := by
  obtain ⟨wk, hw, hpc⟩ := pcAt_eq_some.mp hpc
  have hpos := threadsAt_pos (P := RunPc.popping) hw hpc rfl
  unfold PopCovered at hi
  exact List.length_pos_iff.mp (Nat.lt_of_lt_of_le hpos hi)

/-- Every socket in play came in with an event that `ProcessData` consumed, and
what `OnWorkComplete` takes from the queue is what `ProcessData` pushed. -/
structure FromEvents (s : System) : Prop where
  pushed_consumed : ∀ fd ∈ s.pushed, fd ∈ s.consumed
  pending_pushed : ∀ fd ∈ s.pendingItems, fd ∈ s.pushed
  hand_consumed : ∀ fd ∈ s.dispatching.hand, fd ∈ s.consumed
  socket_consumed : ∀ wk ∈ s.heap, ∀ fd ∈ wk.receiverSocket, fd ∈ s.consumed
  store_pushed : ∀ wk ∈ s.heap, ∀ fd, .store fd ∈ wk.threads → fd ∈ s.pushed

theorem fromEvents_start (count : ℕ) (senders : Fd → Option ℕ) (junk : Junk) :
    (start count senders junk).FromEvents where
  pushed_consumed := by simp [start]
  pending_pushed := by simp [start]
  hand_consumed := by simp [start, DispatchPc.hand]
  socket_consumed := by simp [start]
  store_pushed := by simp [start]

theorem FromEvents.run (hi : s.FromEvents) (hw : s.heap[w]? = some wk)
    (hpc : wk.threads[k]? = some pc) (hm : RunMove s w wk k pc s') : s'.FromEvents := by
  have hmem := List.mem_of_getElem? hw
  have hsock := hi.socket_consumed wk hmem
  have hstore := hi.store_pushed wk hmem
  -- a thread that moves on is about to store only what its new place says
  have hmoved : ∀ pc', (∀ x, RunPc.store x = pc' → x ∈ s.pushed) →
      ∀ x, RunPc.store x ∈ wk.threads.set k pc' → x ∈ s.pushed := by
    intro pc' hnew x hx
    rcases List.mem_or_eq_of_mem_set hx with hx | hx
    · exact hstore x hx
    · exact hnew x hx
  cases hm with
  | unset | popEmpty => exact { hi with }
  | pop fd rest hp =>
    have hfd := hi.pending_pushed fd (by simp [hp])
    have hnew : ∀ x, RunPc.store x = .store fd → x ∈ s.pushed := by
      intro x hx
      rwa [RunPc.store.inj hx]
    exact { hi with
      pending_pushed := fun x hx => hi.pending_pushed x (by simp [hp, hx])
      socket_consumed := forall_mem_set hi.socket_consumed hsock
      store_pushed := forall_mem_set hi.store_pushed (hmoved (.store fd) hnew) }
  | store fd =>
    have hfd := hi.pushed_consumed fd (hstore fd (List.mem_of_getElem? hpc))
    exact { hi with
      socket_consumed := forall_mem_set hi.socket_consumed fun x hx => by
        obtain rfl : fd = x := by simpa using hx
        exact hfd
      store_pushed := forall_mem_set hi.store_pushed (hmoved _ (by simp)) }
  | _ =>
    exact { hi with
      socket_consumed := forall_mem_set hi.socket_consumed hsock
      store_pushed := forall_mem_set hi.store_pushed (hmoved _ (by simp)) }

theorem FromEvents.dispatch (hi : s.FromEvents) (hm : DispatchMove s s.dispatching s') :
    s'.FromEvents := by
  have hhand := hi.hand_consumed
  generalize hpc : s.dispatching = pc at hm hhand
  cases hm with
  | notFound => exact { hi with }
  | finish => exact { hi with hand_consumed := by simp [DispatchPc.hand] }
  | found fd evs f hf =>
    exact { hi with
      pushed_consumed := fun x hx => List.mem_append_left _ (hi.pushed_consumed x hx)
      hand_consumed := by simp [DispatchPc.hand]
      socket_consumed := fun x hx y hy => List.mem_append_left _ (hi.socket_consumed x hx y hy) }
  | assignFree w fd evs wk hw | assignNew w fd evs wk hw =>
    have hmem := List.mem_of_getElem? hw
    exact { hi with
      hand_consumed := hhand
      socket_consumed := forall_mem_set hi.socket_consumed (by simpa [DispatchPc.hand] using hhand)
      store_pushed := forall_mem_set hi.store_pushed (hi.store_pushed wk hmem) }
  | resumeFree w fd evs wk hw | resumeNew w fd evs wk hw =>
    have hmem := List.mem_of_getElem? hw
    exact { hi with
      hand_consumed := by simp [DispatchPc.hand]
      socket_consumed := forall_mem_set hi.socket_consumed (hi.socket_consumed wk hmem)
      store_pushed := forall_mem_set hi.store_pushed (hi.store_pushed wk hmem) }
  | createNew fd evs =>
    exact { hi with
      hand_consumed := hhand
      socket_consumed := by simpa [or_imp, forall_and] using hi.socket_consumed
      store_pushed := by simpa [or_imp, forall_and] using hi.store_pushed }
  | createAgain w fd evs wk hw =>
    have hmem := List.mem_of_getElem? hw
    exact { hi with
      hand_consumed := by simp [DispatchPc.hand]
      socket_consumed := forall_mem_set hi.socket_consumed (hi.socket_consumed wk hmem)
      store_pushed := forall_mem_set hi.store_pushed (by simpa using hi.store_pushed wk hmem) }
  | push fd evs =>
    exact { hi with
      pushed_consumed := by
        intro x hx
        rcases List.mem_append.mp hx with hx | hx
        · exact hi.pushed_consumed x hx
        · exact hhand x (by simpa [DispatchPc.hand, eq_comm] using hx)
      pending_pushed := by
        intro x hx
        rcases List.mem_append.mp hx with hx | hx
        · exact List.mem_append_left _ (hi.pending_pushed x hx)
        · exact List.mem_append_right _ hx
      hand_consumed := by simp [DispatchPc.hand]
      store_pushed := fun x hx y hy => List.mem_append_left _ (hi.store_pushed x hx y hy) }
  | recordBusy => exact { hi with hand_consumed := by simp [DispatchPc.hand] }
  | _ => exact { hi with hand_consumed := hhand }

theorem FromEvents.step {a : Action} (hi : s.FromEvents) (hs : s.step a = some s') :
    s'.FromEvents := by
  cases (step_move hs).2 with
  | processData evs => exact { hi with hand_consumed := by simp [DispatchPc.hand] }
  | dispatch pc s' hpc hm => exact hi.dispatch (hpc ▸ hm)
  | add pc s' _ hm =>
    cases hm with
    | createNew k =>
      exact { hi with
        socket_consumed := by simpa [or_imp, forall_and] using hi.socket_consumed
        store_pushed := by simpa [or_imp, forall_and] using hi.store_pushed }
    | _ => exact { hi with }
  | sweep pc s' _ hm =>
    cases hm with
    | finishAndDie i n w wk _ _ hw =>
      have hmem := List.mem_of_getElem? hw
      exact { hi with
        socket_consumed := forall_mem_set hi.socket_consumed (hi.socket_consumed wk hmem)
        store_pushed := forall_mem_set hi.store_pushed (hi.store_pushed wk hmem) }
    | finish => exact { hi with }
  | thread w k wk pc s' hw hpc hm => exact hi.run hw hpc hm
  | _ => exact { hi with }

theorem emptyPop_cases {a : Action} (hs : s.step a = some s') (hf : s'.fault = some .emptyPop) :
    ∃ w k, s.pcAt w k = some .pop ∧ s.pendingItems = [] := by
  obtain ⟨hnone, hm⟩ := step_move hs
  cases hm with
  | dispatch pc s' _ hm => cases hm <;> simp [hnone] at hf
  | add pc s' _ hm => cases hm <;> simp [hnone] at hf
  | sweep pc s' _ hm => cases hm <;> simp [hnone] at hf
  | thread w k wk pc s' hw hpc hm =>
    cases hm with
    | popEmpty hp => exact ⟨w, k, pcAt_eq_some.mpr ⟨wk, hw, hpc⟩, hp⟩
    | _ => simp [hnone] at hf
  | _ => simp [hnone] at hf

/-- **The pending queue is never popped when empty** in a run whose every positive
`Count` leaves an item for each worker that is already on its way to a `Pop`;
what `Pop` hands to a worker was pushed by `ProcessData`, and every socket in a
control slot came in with an event. -/
theorem pop_never_empty {count : ℕ} {senders : Fd → Option ℕ} {junk : Junk}
    (h : Reaches step CountLeavesItem (start count senders junk) s) :
    (∀ w k, s.pcAt w k = some .pop → s.pendingItems ≠ []) ∧ s.fault ≠ some .emptyPop ∧
      (∀ w k fd, s.pcAt w k = some (.store fd) → fd ∈ s.pushed) ∧
      ∀ wk ∈ s.heap, ∀ fd ∈ wk.receiverSocket, fd ∈ s.consumed := by
  have hcov : s.PopCovered ∧ s.fault ≠ some .emptyPop := by
    refine h.invariant (I := fun s => s.PopCovered ∧ s.fault ≠ some .emptyPop)
      ⟨popCovered_start count senders junk, by simp [start]⟩ ?_
    rintro s a s' ⟨hi, -⟩ hok hs
    refine ⟨hi.step hok hs, fun hf => ?_⟩
    obtain ⟨w, k, hpc, hp⟩ := emptyPop_cases hs hf
    exact hi.pop_nonempty hpc hp
  have hfrom : s.FromEvents :=
    h.invariant (fromEvents_start count senders junk) fun _ _ _ hi _ hs => hi.step hs
  refine ⟨fun w k hpc => hcov.1.pop_nonempty hpc, hcov.2, fun w k fd hpc => ?_,
    hfrom.socket_consumed⟩
  obtain ⟨wk, hw, hpc⟩ := pcAt_eq_some.mp hpc
  exact hfrom.store_pushed wk (List.mem_of_getElem? hw) fd (List.mem_of_getElem? hpc)

theorem threadStep_eq (hf : s.fault = none) (hw : s.heap[w]? = some wk)
    (hpc : wk.threads[k]? = some pc) : s.step (.thread w k) = s.runStep w wk k pc := by
  simp [step, hf, threadStep, hw, hpc]

theorem exists_popper (h : 0 < threadsAt RunPc.popping s.heap) :
    ∃ (w : ℕ) (wk : Worker) (k : ℕ) (pc : RunPc),
      s.heap[w]? = some wk ∧ wk.threads[k]? = some pc ∧ pc.popping = true := by
  have hne : ¬ threadsAt RunPc.popping s.heap = 0 := by omega
  rw [threadsAt_eq_zero] at hne
  push Not at hne
  obtain ⟨wk, hwk, pc, hpc, hP⟩ := hne
  obtain ⟨w, hw⟩ := List.getElem?_of_mem hwk
  obtain ⟨k, hk⟩ := List.getElem?_of_mem hpc
  exact ⟨w, wk, k, pc, hw, hk, by simpa using hP⟩

theorem reaches_pop (hf : s.fault = none) (h : 0 < threadsAt RunPc.popping s.heap) :
    ∃ (t : System) (w : ℕ) (wk : Worker) (k : ℕ), Reaches step anyStep s t ∧ t.fault = none ∧
      t.heap[w]? = some wk ∧ wk.threads[k]? = some .pop ∧ t.pendingItems = s.pendingItems ∧
      threadsAt RunPc.popping t.heap = threadsAt RunPc.popping s.heap := by
  obtain ⟨w, wk, k, pc, hw, hpc, hP⟩ := exists_popper h
  cases pc with
  | pop => exact ⟨s, w, wk, k, .refl, hf, hw, hpc, rfl, rfl⟩
  | setResume =>
    have hlen := (List.getElem?_eq_some_iff.mp hpc).1
    have hwlen := (List.getElem?_eq_some_iff.mp hw).1
    refine ⟨s.put w ((wk.setState .resume).jump k .pop), w, _, k,
      .single trivial ((threadStep_eq hf hw hpc).trans rfl), hf,
      by rw [heap_put, List.getElem?_set_self hwlen],
      by rw [Worker.jump_threads, Worker.setState_threads, List.getElem?_set_self hlen], rfl,
      threadsAt_same hw hpc rfl (by rfl)⟩
  | _ => simp [RunPc.popping] at hP

/-- With fewer items than workers on their way to a `Pop`, those workers alone run
into the empty queue. -/
theorem emptyPop_of_uncovered (hf : s.fault = none)
    (hlt : s.pendingItems.length < threadsAt RunPc.popping s.heap) :
    ∃ t, Reaches step anyStep s t ∧ t.fault = some .emptyPop := by
  induction hn : s.pendingItems.length generalizing s with
  | zero =>
    obtain ⟨t, w, wk, k, hr, hft, hw, hpc, hp, -⟩ := reaches_pop hf (by omega)
    have hnil : t.pendingItems = [] := hp.trans (List.length_eq_zero_iff.mp hn)
    refine ⟨{ t with fault := some .emptyPop }, .tail hr trivial (a := .thread w k) ?_, rfl⟩
    rw [threadStep_eq hft hw hpc]
    simp [runStep, hnil, PendingWorkQueue.pop]
  | succ n ih =>
    obtain ⟨t, w, wk, k, hr, hft, hw, hpc, hp, hcount⟩ := reaches_pop hf (by omega)
    obtain ⟨fd, rest, hcons⟩ := List.exists_cons_of_length_eq_add_one (hp ▸ hn)
    have hmove := threadsAt_move (P := RunPc.popping) hw hpc
      (rfl : (wk.jump k (.store fd)).threads = _)
    simp only [RunPc.popping, Bool.toNat_true, Bool.toNat_false] at hmove
    have hstep : t.step (.thread w k) =
        some { t.put w (wk.jump k (.store fd)) with pendingItems := rest } := by
      rw [threadStep_eq hft hw hpc]
      simp [runStep, hcons, PendingWorkQueue.pop]
    have hrest : rest.length = n := by
      have := congrArg List.length hcons
      rw [hp, hn, List.length_cons] at this
      omega
    obtain ⟨u, hu, hfu⟩ := ih (s := { t.put w (wk.jump k (.store fd)) with pendingItems := rest })
      hft (by simp only [heap_put]; omega) hrest
    exact ⟨u, (Reaches.tail hr trivial hstep).trans hu, hfu⟩

/-- The guard is exact: once one `Count` breaks it, an empty `Pop` can be reached. -/
theorem countLeavesItem_exact {a : Action} (hs : s.step a = some s')
    (hbad : ¬ s.CountLeavesItem a) :
    ∃ t, Reaches step anyStep s' t ∧ t.fault = some .emptyPop := by
  obtain ⟨hf, hm⟩ := step_move hs
  cases hm with
  | thread w k wk pc s' hw hpc hm =>
    simp only [CountLeavesItem, not_forall] at hbad
    obtain ⟨hat, hne, hle⟩ := hbad
    obtain rfl : pc = .countPending := by simpa [pcAt, hw, hpc] using hat
    cases hm with
    | nonePending hnil => exact absurd hnil hne
    | somePending =>
      have hmove := threadsAt_move (P := RunPc.popping) hw hpc
        (rfl : (wk.jump k .setResume).threads = _)
      simp only [RunPc.popping, Bool.toNat_true, Bool.toNat_false] at hmove
      exact emptyPop_of_uncovered hf (by simp only [heap_put, pendingItems_put]; omega)
  | _ => simp [CountLeavesItem] at hbad

def elevenReceivers : System :=
  start 5 (fun fd => if fd < 11 then some 1 else none) .zeroed

def onePending : List Action :=
  .addWorkers 5 :: List.replicate 21 .add ++
    .processData (List.range 11) :: List.replicate 44 .dispatch

theorem pop_never_empty_one_pending :
    ∃ s, Reaches step CountLeavesItem elevenReceivers s ∧ s.pcAt 0 0 = some .pop ∧
      s.pendingItems ≠ [] := by
  obtain ⟨s, hs, hpc⟩ : ∃ s, Reaches step CountLeavesItem elevenReceivers s ∧
      s.pcAt 0 0 = some .pop :=
    exists_reaches_of_runChecked (onePending ++ List.replicate 5 (.thread 0 0)) (by decide)
  exact ⟨s, hs, hpc, (pop_never_empty hs).1 0 0 hpc⟩

/-- Two workers both read `Count()` as one before either of them pops. -/
theorem pop_of_empty_queue_reachable :
    ¬ ∀ s, Reaches step anyStep elevenReceivers s →
      ∀ w k, s.pcAt w k = some .pop → s.pendingItems ≠ [] := by
  intro hstated
  obtain ⟨s, hs, hpc, hp⟩ : ∃ s, Reaches step anyStep elevenReceivers s ∧
      s.pcAt 0 0 = some .pop ∧ s.pendingItems = [] :=
    exists_reaches_of_runChecked
      (onePending ++ List.replicate 4 (.thread 0 0) ++ List.replicate 6 (.thread 1 0) ++
        [.thread 0 0]) (by decide)
  exact hstated s hs 0 0 hpc hp

end System
end MddProxy
