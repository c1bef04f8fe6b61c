import MddProxy.Dispatch.InOrder
import MddProxy.Dispatch.IdleWorkers
import MddProxy.Dispatch.ReceiveData

/-!
# On the way to a datagram

A worker that is inside `ReceiveData` reads until it sees the empty queue, and an event that
`ProcessData` has taken leads to such a call. So while a datagram waits, the events that came
in for its descriptor outnumber the calls that were started, counting those in progress.
-/
namespace MddProxy

open Interleaving

/-- The events of a batch that `ProcessData` has not consumed yet. -/
def DispatchPc.upcoming : DispatchPc → List Fd
  | .idle => []
  | .next evs | .getFree _ evs | .assignFree _ _ evs | .resumeFree _ _ evs => evs
  | .checkTotal _ evs | .createNew _ evs | .pushWorker _ _ evs | .countWorker _ _ evs => evs
  | .assignNew _ _ evs | .resumeNew _ _ evs | .recordBusy _ _ evs | .createAgain _ _ evs => evs
  | .push _ evs => evs

namespace System

variable {s s' : System} {w k n : ℕ} {wk : Worker} {pc : RunPc} {fd : Fd} {f f' : Feed}

/-- The guard: no datagram is empty or taken with a length that is refused, and each worker is
created once. -/
def Attended (s : System) : Action → Prop
  | .arrive _ d => d ≠ []
  | .thread w k => s.refusedOn w k = none
  | a => s.CreatesOnce a

instance (s : System) (a : Action) : Decidable (s.Attended a) :=
  match a with
  | .arrive _ d => inferInstanceAs (Decidable (d ≠ []))
  | .thread w k => inferInstanceAs (Decidable (s.refusedOn w k = none))
  | .processData _ | .addWorkers _ | .add | .sweep | .sendFails .. => .isTrue trivial
  | .dispatch => inferInstanceAs (Decidable (s.CreatesOnce .dispatch))
  | .stop => .isFalse id

theorem Attended.createsOnce {a : Action} (hok : s.Attended a) : s.CreatesOnce a := by
  cases a with
  | arrive | thread => trivial
  | _ => exact hok

def NoneEmpty (s : System) : Prop := ∀ fd f, s.receivers fd = some f → ∀ d ∈ f.arrived, d ≠ []

theorem RunMove.feed (hm : RunMove s w wk k pc s') (hf : s'.receivers fd = some f') :
    ∃ f, s.receivers fd = some f ∧ f'.arrived = f.arrived ∧ f.taken ≤ f'.taken ∧
      f'.transmitted.length = f.transmitted.length := by
  -- a feed that is overwritten keeps what arrived
  have hupdate : ∀ fd₀ f₀ f₁, s.receivers fd₀ = some f₀ →
      Function.update s.receivers fd₀ (some f₁) fd = some f' → f₁.arrived = f₀.arrived →
      f₀.taken ≤ f₁.taken → f₁.transmitted.length = f₀.transmitted.length →
      ∃ f, s.receivers fd = some f ∧ f'.arrived = f.arrived ∧ f.taken ≤ f'.taken ∧
        f'.transmitted.length = f.transmitted.length := by
    intro fd₀ f₀ f₁ hf₀ hf' harrived htaken hlen
    by_cases hfd : fd = fd₀
    · subst hfd
      obtain rfl : f₁ = f' := by simpa using hf'
      exact ⟨f₀, hf₀, harrived, htaken, hlen⟩
    · rw [Function.update_of_ne hfd] at hf'
      exact ⟨f', hf', rfl, Nat.le_refl _, rfl⟩
  cases hm with
  | invalid fd₀ len f₀ f₁ hf₀ hrecv =>
    obtain ⟨-, d, -, rfl⟩ := Feed.recvfrom_invalid hrecv
    exact hupdate fd₀ f₀ _ hf₀ hf rfl (Nat.le_succ _) rfl
  | emptyDatagram fd₀ len f₀ f₁ hf₀ hrecv | received fd₀ len f₀ f₁ count hf₀ hrecv =>
    obtain ⟨d, -, -, rfl⟩ := Feed.recvfrom_ok hrecv
    exact hupdate fd₀ f₀ _ hf₀ hf rfl (Nat.le_succ _) rfl
  | send fd₀ f₀ count i hf₀ hi =>
    exact hupdate fd₀ f₀ _ hf₀ hf rfl (Nat.le_refl _) (by simp [Feed.sendData])
  | _ => exact ⟨f', hf, rfl, Nat.le_refl _, rfl⟩

theorem feed_step {a : Action} (hs : s.step a = some s') (harrive : ∀ fd d, a ≠ .arrive fd d)
    (hf : s'.receivers fd = some f') : ∃ f, s.receivers fd = some f ∧
      f'.arrived = f.arrived ∧ f.taken ≤ f'.taken ∧
      f'.transmitted.length = f.transmitted.length := by
  cases (step_move hs).2 with
  | arrive fd₀ d => exact absurd rfl (harrive fd₀ d)
  | dispatch pc s' _ hm => cases hm <;> exact ⟨f', hf, rfl, Nat.le_refl _, rfl⟩
  | add pc s' _ hm => cases hm <;> exact ⟨f', hf, rfl, Nat.le_refl _, rfl⟩
  | sweep pc s' _ hm => cases hm <;> exact ⟨f', hf, rfl, Nat.le_refl _, rfl⟩
  | thread w k wk pc s' _ _ hm => exact hm.feed hf
  | _ => exact ⟨f', hf, rfl, Nat.le_refl _, rfl⟩

theorem arrive_eq {d : Datagram} (hs : s.step (.arrive fd d) = some s') :
    ∃ f, s.receivers fd = some f ∧
      s' = { s with receivers := Function.update s.receivers fd (some (f.arrive d)) } := by
  cases (step_move hs).2 with
  | arrive _ _ f hf => exact ⟨f, hf, rfl⟩

theorem NoneEmpty.step {a : Action} (hi : s.NoneEmpty) (hok : s.Attended a)
    (hs : s.step a = some s') : s'.NoneEmpty := by
  intro fd f' hf' d hd
  by_cases ha : ∃ fd d, a = .arrive fd d
  · obtain ⟨fd₀, d₀, rfl⟩ := ha
    obtain ⟨f₀, hf₀, rfl⟩ := arrive_eq hs
    by_cases hfd : fd = fd₀
    · subst hfd
      obtain rfl : f₀.arrive d₀ = f' := by simpa using hf'
      rcases List.mem_append.mp hd with hd | hd
      · exact hi fd f₀ hf₀ d hd
      · obtain rfl := List.mem_singleton.mp hd
        exact hok
    · have hf : s.receivers fd = some f' := by simpa [Function.update_of_ne hfd] using hf'
      exact hi fd f' hf d hd
  · obtain ⟨f, hf, harrived, -⟩ := feed_step hs (fun fd d h => ha ⟨fd, d, h⟩) hf'
    rw [harrived] at hd
    exact hi fd f hf d hd

/-- The events of `fd` that came in, consumed or not, and the calls on it in progress. -/
def calls (s : System) (fd : Fd) : ℕ :=
  s.consumed.count fd + s.dispatching.upcoming.count fd + threadsAt (RunPc.serving fd) s.heap

/-- While a datagram waits, more came in than calls were started, counting `edges` edges that
the kernel still holds. -/
def Announced (fd : Fd) (edges : ℕ) (s : System) : Prop :=
  ∀ f, s.receivers fd = some f → f.waiting ≠ [] → s.started.count fd < s.calls fd + edges

theorem Announced.congr (hi : s.Announced fd n) (hrecv : s'.receivers fd = s.receivers fd)
    (hstarted : s'.started = s.started)
    (hevents : s.consumed.count fd + s.dispatching.upcoming.count fd ≤
      s'.consumed.count fd + s'.dispatching.upcoming.count fd)
    (hserving : threadsAt (RunPc.serving fd) s'.heap = threadsAt (RunPc.serving fd) s.heap) :
    s'.Announced fd n := by
  intro f hf hwait
  have hlt := hi f (hrecv ▸ hf) hwait
  unfold calls at *
  rw [hstarted]
  omega

theorem Announced.keep {wk' : Worker} {pc' : RunPc} (hi : s.Announced fd n)
    (hw : s.heap[w]? = some wk) (hpc : wk.threads[k]? = some pc)
    (hheap : s'.heap = s.heap.set w wk') (hset : wk'.threads = wk.threads.set k pc')
    (hrecv : s'.receivers fd = s.receivers fd) (hconsumed : s'.consumed = s.consumed)
    (hdisp : s'.dispatching = s.dispatching) (hstarted : s'.started = s.started)
    (hserving : pc'.serving fd = pc.serving fd) : s'.Announced fd n := by
  refine hi.congr hrecv hstarted (by rw [hconsumed, hdisp]) ?_
  rw [hheap]
  exact threadsAt_same hw hpc hset hserving

theorem waiting_of_recvfrom {sockLen : UInt32} {count : ℕ}
    (h : f.recvfrom sockLen = (.ok count, f')) :
    f.waiting ≠ [] ∧ (f'.waiting ≠ [] → f.waiting ≠ []) := by
  obtain ⟨d, hd, -⟩ := Feed.recvfrom_ok h
  have hlen := (List.getElem?_eq_some_iff.mp hd).1
  have hne : f.waiting ≠ [] := by
    rw [Feed.waiting, Ne, List.drop_eq_nil_iff]
    omega
  exact ⟨hne, fun _ => hne⟩

theorem waiting_of_wouldBlock {sockLen : UInt32}
    (h : f.recvfrom sockLen = (.error .wouldBlock, f')) : f.waiting = [] :=
  List.drop_eq_nil_iff.mpr (List.getElem?_eq_none_iff.mp (Feed.recvfrom_wouldBlock h))

theorem Announced.run (hi : s.Announced fd n) (hne : s.NoneEmpty)
    (hrefused : s.refusedOn w k = none) (hw : s.heap[w]? = some wk)
    (hpc : wk.threads[k]? = some pc) (hm : RunMove s w wk k pc s') : s'.Announced fd n := by
  have hat : s.pcAt w k = some pc := pcAt_eq_some.mpr ⟨wk, hw, hpc⟩
  cases hm with
  | unset | popEmpty => exact hi
  | call fd' hr =>
    have hmove := threadsAt_move (P := RunPc.serving fd) hw hpc
      (rfl : (wk.jump k (.recvfrom fd' (s.sockLen s.started.length))).threads = _)
    intro f hf hwait
    have hlt := hi f hf hwait
    unfold calls at *
    simp only [heap_put, consumed_put, dispatching_put, List.count_append, List.count_singleton]
    by_cases hfd : fd' = fd
    · simp only [RunPc.serving, hfd, decide_true, Bool.toNat_true, Bool.toNat_false,
        beq_self_eq_true, if_true] at hmove ⊢
      omega
    · simp only [RunPc.serving, hfd, decide_false, Bool.toNat_false, beq_iff_eq,
        if_false] at hmove ⊢
      omega
  | wouldBlock fd' len f₀ hf₀ hrecv =>
    by_cases hfd : fd' = fd
    · -- the call that ends has seen the empty queue
      subst hfd
      intro f hf hwait
      obtain rfl : f₀ = f := Option.some.inj (hf₀.symm.trans hf)
      exact absurd (waiting_of_wouldBlock hrecv) hwait
    · exact hi.keep hw hpc rfl rfl rfl rfl rfl rfl (by simp [RunPc.serving, hfd])
  | invalid fd' len f₀ f₁ hf₀ hrecv =>
    simp [refusedOn_of_invalid hat hf₀ hrecv] at hrefused
  | emptyDatagram fd' len f₀ f₁ hf₀ hrecv =>
    obtain ⟨d, hd, hzero, -⟩ := Feed.recvfrom_ok hrecv
    have := List.length_pos_iff.mpr (hne fd' f₀ hf₀ d (List.mem_of_getElem? hd))
    simp only [MAX_PACKET_SIZE] at hzero
    omega
  | received fd' len f₀ f₁ count hf₀ hrecv =>
    by_cases hfd : fd' = fd
    · subst hfd
      have hkeep : ({ s.put w (wk.jump k (.sending fd' (count + 1) 0)) with
          receivers := s.receivers } : System).Announced fd' n :=
        hi.keep hw hpc rfl rfl rfl rfl rfl rfl rfl
      intro f hf hwait
      obtain rfl : f₁ = f := by simpa using hf
      exact hkeep f₀ hf₀ ((waiting_of_recvfrom hrecv).2 hwait)
    · exact hi.keep hw hpc rfl rfl (Function.update_of_ne (Ne.symm hfd) ..) rfl rfl rfl rfl
  | send fd' f₀ count i hf₀ hlt =>
    by_cases hfd : fd' = fd
    · subst hfd
      have hkeep : ({ s.put w (wk.jump k (.sending fd' count (i + 1))) with
          receivers := s.receivers } : System).Announced fd' n :=
        hi.keep hw hpc rfl rfl rfl rfl rfl rfl rfl
      intro f hf hwait
      obtain rfl : f₀.sendData i count = f := by simpa using hf
      exact hkeep f₀ hf₀ hwait
    · exact hi.keep hw hpc rfl rfl (Function.update_of_ne (Ne.symm hfd) ..) rfl rfl rfl rfl
  | sentAll fd' f₀ => exact hi.keep hw hpc rfl rfl rfl rfl rfl rfl rfl
  | _ => exact hi.keep hw hpc rfl rfl rfl rfl rfl rfl (by simp [RunPc.serving])

theorem Announced.dispatch (hi : s.Announced fd n) (hm : DispatchMove s s.dispatching s') :
    s'.Announced fd n := by
  generalize hpc : s.dispatching = pc at hm
  cases hm with
  | found fd' evs f hf =>
    refine hi.congr rfl rfl ?_ rfl
    rw [hpc, DispatchPc.upcoming, DispatchPc.upcoming, List.count_append, List.count_cons,
      List.count_singleton]
    omega
  | assignFree v fd' evs wk hv | resumeFree v fd' evs wk hv | assignNew v fd' evs wk hv
  | resumeNew v fd' evs wk hv =>
    exact hi.congr rfl rfl (by rw [hpc]; exact Nat.le_refl _) (threadsAt_store hv rfl)
  | createNew fd' evs =>
    exact hi.congr rfl rfl (by rw [hpc]; exact Nat.le_refl _) (threadsAt_newWorker _)
  | createAgain v fd' evs wk hv =>
    exact hi.congr rfl rfl (by rw [hpc]; exact Nat.le_refl _) (threadsAt_create hv)
  | notFound => exact hi
  | _ => exact hi.congr rfl rfl (by rw [hpc]; exact Nat.le_refl _) rfl

theorem Announced.step {a : Action} (hi : s.Announced fd n) (hne : s.NoneEmpty)
    (hok : s.Attended a) (harrive : ∀ fd d, a ≠ .arrive fd d) (hbatch : ∀ evs, a ≠ .processData evs)
    (hs : s.step a = some s') : s'.Announced fd n := by
  cases (step_move hs).2 with
  | arrive fd₀ d => exact absurd rfl (harrive fd₀ d)
  | processData evs => exact absurd rfl (hbatch evs)
  | dispatch pc s' hpc hm => exact hi.dispatch (hpc ▸ hm)
  | add pc s' _ hm =>
    cases hm with
    | createNew j =>
      exact hi.congr rfl rfl (Nat.le_refl _) (threadsAt_newWorker _)
    | _ => exact hi
  | sweep pc s' _ hm =>
    cases hm with
    | finishAndDie i m v wk _ _ hv =>
      exact hi.congr rfl rfl (Nat.le_refl _) (threadsAt_store hv rfl)
    | finish => exact hi
  | thread w k wk pc s' hw hpc hm => exact hi.run hne hok hw hpc hm
  | _ => exact hi

/-- In a run that creates each worker once, more came in than started means that somebody is
still to start a call or in the middle of one. -/
theorem exists_caller (hc : s.Conserved) (h : s.started.count fd < s.calls fd + n) :
    0 < n ∨ fd ∈ s.dispatching.upcoming ∨ s.dispatching.hand = some fd ∨ fd ∈ s.pendingItems ∨
      (∃ wk ∈ s.heap, fd ∈ wk.inFlight) ∨
      ∃ w k pc, s.pcAt w k = some pc ∧ pc.serving fd = true := by
  by_contra hnone
  push Not at hnone
  obtain ⟨hn, hup, hhand, hpending, hflight, hserving⟩ := hnone
  have hup : s.dispatching.upcoming.count fd = 0 := List.count_eq_zero.mpr hup
  have hhand : s.dispatching.hand.toList.count fd = 0 := by
    rw [List.count_eq_zero, Option.mem_toList]
    exact hhand
  have hpending : List.count fd s.pendingItems = 0 := List.count_eq_zero.mpr hpending
  have hflight : weigh (fun wk => wk.inFlight.count fd) s.heap = 0 := by
    rw [weigh_eq_zero]
    intro wk hwk
    exact List.count_eq_zero.mpr (hflight wk hwk)
  have hserving : threadsAt (RunPc.serving fd) s.heap = 0 := by
    rw [threadsAt_eq_zero]
    intro wk hwk pc hpc
    obtain ⟨w, hw⟩ := List.getElem?_of_mem hwk
    obtain ⟨k, hk⟩ := List.getElem?_of_mem hpc
    simpa using hserving w k pc (pcAt_eq_some.mpr ⟨wk, hw, hk⟩)
  have hall := hc fd
  unfold whereabouts at hall
  unfold calls at h
  omega

/-- What the guard keeps. -/
structure Kept (s : System) : Prop where
  owned : s.Owned
  conserved : s.Conserved
  noneEmpty : s.NoneEmpty

theorem kept_start (count : ℕ) (senders : Fd → Option ℕ) (junk : Junk) :
    (start count senders junk).Kept where
  owned := owned_start count senders junk
  conserved := conserved_start count senders junk
  noneEmpty fd f hf := by
    obtain ⟨n, -, rfl⟩ := Option.map_eq_some_iff.mp hf
    simp [Feed.fresh]

theorem Kept.step {a : Action} (hi : s.Kept) (hok : s.Attended a) (hs : s.step a = some s') :
    s'.Kept where
  owned := hi.owned.step hok.createsOnce hs
  conserved := hi.conserved.step hi.owned hok.createsOnce hs
  noneEmpty := hi.noneEmpty.step hok hs

theorem Conserved.started_le (hc : s.Conserved) (fd : Fd) :
    s.started.count fd ≤ s.consumed.count fd := by
  have hall := hc fd
  unfold whereabouts at hall
  omega

end System

end MddProxy
