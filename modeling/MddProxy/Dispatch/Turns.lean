import MddProxy.Dispatch.IdleWorkers

/-!
# First come, first served

`ProcessData` gives an event to a worker of the free list, to a new worker, or to the
pending queue, and a worker that is done takes the front of the queue. A direct gift
overtakes every event of the queue; while all looks are fresh the queue is empty then.
-/
namespace MddProxy

/-- The socket that `ProcessData` has neither stored in a control slot nor pushed. -/
def DispatchPc.unassigned : DispatchPc → Option Fd
  | .getFree fd _ | .assignFree _ fd _ | .checkTotal fd _ | .createNew fd _ => some fd
  | .pushWorker _ fd _ | .countWorker _ fd _ | .assignNew _ fd _ | .push fd _ => some fd
  | .idle | .next _ | .resumeFree _ _ _ | .resumeNew _ _ _ | .recordBusy _ _ _ => none
  | .createAgain _ _ _ => none

def DispatchPc.direct : DispatchPc → Bool
  | .assignFree _ _ _ | .createNew _ _ | .pushWorker _ _ _ | .countWorker _ _ _ => true
  | .assignNew _ _ _ => true
  | _ => false

/-- The dispatcher with the sockets that workers have been given so far. -/
structure Served where
  system : System
  handed : List Fd

namespace Served

open Interleaving

/-- What a step gives to a worker: the socket that `ProcessData` has stored, or the front
of the queue. -/
def gift (s s' : System) : System.Action → List Fd
  | .dispatch =>
    match s.dispatching with
    | .assignFree w _ _ | .assignNew w _ _ => ((s'.heap[w]?).bind (·.receiverSocket)).toList
    | _ => []
  | .thread w k => if s.pcAt w k = some .pop then s.pendingItems.head?.toList else []
  | .arrive _ _ | .processData _ | .addWorkers _ | .add | .stop | .sweep => []
  | .sendFails _ _ => []

def step (t : Served) (a : System.Action) : Option Served :=
  (t.system.step a).map fun s' => ⟨s', t.handed ++ gift t.system s' a⟩

def start (count : ℕ) (senders : Fd → Option ℕ) (junk : Junk) : Served :=
  ⟨.start count senders junk, []⟩

/-- The guard: all looks are fresh. -/
def Fresh (t : Served) (a : System.Action) : Prop := t.system.LooksAreFresh a

instance (t : Served) (a : System.Action) : Decidable (t.Fresh a) :=
  inferInstanceAs (Decidable (t.system.LooksAreFresh a))

/-- Whoever gets an event past the queue finds it empty: nothing is pending while a worker is
free or below the limit. -/
structure Waits (s : System) : Prop where
  stranded : s.NoneStranded
  direct : s.dispatching.direct = true → s.pendingItems = []
  pushing : s.dispatching.pushing = true → MAX_WORKER_THREADS ≤ s.totalWorkerCount
  full : s.pendingItems ≠ [] → MAX_WORKER_THREADS ≤ s.totalWorkerCount

variable {s s' : System} {count : ℕ} {senders : Fd → Option ℕ} {junk : Junk}

theorem waits_start : Waits (.start count senders junk) where
  stranded := System.noneStranded_start count senders junk
  direct h := by cases h
  pushing h := by cases h
  full h := absurd rfl h

theorem Waits.congr (hi : Waits s) (hstranded : s'.NoneStranded)
    (hpc : s'.dispatching = s.dispatching)
    (hpending : s.pendingItems = [] → s'.pendingItems = [])
    (htotal : s.totalWorkerCount ≤ s'.totalWorkerCount) : Waits s' where
  stranded := hstranded
  direct h := hpending (hi.direct (hpc ▸ h))
  pushing h := (hi.pushing (hpc ▸ h)).trans htotal
  full h := (hi.full fun hnil => h (hpending hnil)).trans htotal

theorem Waits.dispatch (hi : Waits s) (hstranded : s'.NoneStranded)
    (hm : System.DispatchMove s s.dispatching s') : Waits s' := by
  have hdirect := hi.direct
  have hpushing := hi.pushing
  generalize hpc : s.dispatching = pc at hm hdirect hpushing
  cases hm with
  | notFound fd evs hnone => exact hi.congr hstranded rfl id le_rfl
  | getFree fd evs w ws _ hfree =>
    refine ⟨hstranded, fun _ => ?_, nofun, hi.full⟩
    by_contra hne
    have hnil := hi.stranded.free hne
    simp [hfree] at hnil
  | belowMax fd evs hlt =>
    refine ⟨hstranded, fun _ => ?_, nofun, hi.full⟩
    by_contra hne
    have hfull := hi.full hne
    omega
  | atMax fd evs hle => exact ⟨hstranded, nofun, fun _ => hle, hi.full⟩
  | countWorker w fd evs =>
    exact ⟨hstranded, fun _ => hdirect rfl, nofun, fun h => absurd (hdirect rfl) h⟩
  | push fd evs => exact ⟨hstranded, nofun, nofun, fun _ => hpushing rfl⟩
  | createNew | pushWorker | assignNew | assignFree =>
    exact ⟨hstranded, fun _ => hdirect rfl, nofun, hi.full⟩
  | _ => exact ⟨hstranded, nofun, nofun, hi.full⟩

theorem Waits.step {a : System.Action} (hi : Waits s) (hok : s.LooksAreFresh a)
    (hs : s.step a = some s') : Waits s' := by
  have hstranded := hi.stranded.step hok hs
  cases (System.step_move hs).2 with
  | processData evs hidle => exact ⟨hstranded, nofun, nofun, hi.full⟩
  | dispatch pc s' hpc hm => exact hi.dispatch hstranded (hpc ▸ hm)
  | add pc s' _ hm =>
    cases hm with
    | countWorker => exact hi.congr hstranded rfl id (Nat.le_succ _)
    | _ => exact hi.congr hstranded rfl id le_rfl
  | sweep pc s' _ hm => cases hm <;> exact hi.congr hstranded rfl id le_rfl
  | thread w k wk pc s' hw hpc hm =>
    cases hm with
    | pop fd rest hp => exact hi.congr hstranded rfl (by simp [hp]) le_rfl
    | _ => exact hi.congr hstranded rfl id le_rfl
  | _ => exact hi.congr hstranded rfl id le_rfl

/-- Handed over, pending, in hand: the events in the order in which they came. -/
def InTurn (t : Served) : Prop :=
  t.system.consumed =
    t.handed ++ (t.system.pendingItems ++ t.system.dispatching.unassigned.toList)

variable {t t' : Served} {w k : ℕ} {wk : Worker} {pc : RunPc}

theorem gift_of_ne_pop (hw : s.heap[w]? = some wk) (hpc : wk.threads[k]? = some pc)
    (hne : pc ≠ .pop) : gift s s' (.thread w k) = [] := by
  have hpc' : s.pcAt w k = some pc := System.pcAt_eq_some.mpr ⟨wk, hw, hpc⟩
  simp [gift, hpc', hne]

theorem InTurn.congr {a : System.Action} (hi : t.InTurn) (hgift : gift t.system s' a = [])
    (hconsumed : s'.consumed = t.system.consumed)
    (hpending : s'.pendingItems = t.system.pendingItems)
    (hhand : s'.dispatching.unassigned = t.system.dispatching.unassigned) :
    InTurn ⟨s', t.handed ++ gift t.system s' a⟩ := by
  rw [InTurn] at hi ⊢
  rw [hgift, hconsumed, hpending, hhand, List.append_nil, hi]

theorem InTurn.dispatch (hi : t.InTurn) (hwaits : Waits t.system)
    (hm : System.DispatchMove t.system t.system.dispatching s') :
    InTurn ⟨s', t.handed ++ gift t.system s' .dispatch⟩ := by
  have hdirect := hwaits.direct
  rw [InTurn] at hi ⊢
  generalize hpc : t.system.dispatching = pc at hm hdirect hi
  cases hm with
  | found fd evs f hf =>
    simp only [gift, hpc, DispatchPc.unassigned, Option.toList_none, List.append_nil] at hi ⊢
    rw [hi, List.append_assoc]
    rfl
  | assignFree w fd evs wk hw =>
    have hstored : (t.system.heap.set w (wk.setSocket fd))[w]? = some (wk.setSocket fd) :=
      List.getElem?_set_self (List.getElem?_eq_some_iff.mp hw).1
    simp [gift, hpc, hstored, hi, hdirect rfl, DispatchPc.unassigned]
  | assignNew w fd evs wk hw =>
    have hstored : (t.system.heap.set w (wk.setSocket fd))[w]? = some (wk.setSocket fd) :=
      List.getElem?_set_self (List.getElem?_eq_some_iff.mp hw).1
    simp [gift, hpc, hstored, hi, hdirect rfl, DispatchPc.unassigned]
  | _ => simp [gift, hpc, hi, DispatchPc.unassigned]

theorem InTurn.step {a : System.Action} (hi : t.InTurn) (hwaits : Waits t.system)
    (hs : t.step a = some t') : t'.InTurn := by
  obtain ⟨s', hs', rfl⟩ := Option.map_eq_some_iff.mp hs
  cases (System.step_move hs').2 with
  | processData evs hidle => exact hi.congr rfl rfl rfl (by rw [hidle]; rfl)
  | dispatch pc s' hpc hm => exact hi.dispatch hwaits (hpc ▸ hm)
  | add pc s' _ hm => cases hm <;> exact hi.congr rfl rfl rfl rfl
  | sweep pc s' _ hm => cases hm <;> exact hi.congr rfl rfl rfl rfl
  | thread w k wk pc s' hw hpc hm =>
    cases hm with
    | pop fd rest hp =>
      have hpc' : t.system.pcAt w k = some .pop := System.pcAt_eq_some.mpr ⟨wk, hw, hpc⟩
      rw [InTurn] at hi ⊢
      simp only [gift, hpc', hp, if_true, List.head?_cons, Option.toList_some]
      simp [hi, hp]
    | popEmpty hnil => exact hi.congr (by simp [gift, hnil]) rfl rfl rfl
    | _ => exact hi.congr (gift_of_ne_pop hw hpc (by simp)) rfl rfl rfl
  | _ => exact hi.congr rfl rfl rfl rfl

theorem consumed_step {a : System.Action} (hs : s.step a = some s') :
    s.consumed <+: s'.consumed := by
  cases (System.step_move hs).2 with
  | dispatch pc s' hpc hm =>
    cases hm with
    | found fd evs f hf => exact List.prefix_append _ _
    | _ => exact List.prefix_rfl
  | add pc s' _ hm => cases hm <;> exact List.prefix_rfl
  | sweep pc s' _ hm => cases hm <;> exact List.prefix_rfl
  | thread w k wk pc s' hw hpc hm => cases hm <;> exact List.prefix_rfl
  | _ => exact List.prefix_rfl

/-- The events handed over, pending and in hand keep their places. -/
theorem consumed_prefix (h : Reaches step Fresh t t') :
    t.system.consumed <+: t'.system.consumed := by
  apply h.invariant (I := fun t' => t.system.consumed <+: t'.system.consumed) List.prefix_rfl
  intro t₁ a t₂ hi _ hs
  obtain ⟨s', hs', rfl⟩ := Option.map_eq_some_iff.mp hs
  exact hi.trans (consumed_step hs')

theorem inTurn_of_reaches (h : Reaches step Fresh (start count senders junk) t) :
    Waits t.system ∧ t.InTurn := by
  apply h.invariant (I := fun t => Waits t.system ∧ t.InTurn) ⟨waits_start, rfl⟩
  rintro t a t' ⟨hwaits, hi⟩ hok hs
  refine ⟨?_, hi.step hwaits hs⟩
  obtain ⟨s', hs', rfl⟩ := Option.map_eq_some_iff.mp hs
  exact hwaits.step hok hs'

/-- **First come, first served** in a run whose looks are all fresh: the events handed to
workers, pending and in hand are the events consumed, in their order, and an event with `i`
events before it in the queue is the next but `i` that a worker is given. -/
theorem first_come_first_served (h : Reaches step Fresh (start count senders junk) t)
    (h' : Reaches step Fresh t t') :
    t.system.consumed =
        t.handed ++ (t.system.pendingItems ++ t.system.dispatching.unassigned.toList) ∧
      ∀ i fd, t.system.pendingItems[i]? = some fd →
        t'.handed.length ≤ t.handed.length + i ∨
          t'.handed[t.handed.length + i]? = some fd := by
  have hbefore := (inTurn_of_reaches h).2
  have hafter := (inTurn_of_reaches (h.trans h')).2
  refine ⟨hbefore, fun i fd hi => ?_⟩
  have hplace : t.system.consumed[t.handed.length + i]? = some fd := by
    have hlt := (List.getElem?_eq_some_iff.mp hi).1
    rw [hbefore, List.getElem?_append_right (Nat.le_add_right _ _), Nat.add_sub_cancel_left,
      List.getElem?_append_left hlt]
    exact hi
  obtain ⟨later, hlater⟩ := consumed_prefix h'
  have hkept : t'.system.consumed[t.handed.length + i]? = some fd := by
    have hlt := (List.getElem?_eq_some_iff.mp hplace).1
    rw [← hlater, List.getElem?_append_left hlt]
    exact hplace
  rcases Nat.lt_or_ge (t.handed.length + i) t'.handed.length with hlt | hge
  · right
    rwa [hafter, List.getElem?_append_left hlt] at hkept
  · exact .inl hge

/-- Ten events are with ten workers, the eleventh waits, and the first worker takes it. -/
theorem first_come_first_served_one_pending :
    ∃ t t', Reaches step Fresh (start 5 (fun fd => if fd < 11 then some 1 else none)
        .zeroed) t ∧ Reaches step Fresh t t' ∧ t.system.pendingItems = [10] ∧
      t.system.consumed = t.handed ++ [10] ∧ t'.handed[10]? = some 10 := by
  obtain ⟨t, ht, hlen, hpending, hhand, hnext⟩ : ∃ t, Reaches step Fresh
      (start 5 (fun fd => if fd < 11 then some 1 else none) .zeroed) t ∧
      t.handed.length = 10 ∧ t.system.pendingItems = [10] ∧
      t.system.dispatching.unassigned = none ∧
      ((runChecked step Fresh t (List.replicate 6 (.thread 0 0))).any
        fun t' => decide (t'.handed.length = 11)) = true :=
    exists_reaches_of_runChecked System.onePending (by decide)
  obtain ⟨t', ht', hlen'⟩ := exists_reaches_of_runChecked _ hnext
  obtain ⟨horder, hplaces⟩ := first_come_first_served ht ht'
  refine ⟨t, t', ht, ht', hpending, ?_, ?_⟩
  · simpa [hpending, hhand] using horder
  · rcases hplaces 0 10 (by simp [hpending]) with hle | hnth
    · omega
    · simpa [hlen] using hnth

/-- A look has gone stale: event 10 waits in the queue while the event after it goes to a
worker of the free list. -/
theorem overtaking_reachable :
    ¬ ∀ t, Reaches step anyStep (start 5 (fun fd => if fd < 11 then some 1 else none)
      .zeroed) t → t.handed <+: t.system.consumed := by
  intro hstated
  obtain ⟨t, ht, hnot⟩ : ∃ t, Reaches step anyStep
      (start 5 (fun fd => if fd < 11 then some 1 else none) .zeroed) t ∧
      ¬ t.handed <+: t.system.consumed :=
    exists_reaches_of_runChecked
      (.addWorkers 5 :: List.replicate 21 .add ++
        .processData (List.range 11 ++ [0]) :: List.replicate 40 .dispatch ++
        List.replicate 5 (.thread 0 0) ++ List.replicate 4 .dispatch ++
        List.replicate 2 (.thread 0 0) ++ List.replicate 3 .dispatch) (by decide)
  exact hnot (hstated t ht)

end Served
end MddProxy
