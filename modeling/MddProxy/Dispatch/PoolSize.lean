import MddProxy.Dispatch.Pool

/-!
# The size of the pool

`WorkDispatcher` is constructed with a `maxWorkerThreads` that it does not keep:
`AddWorkers` adds what it is asked for, and `ProcessData` compares with
`MAX_WORKER_THREADS`. The bookkeeping itself is sound as long as `AddWorkers` and
`ProcessData` do not overlap, because `CreateNewWorker` numbers, enrols and counts a
worker in three steps.
-/
namespace MddProxy

def DispatchPc.checking : DispatchPc → Bool
  | .checkTotal _ _ => true
  | _ => false

def DispatchPc.uncounted : DispatchPc → ℕ
  | .countWorker _ _ _ => 1
  | _ => 0

def AddPc.uncounted : AddPc → ℕ
  | .countWorker _ _ => 1
  | _ => 0

/-- How much `totalWorkerCount` grows before `ProcessData` looks at it again. -/
def DispatchPc.reserved : DispatchPc → ℕ
  | .createNew _ _ | .pushWorker _ _ _ | .countWorker _ _ _ => 1
  | _ => 0

def AddPc.reserved : AddPc → ℕ
  | .idle => 0
  | .next k | .pushFree _ k => k
  | .pushWorker _ k | .countWorker _ k => k + 1

namespace System

open Interleaving

variable {s s' : System} {w k max : ℕ} {wk : Worker} {pc : RunPc}

/-- `WorkDispatcher(rcvrs, maxWorkerThreads)`: an empty pool and a call of
`AddWorkers(5)`. -/
def constructed (senders : Fd → Option ℕ) (junk : Junk)
    (_maxWorkerThreads : ℕ) : System :=
  { start 0 senders junk with adding := .next 5 }

def OneAtATime (s : System) : Action → Prop
  | .processData _ => s.adding = .idle
  | .addWorkers _ => s.dispatching = .idle
  | _ => True

instance (s : System) (a : Action) : Decidable (s.OneAtATime a) :=
  match a with
  | .processData _ => inferInstanceAs (Decidable (s.adding = .idle))
  | .addWorkers _ => inferInstanceAs (Decidable (s.dispatching = .idle))
  | .arrive .. | .dispatch | .add | .stop | .sweep | .thread .. | .sendFails .. => .isTrue trivial

/-- The guard: `AddWorkers` is not asked for more than the limit leaves, and where
`ProcessData` finds fewer than `MAX_WORKER_THREADS` workers there are fewer than the
limit. -/
def GrowsBelow (max : ℕ) (s : System) : Action → Prop
  | .processData _ => s.adding = .idle
  | .addWorkers count => s.dispatching = .idle ∧ s.totalWorkerCount + count ≤ max
  | .dispatch => s.dispatching.checking = true → s.totalWorkerCount < MAX_WORKER_THREADS →
      s.totalWorkerCount < max
  | _ => True

instance (max : ℕ) (s : System) (a : Action) : Decidable (s.GrowsBelow max a) :=
  match a with
  | .processData _ => inferInstanceAs (Decidable (s.adding = .idle))
  | .addWorkers count =>
    inferInstanceAs (Decidable (s.dispatching = .idle ∧ s.totalWorkerCount + count ≤ max))
  | .dispatch => inferInstanceAs (Decidable (s.dispatching.checking = true →
      s.totalWorkerCount < MAX_WORKER_THREADS → s.totalWorkerCount < max))
  | .arrive .. | .add | .stop | .sweep | .thread .. | .sendFails .. => .isTrue trivial

theorem GrowsBelow.oneAtATime {a : Action} (h : s.GrowsBelow max a) : s.OneAtATime a := by
  cases a with
  | processData evs => exact h
  | addWorkers count => exact h.1
  | _ => trivial

/-- The pool stays within its limit: its size is counted, its workers are numbered, and
there are at most `max` of them. The count is compared where no worker is between its
`push_back` and its `totalWorkerCount++`. -/
structure WithinLimit (max : ℕ) (s : System) : Prop where
  counted : s.dispatching.uncounted = 0 → s.adding.uncounted = 0 →
    s.totalWorkerCount = s.workers.length
  numbered : ∀ (i w : ℕ), s.workers[i]? = some w → ∃ wk ∈ s.heap[w]?, wk.mySlotId = i
  bounded : s.totalWorkerCount ≤ max

def SlotIds (heap : List Worker) : Prop :=
  ∀ (i : ℕ) (wk : Worker), heap[i]? = some wk → wk.mySlotId = i

/-- One creation at a time, in the order of the slot ids. -/
structure Numbered (s : System) : Prop where
  alone : s.dispatching = .idle ∨ s.adding = .idle
  total : s.totalWorkerCount + (s.dispatching.uncounted + s.adding.uncounted) = s.workers.length
  enrolled : s.enrolled = List.range s.heap.length
  slots : SlotIds s.heap

theorem numbered_constructed (senders : Fd → Option ℕ) (junk : Junk) :
    (constructed senders junk max).Numbered where
  alone := .inl rfl
  total := rfl
  enrolled := rfl
  slots := by simp [constructed, start, SlotIds]

theorem SlotIds.set {wk' : Worker} (hslots : SlotIds s.heap) (hw : s.heap[w]? = some wk)
    (hid : wk'.mySlotId = wk.mySlotId) : SlotIds (s.heap.set w wk') := by
  intro i wki hi
  rcases getElem?_set_cases hi with ⟨rfl, rfl⟩ | ⟨-, hi⟩
  · exact hid.trans (hslots i wk hw)
  · exact hslots i wki hi

theorem Numbered.congr (hn : s.Numbered) (hlen : s'.heap.length = s.heap.length)
    (hslots : SlotIds s'.heap) (htotal : s'.totalWorkerCount = s.totalWorkerCount)
    (hworkers : s'.workers = s.workers)
    (hdisp : s'.dispatching.uncounted = s.dispatching.uncounted ∧
      s'.dispatching.unenrolled = s.dispatching.unenrolled)
    (hadd : s'.adding.uncounted = s.adding.uncounted ∧
      s'.adding.unenrolled = s.adding.unenrolled)
    (halone : s'.dispatching = .idle ∨ s'.adding = .idle) : s'.Numbered where
  alone := halone
  total := by rw [htotal, hworkers, hdisp.1, hadd.1]; exact hn.total
  enrolled := by
    rw [hlen]
    unfold System.enrolled
    rw [hworkers, hdisp.2, hadd.2]
    exact hn.enrolled
  slots := hslots

theorem Numbered.run (hn : s.Numbered) (hw : s.heap[w]? = some wk)
    (hm : RunMove s w wk k pc s') : s'.Numbered := by
  cases hm with
  | unset | popEmpty => exact { hn with }
  | _ =>
    exact hn.congr (by simp) (hn.slots.set hw rfl) rfl rfl ⟨rfl, rfl⟩ ⟨rfl, rfl⟩ hn.alone

theorem Numbered.slots_newWorker (hn : s.Numbered) (hlen : s.totalWorkerCount = s.heap.length) :
    SlotIds s.newWorker.heap := by
  intro i wk hi
  rw [heap_newWorker] at hi
  rcases Nat.lt_or_ge i s.heap.length with hlt | hge
  · rw [List.getElem?_append_left hlt] at hi
    exact hn.slots i wk hi
  · have hlt := (List.getElem?_eq_some_iff.mp hi).1
    rw [List.length_append, List.length_singleton] at hlt
    obtain rfl : i = s.heap.length := by omega
    rw [List.getElem?_concat_length] at hi
    obtain rfl := Option.some.inj hi
    exact hlen

theorem Numbered.total_eq (hn : s.Numbered) (hd : s.dispatching.uncounted = 0)
    (ha : s.adding.uncounted = 0) (hd' : s.dispatching.unenrolled = none)
    (ha' : s.adding.unenrolled = none) :
    s.totalWorkerCount = s.heap.length ∧ s.workers = List.range s.heap.length := by
  have htotal := hn.total
  have henrolled := hn.enrolled
  simp only [hd, ha, System.enrolled, hd', ha', Option.toList_none, List.append_nil]
    at htotal henrolled
  have hlen := congrArg List.length henrolled
  rw [List.length_range] at hlen
  exact ⟨by omega, henrolled⟩

theorem Numbered.dispatch (hn : s.Numbered) (hm : DispatchMove s s.dispatching s') :
    s'.Numbered := by
  have halone := hn.alone
  have htotal := hn.total
  have henrolled := hn.enrolled
  unfold System.enrolled at henrolled
  generalize hpc : s.dispatching = pc at hm halone htotal henrolled
  cases hm with
  | notFound => exact { hn with }
  | assignFree w fd evs wk hw | resumeFree w fd evs wk hw | assignNew w fd evs wk hw
  | resumeNew w fd evs wk hw | createAgain w fd evs wk hw =>
    refine hn.congr (by simp) (hn.slots.set hw rfl) rfl rfl ?_ ⟨rfl, rfl⟩
      (.inr (halone.resolve_left (by simp)))
    simp [hpc, DispatchPc.uncounted, DispatchPc.unenrolled]
  | createNew fd evs =>
    have hidle : s.adding = .idle := halone.resolve_left (by simp)
    obtain ⟨hlen, hworkers⟩ := hn.total_eq (by rw [hpc]; rfl) (by rw [hidle]; rfl)
      (by rw [hpc]; rfl) (by rw [hidle]; rfl)
    refine ⟨.inr hidle, ?_, ?_, hn.slots_newWorker hlen⟩
    · simp [hidle, hworkers, hlen, DispatchPc.uncounted, AddPc.uncounted]
    · simp [System.enrolled, hidle, hworkers, DispatchPc.unenrolled, AddPc.unenrolled,
        List.range_succ]
  | pushWorker w fd evs =>
    have hidle : s.adding = .idle := halone.resolve_left (by simp)
    refine ⟨.inr hidle, ?_, ?_, hn.slots⟩
    · simp only [hidle, DispatchPc.uncounted, AddPc.uncounted, List.length_append,
        List.length_singleton] at htotal ⊢
      omega
    · simpa [System.enrolled, hidle, DispatchPc.unenrolled, AddPc.unenrolled] using henrolled
  | countWorker w fd evs =>
    have hidle : s.adding = .idle := halone.resolve_left (by simp)
    refine ⟨.inr hidle, ?_, ?_, hn.slots⟩
    · simp only [hidle, DispatchPc.uncounted, AddPc.uncounted] at htotal ⊢
      omega
    · simpa [System.enrolled, hidle, DispatchPc.unenrolled, AddPc.unenrolled] using henrolled
  | _ =>
    refine hn.congr rfl hn.slots rfl rfl ?_ ⟨rfl, rfl⟩ (.inr (halone.resolve_left (by simp)))
    simp [hpc, DispatchPc.uncounted, DispatchPc.unenrolled]

theorem Numbered.add (hn : s.Numbered) (hm : AddMove s s.adding s') : s'.Numbered := by
  have halone := hn.alone
  have htotal := hn.total
  have henrolled := hn.enrolled
  unfold System.enrolled at henrolled
  generalize hpc : s.adding = pc at hm halone htotal henrolled
  cases hm with
  | finish =>
    exact hn.congr rfl hn.slots rfl rfl ⟨rfl, rfl⟩
      (by simp [hpc, AddPc.uncounted, AddPc.unenrolled]) (.inr rfl)
  | createNew k =>
    have hidle : s.dispatching = .idle := halone.resolve_right (by simp)
    obtain ⟨hlen, hworkers⟩ := hn.total_eq (by rw [hidle]; rfl) (by rw [hpc]; rfl)
      (by rw [hidle]; rfl) (by rw [hpc]; rfl)
    refine ⟨.inl hidle, ?_, ?_, hn.slots_newWorker hlen⟩
    · simp [hidle, hworkers, hlen, DispatchPc.uncounted, AddPc.uncounted]
    · simp [System.enrolled, hidle, hworkers, DispatchPc.unenrolled, AddPc.unenrolled,
        List.range_succ]
  | pushWorker w k =>
    have hidle : s.dispatching = .idle := halone.resolve_right (by simp)
    refine ⟨.inl hidle, ?_, ?_, hn.slots⟩
    · simp only [hidle, DispatchPc.uncounted, AddPc.uncounted, List.length_append,
        List.length_singleton] at htotal ⊢
      omega
    · simpa [System.enrolled, hidle, DispatchPc.unenrolled, AddPc.unenrolled] using henrolled
  | countWorker w k =>
    have hidle : s.dispatching = .idle := halone.resolve_right (by simp)
    refine ⟨.inl hidle, ?_, ?_, hn.slots⟩
    · simp only [hidle, DispatchPc.uncounted, AddPc.uncounted] at htotal ⊢
      omega
    · simpa [System.enrolled, hidle, DispatchPc.unenrolled, AddPc.unenrolled] using henrolled
  | pushFree w k =>
    have hidle : s.dispatching = .idle := halone.resolve_right (by simp)
    exact hn.congr rfl hn.slots rfl rfl ⟨rfl, rfl⟩
      (by simp [hpc, AddPc.uncounted, AddPc.unenrolled]) (.inl hidle)

theorem Numbered.step {a : Action} (hn : s.Numbered) (hok : s.OneAtATime a)
    (hs : s.step a = some s') : s'.Numbered := by
  cases (step_move hs).2 with
  | processData evs hidle =>
    refine hn.congr rfl hn.slots rfl rfl ?_ ⟨rfl, rfl⟩ (.inr hok)
    simp [hidle, DispatchPc.uncounted, DispatchPc.unenrolled]
  | dispatch pc s' hpc hm => exact hn.dispatch (hpc ▸ hm)
  | addWorkers count hidle =>
    refine hn.congr rfl hn.slots rfl rfl ⟨rfl, rfl⟩ ?_ (.inl hok)
    simp [hidle, AddPc.uncounted, AddPc.unenrolled]
  | add pc s' hpc hm => exact hn.add (hpc ▸ hm)
  | sweep pc s' _ hm =>
    cases hm with
    | finishAndDie i n w wk _ _ hw =>
      exact hn.congr (by simp) (hn.slots.set hw rfl) rfl rfl ⟨rfl, rfl⟩ ⟨rfl, rfl⟩ hn.alone
    | finish => exact { hn with }
  | thread w k wk pc s' hw _ hm => exact hn.run hw hm
  | _ => exact { hn with }

/-- What the calls in progress are still going to add stays within the limit. -/
def Reserved (max : ℕ) (s : System) : Prop :=
  s.totalWorkerCount + (s.dispatching.reserved + s.adding.reserved) ≤ max

theorem Reserved.congr (hr : s.Reserved max) (htotal : s'.totalWorkerCount = s.totalWorkerCount)
    (hdisp : s'.dispatching = s.dispatching) (hadd : s'.adding = s.adding) : s'.Reserved max := by
  unfold Reserved at *
  rw [htotal, hdisp, hadd]
  exact hr

theorem Reserved.dispatch (hr : s.Reserved max) (hn : s.Numbered)
    (hok : s.dispatching.checking = true → s.totalWorkerCount < MAX_WORKER_THREADS →
      s.totalWorkerCount < max)
    (hm : DispatchMove s s.dispatching s') : s'.Reserved max := by
  have halone := hn.alone
  unfold Reserved at *
  generalize hpc : s.dispatching = pc at hm halone hr hok
  cases hm with
  | belowMax fd evs hlt =>
    have hidle : s.adding = .idle := halone.resolve_left (by simp)
    have := hok rfl hlt
    simp only [hidle, DispatchPc.reserved, AddPc.reserved]
    omega
  | countWorker =>
    simp only [DispatchPc.reserved] at hr ⊢
    omega
  | _ => simpa [hpc, DispatchPc.reserved] using hr

theorem Reserved.add (hr : s.Reserved max) (hm : AddMove s s.adding s') : s'.Reserved max := by
  unfold Reserved at *
  generalize hpc : s.adding = pc at hm hr
  cases hm with
  | countWorker w k =>
    simp only [AddPc.reserved] at hr ⊢
    omega
  | _ => simpa [AddPc.reserved] using hr

theorem Reserved.step {a : Action} (hr : s.Reserved max) (hn : s.Numbered)
    (hok : s.GrowsBelow max a) (hs : s.step a = some s') : s'.Reserved max := by
  cases (step_move hs).2 with
  | processData evs hidle =>
    unfold Reserved at *
    simpa [hidle, DispatchPc.reserved] using hr
  | dispatch pc s' hpc hm => exact hr.dispatch hn hok (hpc ▸ hm)
  | addWorkers count hidle =>
    obtain ⟨hdisp, hle⟩ := hok
    simpa [Reserved, hdisp, DispatchPc.reserved, AddPc.reserved] using hle
  | add pc s' hpc hm => exact hr.add (hpc ▸ hm)
  | sweep pc s' _ hm => cases hm <;> exact hr.congr rfl rfl rfl
  | thread w k wk pc s' _ _ hm => cases hm <;> exact hr.congr rfl rfl rfl
  | _ => exact hr.congr rfl rfl rfl

variable {senders : Fd → Option ℕ} {junk : Junk}

/-- The bookkeeping needs no limit: where `AddWorkers` and `ProcessData` do not overlap the
pool is counted and numbered. -/
theorem pool_numbered (h : Reaches step OneAtATime (constructed senders junk max) s) :
    s.Numbered :=
  h.invariant (numbered_constructed senders junk) fun _ _ _ hn hok hs => hn.step hok hs

theorem Numbered.getElem?_workers (hn : s.Numbered) {i : ℕ} (hw : s.workers[i]? = some w) :
    ∃ wk ∈ s.heap[w]?, wk.mySlotId = i := by
  have hget : s.enrolled[i]? = some w :=
    List.getElem?_append_left (List.getElem?_eq_some_iff.mp hw).1 ▸ hw
  rw [hn.enrolled, List.getElem?_eq_some_iff] at hget
  obtain ⟨hlt, heq⟩ := hget
  rw [List.length_range] at hlt
  rw [List.getElem_range] at heq
  subst heq
  have hwk : s.heap[i]? = some s.heap[i] := List.getElem?_eq_getElem hlt
  exact ⟨_, hwk, hn.slots i _ hwk⟩

/-- **The pool stays within its limit** in a run in which every growth does, when the
limit admits the five workers of the constructor. -/
theorem pool_within_limit (hmax : 5 ≤ max)
    (h : Reaches step (GrowsBelow max) (constructed senders junk max) s) : s.WithinLimit max := by
  have hn : s.Numbered := pool_numbered (h.mono fun _ _ hok => hok.oneAtATime)
  have hboth : s.Numbered ∧ s.Reserved max :=
    h.invariant (I := fun s => s.Numbered ∧ s.Reserved max)
      ⟨numbered_constructed senders junk, hmax⟩
      fun _ _ _ hi hok hs => ⟨hi.1.step hok.oneAtATime hs, hi.2.step hi.1 hok hs⟩
  refine ⟨fun hd ha => ?_, fun i w hw => hn.getElem?_workers hw, ?_⟩
  · have := hn.total
    omega
  · have := hboth.2
    unfold Reserved at this
    omega

def tenAtMost : System :=
  constructed (fun fd => if fd < 11 then some 1 else none) .zeroed MAX_WORKER_THREADS

theorem pool_within_limit_ten_workers :
    ∃ s, Reaches step (GrowsBelow 10) tenAtMost s ∧ s.workers.length = 10 ∧ s.WithinLimit 10 := by
  obtain ⟨s, hs, hlen⟩ : ∃ s, Reaches step (GrowsBelow 10) tenAtMost s ∧
      s.workers.length = 10 :=
    exists_reaches_of_runChecked
      (List.replicate 21 .add ++ .addWorkers 4 :: List.replicate 17 .add ++
        .processData (List.range 11) :: List.replicate 51 .dispatch) (by decide)
  exact ⟨s, hs, hlen, pool_within_limit (by decide) hs⟩

/-- One management command for six more workers. -/
theorem pool_of_eleven_reachable :
    ¬ ∀ s, Reaches step OneAtATime tenAtMost s → s.WithinLimit MAX_WORKER_THREADS := by
  intro hstated
  obtain ⟨s, hs, hgt⟩ : ∃ s, Reaches step OneAtATime tenAtMost s ∧
      MAX_WORKER_THREADS < s.totalWorkerCount :=
    exists_reaches_of_runChecked
      (List.replicate 21 .add ++ .addWorkers 6 :: List.replicate 25 .add) (by decide)
  have := (hstated s hs).bounded
  omega

theorem reaches_added {count : ℕ} (hf : s.fault = none) (ha : s.adding = .next count) :
    ∃ t, Reaches step OneAtATime s t ∧ t.totalWorkerCount = s.totalWorkerCount + count := by
  induction count generalizing s with
  | zero => exact ⟨s, .refl, rfl⟩
  | succ count ih =>
    -- one iteration: create, enrol, count, push to the free list
    have hrun : runChecked step OneAtATime s (List.replicate 4 .add) = some
        { s.newWorker with
          workers := s.workers ++ [s.heap.length]
          totalWorkerCount := s.totalWorkerCount + 1
          freeWorkers := s.freeWorkers ++ [s.heap.length]
          adding := .next count } := by
      simp [runChecked, OneAtATime, step, addStep, ha, hf]
    obtain ⟨t, hreach, ht⟩ := ih (s := { s.newWorker with
      workers := s.workers ++ [s.heap.length]
      totalWorkerCount := s.totalWorkerCount + 1
      freeWorkers := s.freeWorkers ++ [s.heap.length]
      adding := .next count }) hf rfl
    exact ⟨t, (Reaches.of_runChecked hrun).trans hreach, ht.trans (by simp only; omega)⟩

/-- A limit below five is exceeded by the constructor. -/
theorem constructor_exceeds (hmax : max < 5) :
    ∃ t, Reaches step OneAtATime (constructed senders junk max) t ∧ max < t.totalWorkerCount := by
  obtain ⟨t, hreach, ht⟩ := reaches_added (s := constructed senders junk max) rfl rfl
  have hzero : (constructed senders junk max).totalWorkerCount = 0 := rfl
  exact ⟨t, hreach, by omega⟩

/-- A call of `AddWorkers`, or a look of `ProcessData`, that the guard rejects is followed
by more workers than the limit. -/
theorem limit_exceeded {a : Action} (hok : s.OneAtATime a) (hbad : ¬ s.GrowsBelow max a)
    (hs : s.step a = some s') :
    ∃ t, Reaches step OneAtATime s' t ∧ max < t.totalWorkerCount := by
  obtain ⟨hf, hm⟩ := step_move hs
  cases hm with
  | addWorkers count hidle =>
    have hgt : max < s.totalWorkerCount + count := by
      by_contra hle
      exact hbad ⟨hok, by omega⟩
    obtain ⟨t, hreach, ht⟩ := reaches_added (s := { s with adding := .next count }) hf rfl
    exact ⟨t, hreach, by simp only at ht; omega⟩
  | dispatch pc s' hpc hm =>
    subst hpc
    have hlook : s.dispatching.checking = true ∧ s.totalWorkerCount < MAX_WORKER_THREADS ∧
        max ≤ s.totalWorkerCount := by
      by_contra hne
      exact hbad fun hc hlt => by
        by_contra hge
        exact hne ⟨hc, hlt, by omega⟩
    obtain ⟨hc, hlt, hge⟩ := hlook
    generalize hpc : s.dispatching = pc at hm hc
    cases hm with
    | belowMax fd evs _ =>
      have hrun : runChecked step OneAtATime { s with dispatching := .createNew fd evs }
          (List.replicate 3 .dispatch) = some
          { s.newWorker with
            workers := s.workers ++ [s.heap.length]
            totalWorkerCount := s.totalWorkerCount + 1
            dispatching := .assignNew s.heap.length fd evs } := by
        simp [runChecked, OneAtATime, step, dispatchStep, hf]
      exact ⟨_, .of_runChecked hrun, by simp only; omega⟩
    | atMax fd evs hle => omega
    | _ => simp [DispatchPc.checking] at hc
  | processData evs _ => exact absurd hok hbad
  | _ => exact absurd trivial hbad

end System
end MddProxy
