import MddProxy.Dispatch.Announcing

/-!
# The work that is left

Between two inputs every step uses something up: an event of the batch, a pending event, a
datagram in a queue or a part of a worker's way back to sleep. With a pool that has stopped
growing, the work that is left is a number, and each step lowers it.
-/
namespace MddProxy

open Interleaving

/-- How many steps a thread still has before it can only wait, not counting the datagrams that
it will read. -/
def RunPc.effort (senders : Fd → ℕ) (st : WorkerState) : RunPc → ℕ
  | .loop => if st = .resume then 7 else 1
  | .paused => if st = .resume then 8 else 0
  | .receiving => 6
  | .recvfrom _ _ => 5
  | .sending fd _ i => 6 + (senders fd - i)
  | .countPending => 4
  | .setResume | .setSleep => 3
  | .pop | .returnFree => 2
  | .store _ => 8
  | .exited => 0

def Worker.effort (senders : Fd → ℕ) (wk : Worker) : ℕ :=
  weigh (RunPc.effort senders wk.state) wk.threads

/-- `ProcessData` is between its decision to create a worker and the end of that branch. -/
def DispatchPc.growing : DispatchPc → Bool
  | .createNew _ _ | .pushWorker _ _ _ | .countWorker _ _ _ | .assignNew _ _ _ => true
  | .resumeNew _ _ _ | .recordBusy _ _ _ | .createAgain _ _ _ => true
  | .idle | .next _ | .getFree _ _ | .assignFree _ _ _ | .resumeFree _ _ _ => false
  | .checkTotal _ _ | .push _ _ => false

/-- The steps of `ProcessData`, with those of the workers that it resumes. -/
def DispatchPc.effort : DispatchPc → ℕ
  | .idle => 0
  | .next evs => 1 + 12 * evs.length
  | .getFree _ evs => 12 + 12 * evs.length
  | .assignFree _ _ evs | .checkTotal _ evs => 11 + 12 * evs.length
  | .resumeFree _ _ evs | .push _ evs => 10 + 12 * evs.length
  | .createNew _ evs | .pushWorker _ _ evs | .countWorker _ _ evs => 10 + 12 * evs.length
  | .assignNew _ _ evs | .resumeNew _ _ evs | .recordBusy _ _ evs => 10 + 12 * evs.length
  | .createAgain _ _ evs => 10 + 12 * evs.length

def AddPc.effort : AddPc → ℕ
  | .idle => 0
  | .next k => 1 + 5 * k
  | .pushWorker _ k => 4 + 5 * k
  | .countWorker _ k => 3 + 5 * k
  | .pushFree _ k => 2 + 5 * k

namespace System

variable {s s' : System} {w k : ℕ} {wk wk' : Worker} {pc : RunPc} {fd : Fd} {f f' : Feed}
  {fds : Finset Fd} {senders : Fd → ℕ} {r : Fd → Option Feed}

/-- The datagrams that wait on the receivers of `fds`, each with its fan-out. -/
def backlog (fds : Finset Fd) (senders : Fd → ℕ) (r : Fd → Option Feed) : ℕ :=
  ∑ fd ∈ fds, (senders fd + 2) * (r fd).elim 0 fun f => f.waiting.length

def effort (fds : Finset Fd) (senders : Fd → ℕ) (s : System) : ℕ :=
  s.dispatching.effort + s.adding.effort + 7 * s.pendingItems.length +
    weigh (Worker.effort senders) s.heap + backlog fds senders s.receivers +
    s.fault.isNone.toNat

/-- The registered receivers are those of `fds`, with sender lists as given. -/
def Sized (fds : Finset Fd) (senders : Fd → ℕ) (s : System) : Prop :=
  ∀ fd f, s.receivers fd = some f → fd ∈ fds ∧ f.transmitted.length = senders fd

/-- The pool has its full size, and `ProcessData` is not adding to it. -/
structure Full (s : System) : Prop where
  total : MAX_WORKER_THREADS ≤ s.totalWorkerCount
  steady : s.dispatching.growing = false

instance (s : System) : Decidable s.Full :=
  decidable_of_iff (MAX_WORKER_THREADS ≤ s.totalWorkerCount ∧ s.dispatching.growing = false)
    ⟨fun h => ⟨h.1, h.2⟩, fun h => ⟨h.1, h.2⟩⟩

def Internal : Action → Prop
  | .dispatch | .add | .thread _ _ => True
  | _ => False

theorem backlog_update (hfd : fd ∈ fds) (hf : r fd = some f) :
    backlog fds senders (Function.update r fd (some f')) + (senders fd + 2) * f.waiting.length =
      backlog fds senders r + (senders fd + 2) * f'.waiting.length := by
  have hsum := sum_update
    (fun fd r => (senders fd + 2) * r.elim 0 fun f : Feed => f.waiting.length) r hfd (some f')
  rwa [hf] at hsum

theorem Worker.effort_single (h : wk.threads = [pc]) :
    wk.effort senders = pc.effort senders wk.state := by
  simp [Worker.effort, h]

theorem effort_put (hw : s.heap[w]? = some wk) (hheap : s'.heap = s.heap.set w wk')
    (hdisp : s'.dispatching = s.dispatching) (hadd : s'.adding = s.adding)
    (hrecv : s'.receivers = s.receivers) (hfault : s'.fault = s.fault)
    (hlt : 7 * s'.pendingItems.length + wk'.effort senders <
      7 * s.pendingItems.length + wk.effort senders) :
    s'.effort fds senders < s.effort fds senders := by
  have hset := weigh_set (Worker.effort senders) wk' hw
  unfold effort
  rw [hheap, hdisp, hadd, hrecv, hfault]
  omega

theorem length_waiting_dequeue {d : Datagram} (hd : f.arrived[f.taken]? = some d) :
    (f.dequeue d).waiting.length + 1 = f.waiting.length := by
  have hlen := (List.getElem?_eq_some_iff.mp hd).1
  simp only [Feed.waiting, Feed.dequeue, List.length_drop]
  omega

theorem effort_feed (hw : s.heap[w]? = some wk) (hfd : fd ∈ fds)
    (hf : s.receivers fd = some f)
    (hlt : wk'.effort senders + (senders fd + 2) * f'.waiting.length <
      wk.effort senders + (senders fd + 2) * f.waiting.length) :
    effort fds senders { s.put w wk' with
      receivers := Function.update s.receivers fd (some f') } < s.effort fds senders := by
  have hset := weigh_set (Worker.effort senders) wk' hw
  have hfeed : backlog fds senders (Function.update s.receivers fd (some f')) +
      (senders fd + 2) * f.waiting.length =
    backlog fds senders s.receivers + (senders fd + 2) * f'.waiting.length :=
    backlog_update hfd hf
  simp only [effort, dispatching_put, adding_put, pendingItems_put, heap_put, fault_put]
  omega

theorem effort_run (ho : s.Owned) (hsized : s.Sized fds senders) (hfault : s.fault = none)
    (hw : s.heap[w]? = some wk) (hpc : wk.threads[k]? = some pc)
    (hm : RunMove s w wk k pc s') : s'.effort fds senders < s.effort fds senders := by
  obtain ⟨rfl, hone, hagree⟩ := (ho.tended wk (List.mem_of_getElem? hw)).single hpc
  have hold : wk.effort senders = pc.effort senders wk.state := Worker.effort_single hone
  have hstored : ∀ (wk' : Worker) (pc' : RunPc), wk'.threads = wk.threads.set 0 pc' →
      wk'.effort senders = pc'.effort senders wk'.state := fun wk' pc' hset =>
    Worker.effort_single (by rw [hset, hone, List.set_cons_zero])
  have hnew : ∀ pc', (wk.jump 0 pc').effort senders = pc'.effort senders wk.state := fun pc' =>
    hstored _ pc' rfl
  have hput : ∀ wk' : Worker, wk'.effort senders < wk.effort senders →
      (s.put w wk').effort fds senders < s.effort fds senders := fun wk' hlt =>
    effort_put hw rfl rfl rfl rfl rfl (Nat.add_lt_add_left hlt _)
  cases hm with
  | unset | popEmpty => simp [effort, hfault]
  | seeResume hst => exact hput _ (by rw [hnew, hold]; simp [RunPc.effort, hst])
  | seeSleep hst =>
    have hne : wk.state ≠ .resume := by
      intro h
      simp [h, WorkerState.sleeping] at hst
    exact hput _ (by rw [hnew, hold]; simp [RunPc.effort, hne])
  | seeTerminate hst => exact hput _ (by rw [hnew, hold]; simp [RunPc.effort, hst])
  | wake hst =>
    have hres : wk.state = .resume := by
      have hor : wk.state = .resume ∨ wk.state = .sleepWait := by simpa [RunPc.agrees] using hagree
      rcases hor with h | h
      · exact h
      · simp [h, WorkerState.sleeping] at hst
    exact hput _ (by rw [hnew, hold]; simp [RunPc.effort, hres])
  | invalid fd len f f' hf hrecv =>
    obtain ⟨hfd, -⟩ := hsized fd f hf
    obtain ⟨-, d, hd, rfl⟩ := Feed.recvfrom_invalid hrecv
    apply effort_feed hw hfd hf
    rw [hnew, hold, ← length_waiting_dequeue hd, Nat.mul_add]
    simp only [RunPc.effort]
    omega
  | emptyDatagram fd len f f' hf hrecv | received fd len f f' count hf hrecv =>
    obtain ⟨hfd, -⟩ := hsized fd f hf
    obtain ⟨d, hd, -, rfl⟩ := Feed.recvfrom_ok hrecv
    apply effort_feed hw hfd hf
    rw [hnew, hold, ← length_waiting_dequeue hd, Nat.mul_add]
    simp only [RunPc.effort]
    omega
  | send fd f count i hf hi =>
    obtain ⟨hfd, hlen⟩ := hsized fd f hf
    apply effort_feed hw hfd hf
    rw [hnew, hold]
    simp only [RunPc.effort, Feed.sendData, Feed.waiting]
    omega
  | pop fd rest hp =>
    refine effort_put hw rfl rfl rfl rfl rfl ?_
    rw [hnew, hold, hp, List.length_cons]
    simp only [RunPc.effort]
    omega
  | store fd =>
    apply hput
    rw [hstored _ .loop rfl, hold]
    simp only [RunPc.effort]
    split <;> omega
  | setResume =>
    apply hput
    rw [hstored _ .pop rfl, hold]
    simp [RunPc.effort]
  | setSleep =>
    apply hput
    rw [hstored _ .returnFree rfl, hold]
    simp [RunPc.effort]
  | sentAll fd f count i hf hi =>
    apply hput
    rw [hnew, hold]
    simp only [RunPc.effort]
    omega
  | returnFree =>
    have hst : wk.state = .sleepWait := by simpa [RunPc.agrees] using hagree
    refine effort_put hw rfl rfl rfl rfl rfl ?_
    rw [hnew, hold]
    simp [RunPc.effort, hst]
  | _ => exact hput _ (by rw [hnew, hold]; simp [RunPc.effort])

theorem effort_dispatch (ho : s.Owned) (hfull : s.Full) (hfault : s.fault = none)
    (hm : DispatchMove s s.dispatching s') : s'.effort fds senders < s.effort fds senders := by
  have hsteady := hfull.steady
  have hparked : ∀ i, s.dispatching.worker = some i → ∃ wk ∈ s.heap[i]?, wk.Parked :=
    fun i hi => ho.parked i (by simp [idlers, hi])
  generalize hpc : s.dispatching = pc at hm hsteady hparked
  cases hm with
  | notFound => simp [effort, hfault]
  | assignFree v fd evs wk hv =>
    have hset := weigh_set (Worker.effort senders) (wk.setSocket fd) hv
    have hsame : (wk.setSocket fd).effort senders = wk.effort senders := rfl
    simp only [effort, hpc, DispatchPc.effort, adding_put, pendingItems_put, heap_put,
      receivers_put, fault_put]
    omega
  | resumeFree v fd evs wk hv =>
    have hset := weigh_set (Worker.effort senders) (wk.setState .resume) hv
    obtain ⟨wk₀, hv₀, -, hrest⟩ := hparked v rfl
    obtain rfl : wk = wk₀ := Option.some.inj (hv.symm.trans hv₀)
    obtain ⟨pc, hone, -⟩ := ho.tended wk (List.mem_of_getElem? hv)
    have hres := hrest pc (by simp [hone])
    have hafter : (wk.setState .resume).effort senders ≤ 8 := by
      have hone' : (wk.setState .resume).threads = [pc] := hone
      rw [Worker.effort_single hone']
      cases pc <;> simp [RunPc.resting, RunPc.effort] at hres ⊢
    simp only [effort, hpc, DispatchPc.effort, adding_put, pendingItems_put, heap_put,
      receivers_put, fault_put]
    omega
  | belowMax fd evs hlt => exact absurd hfull.total (Nat.not_le_of_lt hlt)
  | createNew | pushWorker | countWorker | assignNew | resumeNew | recordBusy | createAgain =>
    cases hsteady
  | _ =>
    simp only [effort, hpc, DispatchPc.effort, List.length_cons, List.length_append,
      List.length_nil]
    omega

theorem effort_add (hm : AddMove s s.adding s') :
    s'.effort fds senders < s.effort fds senders := by
  generalize hpc : s.adding = pc at hm
  cases hm with
  | createNew k =>
    simp only [effort, hpc, AddPc.effort, dispatching_newWorker, pendingItems_newWorker,
      heap_newWorker, receivers_newWorker, fault_newWorker, weigh_append, weigh_cons, weigh_nil,
      Worker.effort, Worker.created_threads, Worker.created_state, RunPc.effort]
    simp only [reduceCtorEq, if_false]
    omega
  | _ =>
    simp only [effort, hpc, AddPc.effort]
    omega

theorem effort_step {a : Action} (ho : s.Owned) (hfull : s.Full) (hsized : s.Sized fds senders)
    (ha : Internal a) (hs : s.step a = some s') :
    s'.effort fds senders < s.effort fds senders := by
  obtain ⟨hfault, hm⟩ := step_move hs
  cases hm with
  | dispatch pc s' hpc hm => exact effort_dispatch ho hfull hfault (hpc ▸ hm)
  | add pc s' hpc hm => exact effort_add (hpc ▸ hm)
  | thread w k wk pc s' hw hpc hm => exact effort_run ho hsized hfault hw hpc hm
  | _ => exact ha.elim

theorem Sized.step {a : Action} (hi : s.Sized fds senders) (hs : s.step a = some s') :
    s'.Sized fds senders := by
  intro fd f' hf'
  by_cases ha : ∃ fd d, a = .arrive fd d
  · obtain ⟨fd₀, d, rfl⟩ := ha
    obtain ⟨f₀, hf₀, rfl⟩ := arrive_eq hs
    by_cases hfd : fd = fd₀
    · subst hfd
      obtain rfl : f₀.arrive d = f' := by simpa using hf'
      exact hi fd f₀ hf₀
    · have hf : s.receivers fd = some f' := by simpa [Function.update_of_ne hfd] using hf'
      exact hi fd f' hf
  · obtain ⟨f, hf, -, -, hlen⟩ := feed_step hs (fun fd d h => ha ⟨fd, d, h⟩) hf'
    rw [hlen]
    exact hi fd f hf

theorem Full.dispatch (hfull : s.Full) (hm : DispatchMove s s.dispatching s') : s'.Full := by
  obtain ⟨htotal, hsteady⟩ := hfull
  generalize hpc : s.dispatching = pc at hm hsteady
  cases hm with
  | notFound => exact ⟨htotal, by rw [hpc]; rfl⟩
  | belowMax fd evs hlt => exact absurd htotal (Nat.not_le_of_lt hlt)
  | createNew | pushWorker | countWorker | assignNew | resumeNew | recordBusy | createAgain =>
    cases hsteady
  | _ => exact ⟨htotal, rfl⟩

theorem Full.step {a : Action} (hfull : s.Full) (hs : s.step a = some s') : s'.Full := by
  cases (step_move hs).2 with
  | processData evs => exact ⟨hfull.total, rfl⟩
  | dispatch pc s' hpc hm => exact hfull.dispatch (hpc ▸ hm)
  | add pc s' _ hm =>
    cases hm with
    | countWorker w k => exact ⟨Nat.le_succ_of_le hfull.total, hfull.steady⟩
    | _ => exact ⟨hfull.total, hfull.steady⟩
  | sweep pc s' _ hm => cases hm <;> exact ⟨hfull.total, hfull.steady⟩
  | thread w k wk pc s' _ _ hm => cases hm <;> exact ⟨hfull.total, hfull.steady⟩
  | _ => exact ⟨hfull.total, hfull.steady⟩

theorem Full.createsOnce {a : Action} (hfull : s.Full) (ha : Internal a) : s.CreatesOnce a := by
  cases a with
  | dispatch =>
    have hsteady := hfull.steady
    show s.dispatching.creatingAgain = false
    cases hpc : s.dispatching <;> simp [hpc, DispatchPc.growing, DispatchPc.creatingAgain]
      at hsteady ⊢
  | stop => exact ha.elim
  | _ => trivial

end System
end MddProxy
