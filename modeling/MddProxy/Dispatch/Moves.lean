import MddProxy.Dispatch.Machine
import MddProxy.Interleaving.Slots

/-!
# What one step can do

`step` is inverted once. `RunMove`, `DispatchMove`, `AddMove`, `SweepMove` and
`Move` list every transition with its guard and its successor, and the invariants
of later modules are case analyses on them.
-/
namespace MddProxy
namespace System

/-- The moves of thread `k`, at the given point, of worker `w`, which is `wk`. -/
inductive RunMove (s : System) (w : ℕ) (wk : Worker) (k : ℕ) : RunPc → System → Prop
  | seeResume : wk.state = .resume → RunMove s w wk k .loop (s.put w (wk.jump k .receiving))
  | seeSleep : wk.state.sleeping = true → RunMove s w wk k .loop (s.put w (wk.jump k .paused))
  | seeTerminate : wk.state = .terminate →
      RunMove s w wk k .loop (s.put w (wk.jump k .exited))
  | wake : wk.state.sleeping = false → RunMove s w wk k .paused (s.put w (wk.jump k .loop))
  | unset : wk.receiverSocket = none →
      RunMove s w wk k .receiving { s with fault := some .unsetSocket }
  | call (fd : Fd) : wk.receiverSocket = some fd → RunMove s w wk k .receiving
      { s.put w (wk.jump k (.recvfrom fd (s.sockLen s.started.length))) with
        started := s.started ++ [fd] }
  | wouldBlock (fd : Fd) (sockLen : UInt32) (f : Feed) : s.receivers fd = some f →
      f.recvfrom sockLen = (.error .wouldBlock, f) →
      RunMove s w wk k (.recvfrom fd sockLen) (s.put w (wk.jump k .countPending))
  | invalid (fd : Fd) (sockLen : UInt32) (f f' : Feed) : s.receivers fd = some f →
      f.recvfrom sockLen = (.error .invalid, f') → RunMove s w wk k (.recvfrom fd sockLen)
        { s.put w (wk.jump k .countPending) with
          receivers := Function.update s.receivers fd (some f') }
  | emptyDatagram (fd : Fd) (sockLen : UInt32) (f f' : Feed) : s.receivers fd = some f →
      f.recvfrom sockLen = (.ok 0, f') → RunMove s w wk k (.recvfrom fd sockLen)
        { s.put w (wk.jump k .countPending) with
          receivers := Function.update s.receivers fd (some f') }
  | received (fd : Fd) (sockLen : UInt32) (f f' : Feed) (count : ℕ) : s.receivers fd = some f →
      f.recvfrom sockLen = (.ok (count + 1), f') → RunMove s w wk k (.recvfrom fd sockLen)
        { s.put w (wk.jump k (.sending fd (count + 1) 0)) with
          receivers := Function.update s.receivers fd (some f') }
  | send (fd : Fd) (f : Feed) (count i : ℕ) : s.receivers fd = some f →
      i < f.transmitted.length → RunMove s w wk k (.sending fd count i)
        { s.put w (wk.jump k (.sending fd count (i + 1))) with
          receivers := Function.update s.receivers fd (some (f.sendData i count)) }
  | sentAll (fd : Fd) (f : Feed) (count i : ℕ) : s.receivers fd = some f →
      f.transmitted.length ≤ i →
      RunMove s w wk k (.sending fd count i)
        (s.put w (wk.jump k (.recvfrom fd SOCKADDR_IN_SIZE)))
  | somePending : s.pendingItems ≠ [] →
      RunMove s w wk k .countPending (s.put w (wk.jump k .setResume))
  | nonePending : s.pendingItems = [] →
      RunMove s w wk k .countPending (s.put w (wk.jump k .setSleep))
  | setResume :
      RunMove s w wk k .setResume (s.put w ((wk.setState .resume).jump k .pop))
  | popEmpty : s.pendingItems = [] →
      RunMove s w wk k .pop { s with fault := some .emptyPop }
  | pop (fd : Fd) (rest : List Fd) : s.pendingItems = fd :: rest → RunMove s w wk k .pop
      { s.put w (wk.jump k (.store fd)) with pendingItems := rest }
  | store (fd : Fd) :
      RunMove s w wk k (.store fd) (s.put w ((wk.setSocket fd).jump k .loop))
  | setSleep :
      RunMove s w wk k .setSleep (s.put w ((wk.setState .sleepWait).jump k .returnFree))
  | returnFree : s.lockFree = true → RunMove s w wk k .returnFree
      { s.put w (wk.jump k .loop) with freeWorkers := s.freeWorkers ++ [w] }

inductive DispatchMove (s : System) : DispatchPc → System → Prop
  | finish : DispatchMove s (.next []) { s with dispatching := .idle }
  | notFound (fd : Fd) (evs : List Fd) : s.receivers fd = none →
      DispatchMove s (.next (fd :: evs)) { s with fault := some .receiverNotFound }
  | found (fd : Fd) (evs : List Fd) (f : Feed) : s.receivers fd = some f →
      DispatchMove s (.next (fd :: evs))
        { s with dispatching := .getFree fd evs, consumed := s.consumed ++ [fd] }
  | getFree (fd : Fd) (evs : List Fd) (w : ℕ) (ws : List ℕ) : s.lockFree = true →
      s.freeWorkers = w :: ws → DispatchMove s (.getFree fd evs)
        { s with freeWorkers := ws, busyWorkers := s.busyWorkers ++ [w]
                 dispatching := .assignFree w fd evs }
  | noFree (fd : Fd) (evs : List Fd) : s.lockFree = true → s.freeWorkers = [] →
      DispatchMove s (.getFree fd evs) { s with dispatching := .checkTotal fd evs }
  | assignFree (w : ℕ) (fd : Fd) (evs : List Fd) (wk : Worker) : s.heap[w]? = some wk →
      DispatchMove s (.assignFree w fd evs)
        { s.put w (wk.setSocket fd) with dispatching := .resumeFree w fd evs }
  | resumeFree (w : ℕ) (fd : Fd) (evs : List Fd) (wk : Worker) : s.heap[w]? = some wk →
      DispatchMove s (.resumeFree w fd evs)
        { s.put w (wk.setState .resume) with dispatching := .next evs }
  | belowMax (fd : Fd) (evs : List Fd) : s.totalWorkerCount < MAX_WORKER_THREADS →
      DispatchMove s (.checkTotal fd evs) { s with dispatching := .createNew fd evs }
  | atMax (fd : Fd) (evs : List Fd) : MAX_WORKER_THREADS ≤ s.totalWorkerCount →
      DispatchMove s (.checkTotal fd evs) { s with dispatching := .push fd evs }
  | createNew (fd : Fd) (evs : List Fd) : DispatchMove s (.createNew fd evs)
      { s.newWorker with dispatching := .pushWorker s.heap.length fd evs }
  | pushWorker (w : ℕ) (fd : Fd) (evs : List Fd) : DispatchMove s (.pushWorker w fd evs)
      { s with workers := s.workers ++ [w], dispatching := .countWorker w fd evs }
  | countWorker (w : ℕ) (fd : Fd) (evs : List Fd) : DispatchMove s (.countWorker w fd evs)
      { s with totalWorkerCount := s.totalWorkerCount + 1, dispatching := .assignNew w fd evs }
  | assignNew (w : ℕ) (fd : Fd) (evs : List Fd) (wk : Worker) : s.heap[w]? = some wk →
      DispatchMove s (.assignNew w fd evs)
        { s.put w (wk.setSocket fd) with dispatching := .resumeNew w fd evs }
  | resumeNew (w : ℕ) (fd : Fd) (evs : List Fd) (wk : Worker) : s.heap[w]? = some wk →
      DispatchMove s (.resumeNew w fd evs)
        { s.put w (wk.setState .resume) with dispatching := .recordBusy w fd evs }
  | recordBusy (w : ℕ) (fd : Fd) (evs : List Fd) : s.lockFree = true →
      DispatchMove s (.recordBusy w fd evs)
        { s with busyWorkers := s.busyWorkers ++ [w], dispatching := .createAgain w fd evs }
  | createAgain (w : ℕ) (fd : Fd) (evs : List Fd) (wk : Worker) : s.heap[w]? = some wk →
      DispatchMove s (.createAgain w fd evs)
        { s.put w wk.create with dispatching := .next evs }
  | push (fd : Fd) (evs : List Fd) : DispatchMove s (.push fd evs)
      { s with pendingItems := s.pendingItems ++ [fd], pushed := s.pushed ++ [fd]
               dispatching := .next evs }

inductive AddMove (s : System) : AddPc → System → Prop
  | finish : AddMove s (.next 0) { s with adding := .idle }
  | createNew (k : ℕ) :
      AddMove s (.next (k + 1)) { s.newWorker with adding := .pushWorker s.heap.length k }
  | pushWorker (w k : ℕ) : AddMove s (.pushWorker w k)
      { s with workers := s.workers ++ [w], adding := .countWorker w k }
  | countWorker (w k : ℕ) : AddMove s (.countWorker w k)
      { s with totalWorkerCount := s.totalWorkerCount + 1, adding := .pushFree w k }
  | pushFree (w k : ℕ) : AddMove s (.pushFree w k)
      { s with freeWorkers := s.freeWorkers ++ [w], adding := .next k }

inductive SweepMove (s : System) : StopPc → System → Prop
  | finishAndDie (i n w : ℕ) (wk : Worker) : i < n → s.workers[i]? = some w →
      s.heap[w]? = some wk → SweepMove s (.sweeping i n)
        { s.put w (wk.setState .terminate) with stopping := .sweeping (i + 1) n }
  | finish (i n : ℕ) : n ≤ i → SweepMove s (.sweeping i n) { s with stopping := .done }

inductive Move (s : System) : Action → System → Prop
  | arrive (fd : Fd) (d : Datagram) (f : Feed) : s.receivers fd = some f →
      Move s (.arrive fd d)
        { s with receivers := Function.update s.receivers fd (some (f.arrive d)) }
  | processData (evs : List Fd) : s.dispatching = .idle →
      Move s (.processData evs) { s with dispatching := .next evs }
  | dispatch (pc : DispatchPc) (s' : System) : s.dispatching = pc → DispatchMove s pc s' →
      Move s .dispatch s'
  | addWorkers (count : ℕ) : s.adding = .idle →
      Move s (.addWorkers count) { s with adding := .next count }
  | add (pc : AddPc) (s' : System) : s.adding = pc → AddMove s pc s' → Move s .add s'
  | stop : s.stopping = .idle →
      Move s .stop { s with stopping := .sweeping 0 s.workers.length }
  | sweep (pc : StopPc) (s' : System) : s.stopping = pc → SweepMove s pc s' → Move s .sweep s'
  | thread (w k : ℕ) (wk : Worker) (pc : RunPc) (s' : System) : s.heap[w]? = some wk →
      wk.threads[k]? = some pc → RunMove s w wk k pc s' → Move s (.thread w k) s'
  | sendFails (w k : ℕ) : Move s (.sendFails w k) { s with fault := some .sendFailed }

variable {s s' : System}

theorem dispatchStep_move (h : s.dispatchStep = some s') :
    DispatchMove s s.dispatching s' := by
  unfold dispatchStep at h
  cases hpc : s.dispatching with
  | idle => simp [hpc] at h
  | next evs =>
    cases evs with
    | nil =>
      obtain rfl := by simpa [hpc] using h
      exact .finish
    | cons fd evs =>
      cases hf : s.receivers fd with
      | none =>
        obtain rfl : { s with fault := some .receiverNotFound } = s' := by
          simpa [hpc, hf] using h
        exact .notFound fd evs hf
      | some f =>
        obtain rfl := by simpa [hpc, hf] using h
        exact .found fd evs f hf
  | getFree fd evs =>
    by_cases hl : s.lockFree = true
    · cases hw : s.freeWorkers with
      | nil =>
        obtain rfl := by simpa [hpc, hl, getFreeWorker, hw] using h
        exact .noFree fd evs hl hw
      | cons w ws =>
        obtain rfl := by simpa [hpc, hl, getFreeWorker, hw] using h
        exact .getFree fd evs w ws hl hw
    · simp [hpc, hl] at h
  | assignFree w fd evs =>
    obtain ⟨wk, hw, rfl⟩ := by simpa [hpc, Option.map_eq_some_iff] using h
    exact .assignFree w fd evs wk hw
  | resumeFree w fd evs =>
    obtain ⟨wk, hw, rfl⟩ := by simpa [hpc, Option.map_eq_some_iff] using h
    exact .resumeFree w fd evs wk hw
  | checkTotal fd evs =>
    by_cases ht : s.totalWorkerCount < MAX_WORKER_THREADS
    · obtain rfl := by simpa [hpc, ht] using h
      exact .belowMax fd evs ht
    · obtain rfl := by simpa [hpc, ht] using h
      exact .atMax fd evs (Nat.le_of_not_lt ht)
  | createNew fd evs =>
    obtain rfl := by simpa [hpc] using h
    exact .createNew fd evs
  | pushWorker w fd evs =>
    obtain rfl := by simpa [hpc] using h
    exact .pushWorker w fd evs
  | countWorker w fd evs =>
    obtain rfl := by simpa [hpc] using h
    exact .countWorker w fd evs
  | assignNew w fd evs =>
    obtain ⟨wk, hw, rfl⟩ := by simpa [hpc, Option.map_eq_some_iff] using h
    exact .assignNew w fd evs wk hw
  | resumeNew w fd evs =>
    obtain ⟨wk, hw, rfl⟩ := by simpa [hpc, Option.map_eq_some_iff] using h
    exact .resumeNew w fd evs wk hw
  | recordBusy w fd evs =>
    by_cases hl : s.lockFree = true
    · obtain rfl := by simpa [hpc, hl] using h
      exact .recordBusy w fd evs hl
    · simp [hpc, hl] at h
  | createAgain w fd evs =>
    obtain ⟨wk, hw, rfl⟩ := by simpa [hpc, Option.map_eq_some_iff] using h
    exact .createAgain w fd evs wk hw
  | push fd evs =>
    obtain rfl := by simpa [hpc] using h
    exact .push fd evs

theorem addStep_move (h : s.addStep = some s') : AddMove s s.adding s' := by
  unfold addStep at h
  cases hpc : s.adding with
  | idle => simp [hpc] at h
  | next k =>
    cases k with
    | zero =>
      obtain rfl := by simpa [hpc] using h
      exact .finish
    | succ k =>
      obtain rfl := by simpa [hpc] using h
      exact .createNew k
  | pushWorker w k =>
    obtain rfl := by simpa [hpc] using h
    exact .pushWorker w k
  | countWorker w k =>
    obtain rfl := by simpa [hpc] using h
    exact .countWorker w k
  | pushFree w k =>
    obtain rfl := by simpa [hpc] using h
    exact .pushFree w k

theorem sweepStep_move (h : s.sweepStep = some s') : SweepMove s s.stopping s' := by
  unfold sweepStep at h
  cases hpc : s.stopping with
  | idle => simp [hpc] at h
  | done => simp [hpc] at h
  | sweeping i n =>
    by_cases hi : i < n
    · simp only [hpc, hi, if_true, Option.bind_eq_some_iff, Option.map_eq_some_iff] at h
      obtain ⟨w, hw, wk, hwk, rfl⟩ := h
      exact .finishAndDie i n w wk hi hw hwk
    · obtain rfl := by simpa [hpc, hi] using h
      exact .finish i n (Nat.le_of_not_lt hi)

theorem runStep_move {w k : ℕ} {wk : Worker} {pc : RunPc} (h : s.runStep w wk k pc = some s') :
    RunMove s w wk k pc s' := by
  cases pc with
  | loop =>
    cases hst : wk.state with
    | resume =>
      obtain rfl := by simpa [runStep, hst] using h
      exact .seeResume hst
    | sleepWait =>
      obtain rfl := by simpa [runStep, hst] using h
      exact .seeSleep (by simp [hst, WorkerState.sleeping])
    | sleepTime =>
      obtain rfl := by simpa [runStep, hst] using h
      exact .seeSleep (by simp [hst, WorkerState.sleeping])
    | terminate =>
      obtain rfl := by simpa [runStep, hst] using h
      exact .seeTerminate hst
  | paused =>
    cases hst : wk.state.sleeping with
    | true => simp [runStep, hst] at h
    | false =>
      obtain rfl := by simpa [runStep, hst] using h
      exact .wake hst
  | receiving =>
    cases hr : wk.receiverSocket with
    | none =>
      obtain rfl := by simpa [runStep, hr] using h
      exact .unset hr
    | some fd =>
      obtain rfl := by simpa [runStep, hr] using h
      exact .call fd hr
  | recvfrom fd sockLen =>
    simp only [runStep, Option.map_eq_some_iff] at h
    obtain ⟨f, hf, h⟩ := h
    rcases f.recvfrom_cases sockLen with ⟨-, hr⟩ | ⟨d, -, ⟨-, hr⟩ | ⟨-, hr⟩⟩
    · rw [hr] at h
      simp only [← hf, Function.update_eq_self] at h
      subst h
      exact .wouldBlock fd sockLen f hf hr
    · obtain rfl := by simpa [hr] using h
      exact .invalid fd sockLen f _ hf hr
    · cases hlen : min d.length MAX_PACKET_SIZE with
      | zero =>
        rw [hlen] at hr
        obtain rfl := by simpa [hr] using h
        exact .emptyDatagram fd sockLen f _ hf hr
      | succ count =>
        rw [hlen] at hr
        obtain rfl := by simpa [hr] using h
        exact .received fd sockLen f _ count hf hr
  | sending fd count i =>
    simp only [runStep, Option.map_eq_some_iff] at h
    obtain ⟨f, hf, h⟩ := h
    split_ifs at h with hi
    · subst h
      exact .send fd f count i hf hi
    · subst h
      exact .sentAll fd f count i hf (Nat.le_of_not_lt hi)
  | countPending =>
    cases hp : s.pendingItems with
    | nil =>
      obtain rfl := by simpa [runStep, PendingWorkQueue.count, hp] using h
      exact .nonePending hp
    | cons fd rest =>
      obtain rfl := by simpa [runStep, PendingWorkQueue.count, hp] using h
      exact .somePending (by simp [hp])
  | setResume =>
    obtain rfl := by simpa [runStep] using h
    exact .setResume
  | pop =>
    cases hp : s.pendingItems with
    | nil =>
      obtain rfl := by simpa [runStep, PendingWorkQueue.pop, hp] using h
      exact .popEmpty hp
    | cons fd rest =>
      obtain rfl := by simpa [runStep, PendingWorkQueue.pop, hp] using h
      exact .pop fd rest hp
  | store fd =>
    obtain rfl := by simpa [runStep] using h
    exact .store fd
  | setSleep =>
    obtain rfl := by simpa [runStep] using h
    exact .setSleep
  | returnFree =>
    by_cases hl : s.lockFree = true
    · obtain rfl := by simpa [runStep, hl] using h
      exact .returnFree hl
    · simp [runStep, hl] at h
  | exited => simp [runStep] at h

theorem step_move {a : Action} (h : s.step a = some s') : s.fault = none ∧ s.Move a s' := by
  have hf : s.fault = none := by
    by_contra hne
    simp [step, Option.isSome_iff_ne_none.mpr hne] at h
  refine ⟨hf, ?_⟩
  unfold step at h
  rw [if_neg (by simp [hf])] at h
  cases a with
  | arrive fd d =>
    obtain ⟨f, hr, rfl⟩ := by simpa [Option.map_eq_some_iff] using h
    exact .arrive fd d f hr
  | processData evs =>
    obtain ⟨hi, rfl⟩ := by simpa using h
    exact .processData evs hi
  | dispatch => exact .dispatch _ _ rfl (dispatchStep_move h)
  | addWorkers count =>
    obtain ⟨hi, rfl⟩ := by simpa using h
    exact .addWorkers count hi
  | add => exact .add _ _ rfl (addStep_move h)
  | stop =>
    obtain ⟨hi, rfl⟩ := by simpa using h
    exact .stop hi
  | sweep => exact .sweep _ _ rfl (sweepStep_move h)
  | thread w k =>
    simp only [threadStep, Option.bind_eq_some_iff] at h
    obtain ⟨wk, hwk, pc, hpc, h⟩ := h
    exact .thread w k wk pc _ hwk hpc (runStep_move h)
  | sendFails w k =>
    simp only [sendFailsStep, Option.bind_eq_some_iff] at h
    obtain ⟨wk, hwk, pc, hpc, h⟩ := h
    cases pc <;> simp only [reduceCtorEq, Option.bind_eq_some_iff] at h
    obtain ⟨f, hr, h⟩ := h
    obtain ⟨-, rfl⟩ := by simpa using h
    exact .sendFails w k

end System
end MddProxy
