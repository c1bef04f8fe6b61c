import MddProxy.Dispatch.Worker
import MddProxy.Interleaving.Runs
import Mathlib.Logic.Function.Basic

/-!
# The dispatcher and its threads as one machine

`System` is a `WorkDispatcher` with the four kinds of activity that touch it:
the thread inside `ProcessData`, a caller of `AddWorkers`, the one `Stop` call,
and the worker threads. `step` performs one atomic step of one of them; every
critical section, every access to the pending queue and every access to a
control slot is a step of its own.

The pause of a worker is modelled by what it waits for: a thread leaves `Pause`
only after the control slot stopped saying `SLEEP_WAIT` or `SLEEP_TIME`, at any
later moment or never.
-/
namespace MddProxy

open Interleaving

abbrev PendingWorkQueue := List Fd

namespace PendingWorkQueue

def push (q : PendingWorkQueue) (item : Fd) : PendingWorkQueue := q ++ [item]

def count (q : PendingWorkQueue) : ℕ := q.length

/-- `none` is `front()` and `pop_front()` on an empty deque. -/
def pop : PendingWorkQueue → Option (Fd × PendingWorkQueue)
  | [] => none
  | item :: rest => some (item, rest)

end PendingWorkQueue

/-- Where the thread inside `ProcessData` is; `evs` are the events of the batch
it has not consumed yet. -/
inductive DispatchPc where
  | idle
  /-- Top of the event loop. -/
  | next (evs : List Fd)
  /-- The receiver was found, about to call `GetFreeWorker`. -/
  | getFree (fd : Fd) (evs : List Fd)
  | assignFree (w : ℕ) (fd : Fd) (evs : List Fd)
  | resumeFree (w : ℕ) (fd : Fd) (evs : List Fd)
  /-- `GetFreeWorker` failed, about to compare `totalWorkerCount`. -/
  | checkTotal (fd : Fd) (evs : List Fd)
  /-- `CreateNewWorker`: about to construct the worker and start its thread. -/
  | createNew (fd : Fd) (evs : List Fd)
  | pushWorker (w : ℕ) (fd : Fd) (evs : List Fd)
  | countWorker (w : ℕ) (fd : Fd) (evs : List Fd)
  | assignNew (w : ℕ) (fd : Fd) (evs : List Fd)
  | resumeNew (w : ℕ) (fd : Fd) (evs : List Fd)
  | recordBusy (w : ℕ) (fd : Fd) (evs : List Fd)
  /-- The `worker->Create()` that closes the branch. -/
  | createAgain (w : ℕ) (fd : Fd) (evs : List Fd)
  | push (fd : Fd) (evs : List Fd)
  deriving DecidableEq, Repr

/-- The socket of the event in hand, until a worker or the queue has it. -/
def DispatchPc.hand : DispatchPc → Option Fd
  | .getFree fd _ | .assignFree _ fd _ | .resumeFree _ fd _ | .checkTotal fd _ => some fd
  | .createNew fd _ | .pushWorker _ fd _ | .countWorker _ fd _ => some fd
  | .assignNew _ fd _ | .resumeNew _ fd _ | .push fd _ => some fd
  | .idle | .next _ | .recordBusy _ _ _ | .createAgain _ _ _ => none

/-- The worker in hand, until its control slot says `RESUME`. -/
def DispatchPc.worker : DispatchPc → Option ℕ
  | .assignFree w _ _ | .resumeFree w _ _ | .pushWorker w _ _ | .countWorker w _ _ => some w
  | .assignNew w _ _ | .resumeNew w _ _ => some w
  | .idle | .next _ | .getFree _ _ | .checkTotal _ _ | .createNew _ _ | .push _ _ => none
  | .recordBusy _ _ _ | .createAgain _ _ _ => none

def DispatchPc.betweenEvents : DispatchPc → Bool
  | .idle | .next _ => true
  | _ => false

/-- Where the caller of `AddWorkers` is; `k` workers are still to be added. -/
inductive AddPc where
  | idle
  | next (k : ℕ)
  | pushWorker (w k : ℕ)
  | countWorker (w k : ℕ)
  | pushFree (w k : ℕ)
  deriving DecidableEq, Repr

/-- The new worker that the free list does not hold yet. -/
def AddPc.worker : AddPc → Option ℕ
  | .pushWorker w _ | .countWorker w _ | .pushFree w _ => some w
  | .idle | .next _ => none

/-- The `WakeUpAllThreads` sweep inside `Stop`: `sweeping i n` is about to visit
entry `i` of the first `n` of `workers`, holding `sync_lock`. -/
inductive StopPc where
  | idle
  | sweeping (i n : ℕ)
  | done
  deriving DecidableEq, Repr

/-- What ends the process or leaves the defined behaviour of the language. -/
inductive Fault where
  /-- `sendto` failed: `Run` rethrows and the exception leaves the thread. -/
  | sendFailed
  /-- `Pop` on an empty queue. -/
  | emptyPop
  /-- The `receiver not found` exception leaves `ProcessData`. -/
  | receiverNotFound
  /-- `ReceiveData` through a `receiverSocket` that was never assigned. -/
  | unsetSocket
  deriving DecidableEq, Repr

def MAX_WORKER_THREADS : ℕ := 10

/-- The members of the class. `workers`, `freeWorkers` and `busyWorkers` hold
worker objects by their position in `heap`. -/
structure WorkDispatcher where
  heap : List Worker
  receivers : Fd → Option Feed
  pendingItems : PendingWorkQueue
  freeWorkers : List ℕ
  busyWorkers : List ℕ
  workers : List ℕ
  totalWorkerCount : ℕ

/-- A dispatcher, the threads that use it, and three histories: the receivers of
the events consumed, those pushed to the pending queue, and those on which a
worker has started a `ReceiveData` call. `sockLen n` is the length that call number
`n` finds in its `sockLen`, which the source does not set. -/
structure System extends WorkDispatcher where
  dispatching : DispatchPc
  adding : AddPc
  stopping : StopPc
  consumed : List Fd
  pushed : List Fd
  started : List Fd
  sockLen : ℕ → UInt32
  fault : Option Fault

namespace System

/-- `sync_lock` is held across the whole sweep; the other critical sections are
single steps. -/
def lockFree (s : System) : Bool :=
  match s.stopping with
  | .sweeping _ _ => false
  | .idle | .done => true

def put (s : System) (w : ℕ) (wk : Worker) : System := { s with heap := s.heap.set w wk }

/-- `CreateNewWorker` up to the start of the thread. -/
def newWorker (s : System) : System :=
  { s with heap := s.heap ++ [Worker.created s.totalWorkerCount] }

section
variable (s : System) (w : ℕ) (wk : Worker)

@[simp] theorem heap_put : (s.put w wk).heap = s.heap.set w wk := rfl
@[simp] theorem receivers_put : (s.put w wk).receivers = s.receivers := rfl
@[simp] theorem pendingItems_put : (s.put w wk).pendingItems = s.pendingItems := rfl
@[simp] theorem freeWorkers_put : (s.put w wk).freeWorkers = s.freeWorkers := rfl
@[simp] theorem busyWorkers_put : (s.put w wk).busyWorkers = s.busyWorkers := rfl
@[simp] theorem workers_put : (s.put w wk).workers = s.workers := rfl
@[simp] theorem totalWorkerCount_put : (s.put w wk).totalWorkerCount = s.totalWorkerCount := rfl
@[simp] theorem dispatching_put : (s.put w wk).dispatching = s.dispatching := rfl
@[simp] theorem adding_put : (s.put w wk).adding = s.adding := rfl
@[simp] theorem stopping_put : (s.put w wk).stopping = s.stopping := rfl
@[simp] theorem consumed_put : (s.put w wk).consumed = s.consumed := rfl
@[simp] theorem pushed_put : (s.put w wk).pushed = s.pushed := rfl
@[simp] theorem started_put : (s.put w wk).started = s.started := rfl
@[simp] theorem sockLen_put : (s.put w wk).sockLen = s.sockLen := rfl
@[simp] theorem fault_put : (s.put w wk).fault = s.fault := rfl
@[simp] theorem heap_newWorker :
    s.newWorker.heap = s.heap ++ [Worker.created s.totalWorkerCount] := rfl
@[simp] theorem receivers_newWorker : s.newWorker.receivers = s.receivers := rfl
@[simp] theorem pendingItems_newWorker : s.newWorker.pendingItems = s.pendingItems := rfl
@[simp] theorem freeWorkers_newWorker : s.newWorker.freeWorkers = s.freeWorkers := rfl
@[simp] theorem busyWorkers_newWorker : s.newWorker.busyWorkers = s.busyWorkers := rfl
@[simp] theorem workers_newWorker : s.newWorker.workers = s.workers := rfl
@[simp] theorem totalWorkerCount_newWorker :
    s.newWorker.totalWorkerCount = s.totalWorkerCount := rfl
@[simp] theorem dispatching_newWorker : s.newWorker.dispatching = s.dispatching := rfl
@[simp] theorem adding_newWorker : s.newWorker.adding = s.adding := rfl
@[simp] theorem stopping_newWorker : s.newWorker.stopping = s.stopping := rfl
@[simp] theorem consumed_newWorker : s.newWorker.consumed = s.consumed := rfl
@[simp] theorem pushed_newWorker : s.newWorker.pushed = s.pushed := rfl
@[simp] theorem started_newWorker : s.newWorker.started = s.started := rfl
@[simp] theorem sockLen_newWorker : s.newWorker.sockLen = s.sockLen := rfl
@[simp] theorem fault_newWorker : s.newWorker.fault = s.fault := rfl
end

def getFreeWorker (s : System) : Option (ℕ × System) :=
  match s.freeWorkers with
  | [] => none
  | w :: ws => some (w, { s with freeWorkers := ws, busyWorkers := s.busyWorkers ++ [w] })

def recordNewBusyWorker (s : System) (w : ℕ) : System :=
  { s with busyWorkers := s.busyWorkers ++ [w] }

def returnFreeWorker (s : System) (w : ℕ) : System :=
  { s with freeWorkers := s.freeWorkers ++ [w] }

def dispatchStep (s : System) : Option System :=
  match s.dispatching with
  | .idle => none
  | .next [] => some { s with dispatching := .idle }
  | .next (fd :: evs) =>
    match s.receivers fd with
    | none => some { s with fault := some .receiverNotFound }
    | some _ => some { s with dispatching := .getFree fd evs, consumed := s.consumed ++ [fd] }
  | .getFree fd evs =>
    if s.lockFree then
      match s.getFreeWorker with
      | some (w, s') => some { s' with dispatching := .assignFree w fd evs }
      | none => some { s with dispatching := .checkTotal fd evs }
    else none
  | .assignFree w fd evs =>
    (s.heap[w]?).map fun wk =>
      { s.put w (wk.setSocket fd) with dispatching := .resumeFree w fd evs }
  | .resumeFree w _ evs =>
    (s.heap[w]?).map fun wk => { s.put w (wk.setState .resume) with dispatching := .next evs }
  | .checkTotal fd evs =>
    if s.totalWorkerCount < MAX_WORKER_THREADS then
      some { s with dispatching := .createNew fd evs }
    else some { s with dispatching := .push fd evs }
  | .createNew fd evs => some { s.newWorker with dispatching := .pushWorker s.heap.length fd evs }
  | .pushWorker w fd evs =>
    some { s with workers := s.workers ++ [w], dispatching := .countWorker w fd evs }
  | .countWorker w fd evs =>
    some { s with totalWorkerCount := s.totalWorkerCount + 1, dispatching := .assignNew w fd evs }
  | .assignNew w fd evs =>
    (s.heap[w]?).map fun wk =>
      { s.put w (wk.setSocket fd) with dispatching := .resumeNew w fd evs }
  | .resumeNew w fd evs =>
    (s.heap[w]?).map fun wk =>
      { s.put w (wk.setState .resume) with dispatching := .recordBusy w fd evs }
  | .recordBusy w fd evs =>
    if s.lockFree then
      some { s.recordNewBusyWorker w with dispatching := .createAgain w fd evs }
    else none
  | .createAgain w _ evs =>
    (s.heap[w]?).map fun wk => { s.put w wk.create with dispatching := .next evs }
  | .push fd evs =>
    some { s with
      pendingItems := s.pendingItems.push fd, pushed := s.pushed ++ [fd], dispatching := .next evs }

def addStep (s : System) : Option System :=
  match s.adding with
  | .idle => none
  | .next 0 => some { s with adding := .idle }
  | .next (k + 1) => some { s.newWorker with adding := .pushWorker s.heap.length k }
  | .pushWorker w k => some { s with workers := s.workers ++ [w], adding := .countWorker w k }
  | .countWorker w k =>
    some { s with totalWorkerCount := s.totalWorkerCount + 1, adding := .pushFree w k }
  | .pushFree w k => some { s with freeWorkers := s.freeWorkers ++ [w], adding := .next k }

/-- One step of the sweep: `FinishAndDie` on the next worker, or the end of it. -/
def sweepStep (s : System) : Option System :=
  match s.stopping with
  | .sweeping i n =>
    if i < n then
      (s.workers[i]?).bind fun w => (s.heap[w]?).map fun wk =>
        { s.put w (wk.setState .terminate) with stopping := .sweeping (i + 1) n }
    else some { s with stopping := .done }
  | .idle | .done => none

/-- One step of thread `k` of worker object `w`, which is `wk` and is at `pc`. -/
def runStep (s : System) (w : ℕ) (wk : Worker) (k : ℕ) : RunPc → Option System
  | .loop =>
    match wk.state with
    | .resume => some (s.put w (wk.jump k .receiving))
    | .sleepWait | .sleepTime => some (s.put w (wk.jump k .paused))
    | .terminate => some (s.put w (wk.jump k .exited))
  | .paused => if wk.state.sleeping then none else some (s.put w (wk.jump k .loop))
  | .receiving =>
    match wk.receiverSocket with
    | none => some { s with fault := some .unsetSocket }
    | some fd =>
      some { s.put w (wk.jump k (.recvfrom fd (s.sockLen s.started.length))) with
        started := s.started ++ [fd] }
  | .recvfrom fd sockLen =>
    (s.receivers fd).map fun f =>
      match f.recvfrom sockLen with
      -- `-1` is a huge `count`, which fails the upper range check
      | (.error _, f') | (.ok 0, f') =>
        { s.put w (wk.jump k .countPending) with
          receivers := Function.update s.receivers fd (some f') }
      | (.ok (count + 1), f') =>
        { s.put w (wk.jump k (.sending fd (count + 1) 0)) with
          receivers := Function.update s.receivers fd (some f') }
  | .sending fd count i =>
    (s.receivers fd).map fun f =>
      if i < f.transmitted.length then
        { s.put w (wk.jump k (.sending fd count (i + 1))) with
          receivers := Function.update s.receivers fd (some (f.sendData i count)) }
      -- the `recvfrom` of this datagram has stored the length of an address
      else s.put w (wk.jump k (.recvfrom fd SOCKADDR_IN_SIZE))
  | .countPending =>
    if s.pendingItems.count > 0 then some (s.put w (wk.jump k .setResume))
    else some (s.put w (wk.jump k .setSleep))
  | .setResume => some (s.put w ((wk.setState .resume).jump k .pop))
  | .pop =>
    match s.pendingItems.pop with
    | none => some { s with fault := some .emptyPop }
    | some (fd, rest) => some { s.put w (wk.jump k (.store fd)) with pendingItems := rest }
  | .store fd => some (s.put w ((wk.setSocket fd).jump k .loop))
  | .setSleep => some (s.put w ((wk.setState .sleepWait).jump k .returnFree))
  | .returnFree =>
    if s.lockFree then some ((s.put w (wk.jump k .loop)).returnFreeWorker w) else none
  | .exited => none

def threadStep (s : System) (w k : ℕ) : Option System :=
  (s.heap[w]?).bind fun wk => (wk.threads[k]?).bind fun pc => s.runStep w wk k pc

/-- Thread `k` of worker `w` is in `SendData`, and `sendto` fails. -/
def sendFailsStep (s : System) (w k : ℕ) : Option System :=
  (s.heap[w]?).bind fun wk => (wk.threads[k]?).bind fun pc =>
    match pc with
    | .sending fd _ i =>
      (s.receivers fd).bind fun f =>
        if i < f.transmitted.length then some { s with fault := some .sendFailed } else none
    | _ => none

inductive Action where
  /-- The kernel queues a datagram on a registered descriptor. -/
  | arrive (fd : Fd) (d : Datagram)
  /-- `ProcessData` is called with a batch of events. -/
  | processData (evs : List Fd)
  | dispatch
  /-- `AddWorkers(count)` is called. -/
  | addWorkers (count : ℕ)
  | add
  /-- `Stop` enters `WakeUpAllThreads` and takes `sync_lock`. -/
  | stop
  | sweep
  | thread (w k : ℕ)
  | sendFails (w k : ℕ)
  deriving DecidableEq, Repr

def step (s : System) (a : Action) : Option System :=
  if s.fault.isSome then none
  else match a with
  | .arrive fd d =>
    (s.receivers fd).map fun f =>
      { s with receivers := Function.update s.receivers fd (some (f.arrive d)) }
  | .processData evs =>
    if s.dispatching = .idle then some { s with dispatching := .next evs } else none
  | .dispatch => s.dispatchStep
  | .addWorkers count => if s.adding = .idle then some { s with adding := .next count } else none
  | .add => s.addStep
  | .stop =>
    if s.stopping = .idle then some { s with stopping := .sweeping 0 s.workers.length } else none
  | .sweep => s.sweepStep
  | .thread w k => s.threadStep w k
  | .sendFails w k => s.sendFailsStep w k

/-- A dispatcher on which nothing has happened, with `count` free workers.
`senders fd` is the length of the sender list of the receiver registered under
`fd`. -/
def start (count : ℕ) (senders : Fd → Option ℕ) (junk : Junk) : System where
  heap := (List.range count).map Worker.created
  receivers := fun fd => (senders fd).map fun n => .fresh n (junk.buff fd)
  pendingItems := []
  freeWorkers := List.range count
  busyWorkers := []
  workers := List.range count
  totalWorkerCount := count
  dispatching := .idle
  adding := .idle
  stopping := .idle
  consumed := []
  pushed := []
  started := []
  sockLen := junk.sockLen
  fault := none

end System
end MddProxy
