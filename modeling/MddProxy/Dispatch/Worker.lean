import Mathlib.Data.List.Basic
import Mathlib.Tactic.Common

/-!
# Workers and the feeds they serve

`Worker` is the `Worker` object together with the threads that execute its
`Run`: the source starts threads from `Worker::Create`, and nothing ties one
object to one thread. A thread is its program counter inside `Run`,
`ReceiveData` or `OnWorkComplete`; the shared control slot is the object's.

`Feed` is one `ReceiverSocket` with the kernel's side of its descriptor: the
datagrams that arrived, how many `recvfrom` has taken, the single buffer, and
what each `SenderSocket` of its list has transmitted.
-/
namespace MddProxy

abbrev Fd := ℕ

abbrev Datagram := List UInt8

inductive WorkerState where
  | sleepWait
  | sleepTime
  | resume
  | terminate
  deriving DecidableEq, Repr

/-- The states in which `Worker::Pause` keeps waiting. -/
def WorkerState.sleeping : WorkerState → Bool
  | .sleepWait | .sleepTime => true
  | .resume | .terminate => false

/-- Where a thread is inside `Worker::Run`. -/
inductive RunPc where
  /-- About to test the control slot at the top of `while(true)`. -/
  | loop
  /-- Inside `Pause`. -/
  | paused
  /-- Saw `RESUME`, about to read `receiverSocket` and call `ReceiveData` on it. -/
  | receiving
  /-- `ReceiveData`: about to call `recvfrom`, with what `sockLen` holds. -/
  | recvfrom (fd : Fd) (sockLen : UInt32)
  /-- `ReceiveData`: about to hand `count` bytes of the buffer to sender number `i`. -/
  | sending (fd : Fd) (count i : ℕ)
  /-- `OnWorkComplete`: about to read `pendingItems->Count()`. -/
  | countPending
  /-- `OnWorkComplete`: something was pending, about to store `RESUME`. -/
  | setResume
  /-- `OnWorkComplete`: about to call `pendingItems->Pop()`. -/
  | pop
  /-- `OnWorkComplete`: about to store the popped socket in `receiverSocket`. -/
  | store (fd : Fd)
  /-- `OnWorkComplete`: nothing was pending, about to store `SLEEP_WAIT`. -/
  | setSleep
  /-- `OnWorkComplete`: about to call `ReturnFreeWorker`. -/
  | returnFree
  /-- Left `Run`. -/
  | exited
  deriving DecidableEq, Repr

/-- The points between `pendingItems->Count() > 0` and the end of the `Pop`. -/
def RunPc.popping : RunPc → Bool
  | .setResume | .pop => true
  | _ => false

/-- The points between `pendingItems->Count() == 0` and the end of `ReturnFreeWorker`. -/
def RunPc.retiring : RunPc → Bool
  | .setSleep | .returnFree => true
  | _ => false

def RunPc.completing : RunPc → Bool
  | .countPending | .setResume | .pop | .store _ | .setSleep | .returnFree => true
  | _ => false

/-- The points from the test that saw `RESUME` to the store that `OnWorkComplete`
makes into the control slot. -/
def RunPc.beforeStateWrite : RunPc → Bool
  | .receiving | .recvfrom _ _ | .sending _ _ _ | .countPending | .setResume | .setSleep => true
  | _ => false

/-- The points at which the thread has not started on the socket of its control slot. -/
def RunPc.unstarted : RunPc → Bool
  | .loop | .paused | .receiving => true
  | _ => false

/-- A `Worker` object: its slot id, its control slot (`WorkerStateParamsT`), and
the threads running on it. `receiverSocket` is unset until the first assignment. -/
structure Worker where
  mySlotId : ℕ
  state : WorkerState
  receiverSocket : Option Fd
  threads : List RunPc
  deriving DecidableEq, Repr

/-- `new Worker(slotId, this)` followed by the `Create` that starts its first thread. -/
def Worker.created (slotId : ℕ) : Worker where
  mySlotId := slotId
  state := .sleepWait
  receiverSocket := none
  threads := [.loop]

def Worker.jump (wk : Worker) (k : ℕ) (pc : RunPc) : Worker :=
  { wk with threads := wk.threads.set k pc }

def Worker.setState (wk : Worker) (st : WorkerState) : Worker := { wk with state := st }

def Worker.setSocket (wk : Worker) (fd : Fd) : Worker := { wk with receiverSocket := some fd }

/-- A further `Worker::Create` on the same object. -/
def Worker.create (wk : Worker) : Worker := { wk with threads := wk.threads ++ [.loop] }

section
variable (wk : Worker) (k slotId : ℕ) (pc : RunPc) (st : WorkerState) (fd : Fd)

@[simp] theorem Worker.created_state : (Worker.created slotId).state = .sleepWait := rfl
@[simp] theorem Worker.created_receiverSocket : (Worker.created slotId).receiverSocket = none := rfl
@[simp] theorem Worker.created_threads : (Worker.created slotId).threads = [.loop] := rfl
@[simp] theorem Worker.jump_state : (wk.jump k pc).state = wk.state := rfl
@[simp] theorem Worker.jump_receiverSocket :
    (wk.jump k pc).receiverSocket = wk.receiverSocket := rfl
@[simp] theorem Worker.jump_threads : (wk.jump k pc).threads = wk.threads.set k pc := rfl
@[simp] theorem Worker.setState_state : (wk.setState st).state = st := rfl
@[simp] theorem Worker.setState_receiverSocket :
    (wk.setState st).receiverSocket = wk.receiverSocket := rfl
@[simp] theorem Worker.setState_threads : (wk.setState st).threads = wk.threads := rfl
@[simp] theorem Worker.setSocket_state : (wk.setSocket fd).state = wk.state := rfl
@[simp] theorem Worker.setSocket_receiverSocket :
    (wk.setSocket fd).receiverSocket = some fd := rfl
@[simp] theorem Worker.setSocket_threads : (wk.setSocket fd).threads = wk.threads := rfl
@[simp] theorem Worker.create_state : wk.create.state = wk.state := rfl
@[simp] theorem Worker.create_receiverSocket :
    wk.create.receiverSocket = wk.receiverSocket := rfl
@[simp] theorem Worker.create_threads : wk.create.threads = wk.threads ++ [.loop] := rfl
end

def MAX_PACKET_SIZE : ℕ := 1024

/-- `sizeof(struct sockaddr_in)`, which a `recvfrom` that succeeds leaves in `sockLen`. -/
def SOCKADDR_IN_SIZE : UInt32 := 16

/-- The kernel reads the length it is given for the source address as an `int`, after it
has taken the datagram and filled the buffer. -/
def lengthRefused (sockLen : UInt32) : Bool := sockLen.toInt32 < 0

inductive RecvError where
  /-- `EAGAIN`: nothing is queued. -/
  | wouldBlock
  /-- `EINVAL`: the length of the source address is refused. -/
  | invalid
  deriving DecidableEq, Repr

/-- What uninitialised memory holds: the buffer of each receiver, and the `sockLen` of each
call of `ReceiveData`, by the number of the call. -/
structure Junk where
  buff : Fd → List UInt8
  sockLen : ℕ → UInt32

def Junk.zeroed : Junk := ⟨fun _ => [], fun _ => 0⟩

/-- One registered `ReceiverSocket` at run time. -/
structure Feed where
  /-- Every datagram the kernel has queued on the descriptor, in arrival order. -/
  arrived : List Datagram
  /-- How many of them `recvfrom` has removed. -/
  taken : ℕ
  buff : List UInt8
  /-- What each socket of `senderSocketList` has transmitted, in list order. -/
  transmitted : List (List Datagram)
  deriving DecidableEq, Repr

namespace Feed

/-- A receiver as `AddReceiversFromConfig` leaves it: `senders` sockets in its list,
nothing read yet, and whatever `new char[MAX_PACKET_SIZE]` found in memory. -/
def fresh (senders : ℕ) (junk : List UInt8) : Feed where
  arrived := []
  taken := 0
  buff := junk
  transmitted := List.replicate senders []

def arrive (f : Feed) (d : Datagram) : Feed := { f with arrived := f.arrived ++ [d] }

/-- Take `d` off the queue and copy it over the start of the buffer; what exceeds the
buffer is discarded. -/
def dequeue (f : Feed) (d : Datagram) : Feed :=
  { f with
    taken := f.taken + 1
    buff := d.take MAX_PACKET_SIZE ++ f.buff.drop (min d.length MAX_PACKET_SIZE) }

/-- `recvfrom(socket, buff, MAX_PACKET_SIZE, 0, &srcAddress, &sockLen)`: what it returns,
the byte count or the error behind a `-1`, and what it does to the feed. -/
def recvfrom (f : Feed) (sockLen : UInt32) : Except RecvError ℕ × Feed :=
  match f.arrived[f.taken]? with
  | none => (.error .wouldBlock, f)
  | some d =>
    if lengthRefused sockLen then (.error .invalid, f.dequeue d)
    else (.ok (min d.length MAX_PACKET_SIZE), f.dequeue d)

theorem recvfrom_cases (f : Feed) (sockLen : UInt32) :
    f.arrived[f.taken]? = none ∧ f.recvfrom sockLen = (.error .wouldBlock, f) ∨
      ∃ d, f.arrived[f.taken]? = some d ∧
        (lengthRefused sockLen = true ∧ f.recvfrom sockLen = (.error .invalid, f.dequeue d) ∨
          lengthRefused sockLen = false ∧
            f.recvfrom sockLen = (.ok (min d.length MAX_PACKET_SIZE), f.dequeue d)) := by
  cases hd : f.arrived[f.taken]? with
  | none => exact .inl ⟨rfl, by simp [recvfrom, hd]⟩
  | some d =>
    refine .inr ⟨d, rfl, ?_⟩
    cases hlen : lengthRefused sockLen with
    | true => exact .inl ⟨rfl, by simp [recvfrom, hd, hlen]⟩
    | false => exact .inr ⟨rfl, by simp [recvfrom, hd, hlen]⟩

section
variable {f f' : Feed} {sockLen : UInt32} {count : ℕ}

theorem recvfrom_ok (h : f.recvfrom sockLen = (.ok count, f')) :
    ∃ d, f.arrived[f.taken]? = some d ∧ count = min d.length MAX_PACKET_SIZE ∧
      f' = f.dequeue d := by
  rcases f.recvfrom_cases sockLen with ⟨-, hr⟩ | ⟨d, hd, ⟨-, hr⟩ | ⟨-, hr⟩⟩
  · simp [hr] at h
  · simp [hr] at h
  · obtain ⟨hcount, hf⟩ := Prod.mk.inj (hr.symm.trans h)
    exact ⟨d, hd, (Except.ok.inj hcount).symm, hf.symm⟩

theorem recvfrom_invalid (h : f.recvfrom sockLen = (.error .invalid, f')) :
    lengthRefused sockLen = true ∧ ∃ d, f.arrived[f.taken]? = some d ∧ f' = f.dequeue d := by
  rcases f.recvfrom_cases sockLen with ⟨-, hr⟩ | ⟨d, hd, ⟨hlen, hr⟩ | ⟨-, hr⟩⟩
  · simp [hr] at h
  · exact ⟨hlen, d, hd, (Prod.mk.inj (h.symm.trans hr)).2⟩
  · simp [hr] at h

theorem recvfrom_wouldBlock (h : f.recvfrom sockLen = (.error .wouldBlock, f')) :
    f.arrived[f.taken]? = none := by
  rcases f.recvfrom_cases sockLen with ⟨hnone, -⟩ | ⟨d, -, ⟨-, hr⟩ | ⟨-, hr⟩⟩
  · exact hnone
  · simp [hr] at h
  · simp [hr] at h
end

/-- `sender->SendData(buff, count)` on sender number `i`. -/
def sendData (f : Feed) (i count : ℕ) : Feed :=
  { f with transmitted := f.transmitted.modify i (· ++ [f.buff.take count]) }

end Feed

end MddProxy
