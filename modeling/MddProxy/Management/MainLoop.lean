import MddProxy.Interleaving.Runs
import MddProxy.Dispatch.Worker
import MddProxy.Management.Command

/-!
# The life of `main`

`main` after the constructor: `Create` and `Listen` of the command line interface, then
`WaitForExit`. `Listen` only returns once a command has stopped the proxy, and `Stop`
closes the epoll handle, so the event loop is entered when there is nothing left to
wait on.
-/
namespace MddProxy

open PropertyTree Interleaving CommandEnv

/-- The part of `MddProxy` that `Stop` and `WaitForExit` share. -/
structure ProxyState where
  continueProcessing : Bool
  ePollOpen : Bool
  threadsWoken : Bool
  deriving DecidableEq, Repr

def ProxyState.cancelWait (p : ProxyState) : ProxyState := { p with ePollOpen := false }

def ProxyState.stop (p : ProxyState) : ProxyState :=
  let p := { p with continueProcessing := false }
  let p := p.cancelWait
  { p with threadsWoken := true }

def CommandEnv.withStop (env : CommandEnv ProxyState) : CommandEnv ProxyState :=
  { env with
    perform := fun op p => match op with
      | .stop => .ok p.stop
      | op => env.perform op p }

inductive MainPc where
  | create
  | listen
  | accept
  | recv
  | waitForData
  | joinThreads
  | returned
  | aborted
  deriving DecidableEq, Repr

def MainPc.afterListen : MainPc → Bool
  | .waitForData | .joinThreads | .returned => true
  | .create | .listen | .accept | .recv | .aborted => false

/-- `ready` is the kernel's list of the epoll instance. Four fields only record what has
happened: `early` lists the receivers that became readable before any stop request,
`handed` the events given to `ProcessData`, and `firstWait` says whether the epoll handle
was open when `WaitForData` was first called. -/
structure MainState where
  pc : MainPc
  proxy : ProxyState
  stopCommandIntf : Bool
  clientOpen : Bool
  registered : List Fd
  ready : List Fd
  early : List Fd
  stopRequested : Bool
  handed : List Fd
  firstWait : Option Bool
  deriving DecidableEq, Repr

/-- What the sockets, the peers, the kernel and the signals do next. -/
inductive MainAction where
  | createOk
  | createFails
  | listenOk
  | listenFails
  | connect
  | acceptFails
  | receive (buffer : List UInt8)
  | peerCloses
  | recvFails
  | readable (fd : Fd)
  | signal
  | waitReturns (events : List Fd)
  | waitFails
  | joined
  deriving DecidableEq, Repr

def READ_BUFF_SIZE : ℕ := 1024

namespace MainState

def start (registered : List Fd) : MainState where
  pc := .create
  proxy := ⟨true, true, false⟩
  stopCommandIntf := false
  clientOpen := false
  registered
  ready := []
  early := []
  stopRequested := false
  handed := []
  firstWait := none

variable (s : MainState)

def Finished : Prop := s.pc = .returned ∨ s.pc = .aborted

instance : Decidable s.Finished := inferInstanceAs (Decidable (_ ∨ _))

def enterWait : MainState :=
  { s with
    pc := .waitForData
    firstWait := s.firstWait.or (some s.proxy.ePollOpen) }

def afterWait : MainState :=
  if s.proxy.continueProcessing = true then s.enterWait else { s with pc := .joinThreads }

def openClient : MainState := { s with clientOpen := true }

def closeClient : MainState := { s with clientOpen := false }

/-- The end of `ReceiveData`, back in the loop of `Listen`. -/
def afterClient : MainState :=
  if s.stopCommandIntf = true then s.enterWait else { s with pc := .accept }

def afterCommand : MainState :=
  if s.stopCommandIntf = true then s.afterClient else { s with pc := .recv }

def commandDone (r : Session ProxyState) : MainState :=
  { s with
    proxy := r.proxy
    stopCommandIntf := r.stopCommandIntf
    stopRequested := s.stopRequested || r.invoked.contains .stop }

def arrived (fd : Fd) : MainState :=
  { s with
    ready := if fd ∈ s.ready then s.ready else s.ready ++ [fd]
    early := if s.stopRequested = true then s.early else s.early ++ [fd] }

def process (events : List Fd) : MainState :=
  { s with
    handed := s.handed ++ events
    ready := s.ready.filter fun fd => fd ∉ events }

def step (env : CommandEnv ProxyState) (s : MainState) : MainAction → Option MainState
  | .createOk => if s.pc = .create then some { s with pc := .listen } else none
  | .createFails => if s.pc = .create then some { s with pc := .aborted } else none
  | .listenOk => if s.pc = .listen then some { s with pc := .accept } else none
  | .listenFails => if s.pc = .listen then some { s with pc := .aborted } else none
  | .connect => if s.pc = .accept then some s.openClient.afterCommand else none
  | .acceptFails => if s.pc = .accept then some { s with pc := .aborted } else none
  | .receive buffer =>
    if s.pc = .recv ∧ s.clientOpen = true ∧ buffer ≠ [] ∧ buffer.length ≤ READ_BUFF_SIZE then
      (env.withStop.processCommand buffer ⟨s.proxy, [], s.stopCommandIntf, 0⟩).map
        fun r => (s.commandDone r.2).afterCommand
    else none
  -- `recv` returns 0: the socket is closed and the loop goes on with it
  | .peerCloses =>
    if s.pc = .recv ∧ s.clientOpen = true then some s.closeClient.afterCommand else none
  | .recvFails => if s.pc = .recv then some s.closeClient.afterClient else none
  | .readable fd => if fd ∈ s.registered ∧ ¬ s.Finished then some (s.arrived fd) else none
  | .signal =>
    if s.Finished then none else some { s with proxy := s.proxy.stop, stopRequested := true }
  | .waitReturns events =>
    if s.pc = .waitForData ∧ s.proxy.ePollOpen = true ∧ events ≠ [] ∧
        (∀ fd ∈ events, fd ∈ s.ready) ∧ events.length ≤ s.registered.length then
      some (s.process events).afterWait
    else none
  | .waitFails => if s.pc = .waitForData then some s.afterWait else none
  | .joined =>
    if s.pc = .joinThreads ∧ s.proxy.threadsWoken = true then some { s with pc := .returned }
    else none

def stopped : MainState :=
  { s with
    pc := .waitForData
    proxy := s.proxy.stop
    stopCommandIntf := true
    stopRequested := true
    firstWait := s.firstWait.or (some false) }

/-- What one step of `main` and its surroundings can do. -/
inductive Move : MainAction → MainState → Prop
  | createOk (hpc : s.pc = .create) : Move .createOk { s with pc := .listen }
  | createFails (hpc : s.pc = .create) : Move .createFails { s with pc := .aborted }
  | listenOk (hpc : s.pc = .listen) : Move .listenOk { s with pc := .accept }
  | listenFails (hpc : s.pc = .listen) : Move .listenFails { s with pc := .aborted }
  | connect (hpc : s.pc = .accept) : Move .connect s.openClient.afterCommand
  | acceptFails (hpc : s.pc = .accept) : Move .acceptFails { s with pc := .aborted }
  | receive (buffer : List UInt8) (hpc : s.pc = .recv) : Move (.receive buffer) s.stopped
  | peerCloses (hpc : s.pc = .recv) : Move .peerCloses s.closeClient.afterCommand
  | recvFails (hpc : s.pc = .recv) : Move .recvFails s.closeClient.afterClient
  | readable (fd : Fd) (hlive : ¬ s.Finished) : Move (.readable fd) (s.arrived fd)
  | signal (hlive : ¬ s.Finished) :
      Move .signal { s with proxy := s.proxy.stop, stopRequested := true }
  | waitReturns (events : List Fd) (hpc : s.pc = .waitForData)
      (hopen : s.proxy.ePollOpen = true) : Move (.waitReturns events) (s.process events).afterWait
  | waitFails (hpc : s.pc = .waitForData) : Move .waitFails s.afterWait
  | joined (hpc : s.pc = .joinThreads) : Move .joined { s with pc := .returned }

variable {s} {s' : MainState} {env : CommandEnv ProxyState} {a : MainAction}

theorem processCommand_withStop (htest : env.readJson strCommandTest = some stopprocTree)
    (hid : env.lib.uint8 "1" = some 1) (buffer : List UInt8) (r : Session ProxyState) :
    env.withStop.processCommand buffer r = some (env.writeJson (responseTree 0),
      { r with
        proxy := r.proxy.stop
        invoked := r.invoked ++ [.stop]
        stopCommandIntf := true
        retCode := 0 }) := by
  have htest' : env.withStop.readJson strCommandTest = some stopprocTree := htest
  have hid' : env.withStop.lib.uint8 "1" = some 1 := hid
  exact processCommand_eq htest' hid' buffer r

theorem step_receive (htest : env.readJson strCommandTest = some stopprocTree)
    (hid : env.lib.uint8 "1" = some 1) {buffer : List UInt8}
    (h : s.step env (.receive buffer) = some s') : s.pc = .recv ∧ s' = s.stopped := by
  simp only [step, processCommand_withStop htest hid, Option.map_some,
    Option.ite_none_right_eq_some, Option.some.injEq] at h
  obtain ⟨⟨hpc, -⟩, rfl⟩ := h
  simp [hpc, commandDone, afterCommand, afterClient, enterWait, stopped, ProxyState.stop,
    ProxyState.cancelWait]

theorem step_move (htest : env.readJson strCommandTest = some stopprocTree)
    (hid : env.lib.uint8 "1" = some 1) (h : s.step env a = some s') : s.Move a s' := by
  cases a with
  | receive buffer =>
    obtain ⟨hpc, rfl⟩ := step_receive htest hid h
    exact .receive buffer hpc
  | createOk | createFails | listenOk | listenFails | connect | acceptFails | recvFails |
      waitFails =>
    simp only [step, Option.ite_none_right_eq_some, Option.some.injEq] at h
    obtain ⟨hpc, rfl⟩ := h
    constructor
    exact hpc
  | peerCloses | joined =>
    simp only [step, Option.ite_none_right_eq_some, Option.some.injEq] at h
    obtain ⟨⟨hpc, -⟩, rfl⟩ := h
    constructor
    exact hpc
  | readable fd =>
    simp only [step, Option.ite_none_right_eq_some, Option.some.injEq] at h
    obtain ⟨⟨-, hlive⟩, rfl⟩ := h
    exact .readable fd hlive
  | signal =>
    simp only [step, Option.ite_none_left_eq_some, Option.some.injEq] at h
    obtain ⟨hlive, rfl⟩ := h
    exact .signal hlive
  | waitReturns events =>
    simp only [step, Option.ite_none_right_eq_some, Option.some.injEq] at h
    obtain ⟨⟨hpc, hopen, -⟩, rfl⟩ := h
    exact .waitReturns events hpc hopen

theorem afterCommand_of_running (h : s.stopCommandIntf = false) :
    s.afterCommand = { s with pc := .recv } := by
  simp [afterCommand, h]

theorem afterClient_of_running (h : s.stopCommandIntf = false) :
    s.afterClient = { s with pc := .accept } := by
  simp [afterClient, h]

theorem afterWait_of_done (h : s.proxy.continueProcessing = false) :
    s.afterWait = { s with pc := .joinThreads } := by
  simp [afterWait, h]

/-- Until `Listen` has returned no command has been processed; afterwards the epoll handle
is closed, and it was so when the event loop was entered. -/
structure Unrouted (s : MainState) : Prop where
  handed : s.handed = []
  before : s.pc.afterListen = false → s.stopCommandIntf = false ∧ s.firstWait = none
  after : s.pc.afterListen = true → s.proxy.ePollOpen = false ∧
    s.proxy.continueProcessing = false ∧ s.firstWait = some false

theorem unrouted_start (registered : List Fd) : (start registered).Unrouted :=
  ⟨rfl, fun _ => ⟨rfl, rfl⟩, nofun⟩

theorem Unrouted.move (hi : s.Unrouted) (hm : s.Move a s') : s'.Unrouted := by
  cases hm with
  | createOk hpc | createFails hpc | listenOk hpc | listenFails hpc | acceptFails hpc =>
    exact ⟨hi.handed, fun _ => hi.before (by rw [hpc]; rfl), nofun⟩
  | connect hpc =>
    have hbefore := hi.before (by rw [hpc]; rfl)
    have hrunning : s.openClient.stopCommandIntf = false := hbefore.1
    rw [afterCommand_of_running hrunning]
    exact ⟨hi.handed, fun _ => hbefore, nofun⟩
  | receive buffer hpc =>
    have hwait := (hi.before (by rw [hpc]; rfl)).2
    exact ⟨hi.handed, nofun, fun _ => ⟨rfl, rfl, by simp [stopped, hwait]⟩⟩
  | peerCloses hpc =>
    have hbefore := hi.before (by rw [hpc]; rfl)
    have hrunning : s.closeClient.stopCommandIntf = false := hbefore.1
    rw [afterCommand_of_running hrunning]
    exact ⟨hi.handed, fun _ => hbefore, nofun⟩
  | recvFails hpc =>
    have hbefore := hi.before (by rw [hpc]; rfl)
    have hrunning : s.closeClient.stopCommandIntf = false := hbefore.1
    rw [afterClient_of_running hrunning]
    exact ⟨hi.handed, fun _ => hbefore, nofun⟩
  | readable fd => exact ⟨hi.handed, hi.before, hi.after⟩
  | signal => exact ⟨hi.handed, hi.before, fun h => ⟨rfl, rfl, (hi.after h).2.2⟩⟩
  | waitReturns events hpc hopen =>
    have hclosed := (hi.after (by rw [hpc]; rfl)).1
    rw [hopen] at hclosed
    cases hclosed
  | waitFails hpc =>
    obtain ⟨hclosed, hdone, hwait⟩ := hi.after (by rw [hpc]; rfl)
    rw [afterWait_of_done hdone]
    exact ⟨hi.handed, nofun, fun _ => ⟨hclosed, hdone, hwait⟩⟩
  | joined hpc => exact ⟨hi.handed, nofun, fun _ => hi.after (by rw [hpc]; rfl)⟩

theorem unrouted_reaches {registered : List Fd}
    (htest : env.readJson strCommandTest = some stopprocTree) (hid : env.lib.uint8 "1" = some 1)
    {ok : MainState → MainAction → Prop}
    (h : Reaches (step env) ok (start registered) s) : s.Unrouted :=
  h.invariant (unrouted_start registered) fun _ _ _ hi _ hs => hi.move (step_move htest hid hs)

/-- Every receiver that became readable before a stop request has been handed over, and
the event loop was not entered with a closed epoll handle. -/
def TrafficRouted (s : MainState) : Prop :=
  (∀ fd ∈ s.early, fd ∈ s.handed) ∧ s.firstWait ≠ some false

instance (s : MainState) : Decidable s.TrafficRouted :=
  inferInstanceAs (Decidable ((∀ fd ∈ s.early, fd ∈ s.handed) ∧ s.firstWait ≠ some false))

/-- The step is not the receipt of a command, and no receiver becomes readable before a
stop request. -/
def NothingToDo (s : MainState) : MainAction → Prop
  | .receive _ => False
  | .readable _ => s.stopRequested = true
  | _ => True

instance (s : MainState) (a : MainAction) : Decidable (s.NothingToDo a) :=
  match a with
  | .receive _ => .isFalse id
  | .readable _ => inferInstanceAs (Decidable (s.stopRequested = true))
  | .createOk | .createFails | .listenOk | .listenFails | .connect | .acceptFails | .peerCloses
  | .recvFails | .signal | .waitReturns _ | .waitFails | .joined => .isTrue trivial

def Idle (s : MainState) : Prop := s.early = [] ∧ s.firstWait = none

theorem Move.idle (hi : s.Unrouted) (hm : s.Move a s') :
    s'.Idle ↔ s.Idle ∧ s.NothingToDo a := by
  cases hm with
  | receive buffer hpc => simp [Idle, NothingToDo, stopped]
  | readable fd =>
    by_cases hreq : s.stopRequested = true
    · simp [Idle, NothingToDo, arrived, hreq]
    · simp [Idle, NothingToDo, arrived, hreq]
  | connect hpc =>
    have hrunning : s.openClient.stopCommandIntf = false := (hi.before (by rw [hpc]; rfl)).1
    rw [afterCommand_of_running hrunning]
    simp [Idle, NothingToDo, openClient]
  | peerCloses hpc =>
    have hrunning : s.closeClient.stopCommandIntf = false := (hi.before (by rw [hpc]; rfl)).1
    rw [afterCommand_of_running hrunning]
    simp [Idle, NothingToDo, closeClient]
  | recvFails hpc =>
    have hrunning : s.closeClient.stopCommandIntf = false := (hi.before (by rw [hpc]; rfl)).1
    rw [afterClient_of_running hrunning]
    simp [Idle, NothingToDo, closeClient]
  | waitReturns events hpc hopen =>
    have hclosed := (hi.after (by rw [hpc]; rfl)).1
    rw [hopen] at hclosed
    cases hclosed
  | waitFails hpc =>
    rw [afterWait_of_done (hi.after (by rw [hpc]; rfl)).2.1]
    simp [Idle, NothingToDo]
  | _ => simp [Idle, NothingToDo]

theorem idle_iff {registered : List Fd}
    (htest : env.readJson strCommandTest = some stopprocTree) (hid : env.lib.uint8 "1" = some 1)
    (h : Reaches (step env) anyStep (start registered) s) :
    s.Idle ↔ Reaches (step env) NothingToDo (start registered) s := by
  apply h.iff_guarded (I := Unrouted) (unrouted_start registered) ⟨rfl, rfl⟩
  · intro s a s' hi hs
    exact hi.move (step_move htest hid hs)
  · intro s a s' hi hs
    exact (step_move htest hid hs).idle hi

/-- **Traffic is routed** in a complete run exactly when no command was received and no
receiver became readable before a stop request: `main` then ends in a failing call of
`Create` or `Listen`. -/
theorem traffic_routed_iff {registered : List Fd}
    (htest : env.readJson strCommandTest = some stopprocTree) (hid : env.lib.uint8 "1" = some 1)
    (h : Reaches (step env) anyStep (start registered) s) (hdone : s.Finished) :
    s.TrafficRouted ↔ Reaches (step env) NothingToDo (start registered) s := by
  have hi := unrouted_reaches htest hid h
  rw [← idle_iff htest hid h]
  constructor
  · rintro ⟨hearly, hwait⟩
    rw [hi.handed] at hearly
    refine ⟨List.eq_nil_iff_forall_not_mem.mpr fun fd hfd => List.not_mem_nil (hearly fd hfd), ?_⟩
    rcases hdone with hpc | hpc
    · exact absurd (hi.after (by rw [hpc]; rfl)).2.2 hwait
    · exact (hi.before (by rw [hpc]; rfl)).2
  · rintro ⟨hearly, hwait⟩
    exact ⟨by simp [hearly], by simp [hwait]⟩

/-- A signal stops the proxy, then a receiver becomes readable and `accept` fails. -/
theorem traffic_routed_accept_fails : ∃ s : MainState, s.Finished ∧ 3 ∈ s.ready ∧
    s.TrafficRouted := by
  obtain ⟨s, hs, hdone, hready⟩ : ∃ s, Reaches (step (sampleEnv ProxyState)) NothingToDo
      (start [3]) s ∧ s.Finished ∧ 3 ∈ s.ready :=
    exists_reaches_of_runChecked [.createOk, .listenOk, .signal, .readable 3, .acceptFails]
      (by decide)
  have h : Reaches (step (sampleEnv ProxyState)) anyStep (start [3]) s :=
    hs.mono fun _ _ _ => trivial
  exact ⟨s, hdone, hready, (traffic_routed_iff rfl rfl h hdone).mpr hs⟩

/-- A receiver becomes readable, a client connects and sends a command, and `main` returns
without having handed over anything. -/
theorem readable_receiver_never_handed : ¬ ∀ s,
    Reaches (step (sampleEnv ProxyState)) anyStep (start [3]) s → s.Finished →
      s.TrafficRouted := by
  intro hstated
  obtain ⟨s, hs, hdone, hmissed⟩ : ∃ s, Reaches (step (sampleEnv ProxyState)) anyStep
      (start [3]) s ∧ s.Finished ∧ ¬ s.TrafficRouted :=
    exists_reaches_of_runChecked [.createOk, .listenOk, .readable 3, .connect,
      .receive (bytes "[\x7b\"name\": \"stopstats\",\"id\":3\x7d]"), .waitFails, .joined]
      (by decide)
  exact hmissed (hstated s hs hdone)

end MainState
end MddProxy
