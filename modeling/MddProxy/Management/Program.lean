import MddProxy.Config.EventBuffer
import MddProxy.Management.MainLoop
import MddProxy.Dispatch.Termination

/-!
# The program from its start to its end

`main` runs beside the threads that the constructor has started. They sleep until a client
sends a command: the command stops the proxy, `Listen` returns and `WaitForData` is called.
With a receiver registered, its `memset` overruns the buffer of events, and that is all that
can be said. Without one, the closed epoll handle ends the event loop, and `JoinThreads`
waits for the threads to leave; only a thread that misses the signal of `FinishAndDie` keeps
it waiting. No signal arrives at the process.
-/
namespace MddProxy

open Interleaving CommandEnv

/-- `main`, the dispatcher with its threads, and the buffer of the `Epoller`. -/
structure Program where
  main : MainState
  dispatcher : Lifetime
  events : EventBuffer

namespace Program

inductive Label where
  /-- A step of `main` outside the dispatcher, or its call of `Stop` or `ProcessData`. -/
  | main (a : MainAction)
  /-- A datagram arrives on a registered receiver. -/
  | arrive (fd : Fd) (d : Datagram)
  /-- A step of `main` inside the dispatcher, or of a worker's thread. -/
  | dispatcher (c : Lifetime.Label)
  deriving DecidableEq, Repr

def InCall (p : Program) : Prop :=
  p.dispatcher.lockFree = false ∨ p.dispatcher.dispatching ≠ .idle ∨
    (p.dispatcher.joining ≠ .idle ∧ p.dispatcher.joining ≠ .done)

instance (p : Program) : Decidable p.InCall := inferInstanceAs (Decidable (_ ∨ _ ∨ _ ∧ _))

def calls (main' : MainState) : MainAction → Option Lifetime.Label
  | .receive _ => if main'.proxy.threadsWoken = true then some (.system .stop) else none
  | .waitReturns events => some (.system (.processData events))
  | .createOk | .createFails | .listenOk | .listenFails | .connect | .acceptFails => none
  | .peerCloses | .recvFails | .readable _ | .signal | .waitFails | .joined => none

def waits (events : EventBuffer) : MainAction → EventBuffer
  | .waitReturns evList => events.waited evList
  | .waitFails => events.waited []
  | .createOk | .createFails | .listenOk | .listenFails | .connect | .acceptFails => events
  | .receive _ | .peerCloses | .recvFails | .readable _ | .signal | .joined => events

/-- The steps of the dispatcher that are neither calls from `main` nor arrivals.
`JoinThreads` is called at its place in `main`. -/
def Admits (p : Program) : Lifetime.Label → Prop
  | .joinThreads => p.main.pc = .joinThreads ∧ ¬ p.InCall
  | .join | .system .sweep | .system .dispatch | .system .add => ¬ p.main.Finished
  | .system (.thread _ _) | .system (.sendFails _ _) => ¬ p.main.Finished
  | .system (.arrive _ _) | .system (.processData _) | .system (.addWorkers _) => False
  | .system .stop => False

instance (p : Program) (c : Lifetime.Label) : Decidable (p.Admits c) :=
  match c with
  | .joinThreads => inferInstanceAs (Decidable (_ ∧ _))
  | .join | .system .sweep | .system .dispatch | .system .add | .system (.thread _ _)
  | .system (.sendFails _ _) => inferInstanceAs (Decidable (¬ _))
  | .system (.arrive _ _) | .system (.processData _) | .system (.addWorkers _)
  | .system .stop => .isFalse id

/-- `main` itself takes a step; `JoinThreads` has to return first. -/
def mainStep (env : CommandEnv ProxyState) (p : Program) (a : MainAction) : Option Program :=
  if p.InCall ∨ a = .joined ∧ p.dispatcher.joining ≠ .done then none
  else (p.main.step env a).bind fun main' =>
    let events := waits p.events a
    if events.Overrun then some { p with events }
    else match calls main' a with
    | none => some { p with main := main', events }
    | some c => (p.dispatcher.step c).map fun l => ⟨main', l, events⟩

def step (env : CommandEnv ProxyState) (p : Program) (a : Label) : Option Program :=
  if p.events.Overrun then none
  else match a with
  | .main .signal | .main (.readable _) => none
  | .main a => p.mainStep env a
  | .arrive fd d =>
    (p.main.step env (.readable fd)).bind fun main' =>
      (p.dispatcher.step (.system (.arrive fd d))).map fun l => ⟨main', l, p.events⟩
  | .dispatcher c =>
    if p.Admits c then (p.dispatcher.step c).map fun l => { p with dispatcher := l } else none

/-- After the constructor, with `count` workers. -/
def start (registered : List Fd) (count : ℕ) (senders : Fd → Option ℕ)
    (junk : Junk) : Program where
  main := .start registered
  dispatcher := .start count senders junk
  events := { EventBuffer.new with fdCount := UInt32.ofNat registered.length }

def Working (_ : Program) : Label → Prop
  | .arrive _ _ => False
  | .main _ | .dispatcher _ => True

/-- Every step but an arrival and a thread's return from `Pause`. -/
def Awake (p : Program) : Label → Prop
  | .arrive _ _ => False
  | .main _ => True
  | .dispatcher c => ¬ p.dispatcher.Waking c

end Program

def RunPc.unused : RunPc → Bool
  | .loop | .paused | .exited => true
  | _ => false

/-- The steps the thread still takes before it has left `Run`, by its control slot. -/
def RunPc.ahead (st : WorkerState) : RunPc → ℕ
  | .loop => if st = .terminate then 1 else 3
  | .paused => 2
  | _ => 0

structure Worker.Unused (wk : Worker) : Prop where
  state : wk.state = .sleepWait ∨ wk.state = .terminate
  threads : ∀ pc ∈ wk.threads, pc.unused = true

def StopPc.left : StopPc → ℕ
  | .sweeping i n => n - i + 1
  | .idle | .done => 0

def Worker.ahead (wk : Worker) : ℕ := weigh (RunPc.ahead wk.state) wk.threads

namespace System

def Action.feeds : Action → Bool
  | .processData _ | .addWorkers _ => true
  | _ => false

structure Dormant (s : System) : Prop where
  dispatching : s.dispatching = .idle
  adding : s.adding = .idle
  unused : ∀ wk ∈ s.heap, wk.Unused
  enrolled : ∀ w ∈ s.workers, w < s.heap.length
  fault : s.fault = none

def ahead (s : System) : ℕ := weigh Worker.ahead s.heap

variable {s s' : System} {w k : ℕ} {wk : Worker} {pc : RunPc}

theorem dormant_start (count : ℕ) (senders : Fd → Option ℕ) (junk : Junk) :
    (start count senders junk).Dormant where
  dispatching := rfl
  adding := rfl
  unused := by
    intro wk hwk
    obtain ⟨i, -, rfl⟩ := List.mem_map.mp hwk
    exact ⟨.inl rfl, by simp [Worker.created, RunPc.unused]⟩
  enrolled := by simp [start]
  fault := rfl

theorem Dormant.put {wk' : Worker} (hd : s.Dormant) (hheap : s'.heap = s.heap.set w wk')
    (hunused : wk'.Unused) (hdisp : s'.dispatching = s.dispatching)
    (hadd : s'.adding = s.adding) (hworkers : s'.workers = s.workers)
    (hfault : s'.fault = s.fault) : s'.Dormant where
  dispatching := hdisp.trans hd.dispatching
  adding := hadd.trans hd.adding
  unused := by
    rw [hheap]
    exact forall_mem_set hd.unused hunused
  enrolled := by
    rw [hworkers, hheap, List.length_set]
    exact hd.enrolled
  fault := hfault.trans hd.fault

theorem ahead_put {wk' : Worker} (hw : s.heap[w]? = some wk)
    (hheap : s'.heap = s.heap.set w wk') : s'.ahead + wk.ahead = s.ahead + wk'.ahead := by
  unfold ahead
  rw [hheap]
  exact weigh_set Worker.ahead wk' hw

theorem unused_run (hu : wk.Unused) (hpc : wk.threads[k]? = some pc)
    (hm : RunMove s w wk k pc s') :
    ∃ pc', s' = s.put w (wk.jump k pc') ∧ (wk.jump k pc').Unused ∧
      (wk.jump k pc').ahead < wk.ahead := by
  have hpoint := hu.threads pc (List.mem_of_getElem? hpc)
  have hjump : ∀ pc', pc'.unused = true → pc'.ahead wk.state < pc.ahead wk.state →
      (wk.jump k pc').Unused ∧ (wk.jump k pc').ahead < wk.ahead := by
    intro pc' hunused hlt
    have hset := weigh_set (RunPc.ahead wk.state) pc' hpc
    refine ⟨⟨hu.state, forall_mem_set hu.threads hunused⟩, ?_⟩
    simp only [Worker.ahead, Worker.jump_state, Worker.jump_threads]
    omega
  cases hm with
  | seeSleep hst =>
    have hsleep : wk.state = .sleepWait := by
      rcases hu.state with h | h
      · exact h
      · simp [h, WorkerState.sleeping] at hst
    exact ⟨.paused, rfl, hjump .paused rfl (by simp [RunPc.ahead, hsleep])⟩
  | seeTerminate hst => exact ⟨.exited, rfl, hjump .exited rfl (by simp [RunPc.ahead, hst])⟩
  | wake hst =>
    have htold : wk.state = .terminate := by
      rcases hu.state with h | h
      · simp [h, WorkerState.sleeping] at hst
      · exact h
    exact ⟨.loop, rfl, hjump .loop rfl (by simp [RunPc.ahead, htold])⟩
  | seeResume hst => rcases hu.state with h | h <;> simp [h] at hst
  | _ => simp [RunPc.unused] at hpoint

theorem Dormant.sendFails (hd : s.Dormant) : s.step (.sendFails w k) = none := by
  simp only [step, hd.fault, Option.isSome_none, Bool.false_eq_true, if_false]
  unfold sendFailsStep
  cases hw : s.heap[w]? with
  | none => rfl
  | some wk =>
    cases hpc : wk.threads[k]? with
    | none => simp [hpc]
    | some pc =>
      have hpoint := (hd.unused wk (List.mem_of_getElem? hw)).threads pc (List.mem_of_getElem? hpc)
      cases pc <;> simp [RunPc.unused, hpc] at hpoint ⊢

theorem ahead_terminate (wk : Worker) : (wk.setState .terminate).ahead ≤ wk.ahead := by
  unfold Worker.ahead weigh
  apply List.sum_le_sum
  intro pc _
  cases pc <;> simp [RunPc.ahead]
  split <;> omega

structure Calm (s : System) (a : Action) (s' : System) : Prop where
  dormant : s'.Dormant
  workers : s'.workers = s.workers
  ahead : s'.ahead ≤ s.ahead
  stopping : match a with
    | .stop => s'.stopping ≠ .idle
    | .sweep => s'.stopping ≠ .idle ∧ s'.stopping.left < s.stopping.left
    | .thread _ _ => s'.stopping = s.stopping ∧ s'.ahead < s.ahead
    | .arrive _ _ => s'.stopping = s.stopping
    | _ => False

/-- Only arrivals, the sweep and the workers' threads go on. -/
theorem Dormant.step {a : Action} (hd : s.Dormant) (ha : a.feeds = false)
    (hs : s.step a = some s') : s.Calm a s' := by
  cases (step_move hs).2 with
  | processData | addWorkers => simp [Action.feeds] at ha
  | dispatch pc s' hpc hm =>
    rw [← hpc, hd.dispatching] at hm
    cases hm
  | add pc s' hpc hm =>
    rw [← hpc, hd.adding] at hm
    cases hm
  | stop => exact ⟨{ hd with }, rfl, Nat.le_refl _, by simp⟩
  | sweep pc s' hpc hm =>
    cases hm with
    | finishAndDie i n w wk hi _ hw =>
      have hunused := hd.unused wk (List.mem_of_getElem? hw)
      have hset := ahead_put hw (rfl : (s.put w (wk.setState .terminate)).heap = _)
      have hle := ahead_terminate wk
      refine ⟨hd.put rfl ⟨.inr rfl, hunused.threads⟩ rfl rfl rfl rfl, rfl, ?_, by simp, ?_⟩
      · change (s.put w (wk.setState .terminate)).ahead ≤ s.ahead
        omega
      · rw [hpc]
        simp only [StopPc.left]
        omega
    | finish i n =>
      refine ⟨{ hd with }, rfl, Nat.le_refl _, by simp, ?_⟩
      rw [hpc]
      exact Nat.succ_pos _
  | thread w k wk pc s' hw hpc hm =>
    obtain ⟨pc', rfl, hunused, hlt⟩ := unused_run (hd.unused wk (List.mem_of_getElem? hw)) hpc hm
    have hset := ahead_put hw (rfl : (s.put w (wk.jump k pc')).heap = _)
    exact ⟨hd.put rfl hunused rfl rfl rfl rfl, rfl, by omega, rfl, by omega⟩
  | sendFails w k =>
    rw [hd.sendFails] at hs
    cases hs
  | arrive => exact ⟨{ hd with }, rfl, Nat.le_refl _, rfl⟩

theorem Dormant.closesDown {l : Lifetime} (hd : l.Dormant) (c : Lifetime.Label) :
    l.ClosesDown c := by
  cases c with
  | joinThreads | join => trivial
  | system a =>
    refine ⟨?_, ?_, ?_⟩
    · cases a with
      | sweep =>
        refine fun w _ => ⟨by simp [hd.dispatching, DispatchPc.worker], fun wk hwk => ?_⟩
        rw [Worker.threadsAt, weigh_eq_zero]
        intro pc hpc
        have hpoint := (hd.unused wk (List.mem_of_getElem? hwk)).threads pc hpc
        cases pc <;> simp [RunPc.unused, RunPc.beforeStateWrite] at hpoint ⊢
      | dispatch =>
        intro _
        simp [hd.dispatching, DispatchPc.getting, DispatchPc.enrolling]
      | add =>
        intro _
        simp [hd.adding, AddPc.enrolling]
      | _ => trivial
    · simp [hd.dispatching, DispatchPc.creatingAgain]
    · simp [hd.adding, AddPc.enrolling]

end System

def MainPc.left : MainPc → ℕ
  | .waitForData => 2
  | .joinThreads => 1
  | _ => 0

namespace MainState

variable {s s' : MainState} {env : CommandEnv ProxyState} {a : MainAction}

/-- Before the first command: `main` stays before the end of `Listen`, or gets the command. -/
theorem Unrouted.listening (hi : s.Unrouted) (hbefore : s.pc.afterListen = false)
    (ha : a ≠ .signal) (hm : s.Move a s') :
    s'.pc.afterListen = false ∧ s'.stopRequested = s.stopRequested ∧ Program.calls s' a = none ∨
      ∃ buffer, a = .receive buffer ∧ s' = s.stopped := by
  have hrunning := (hi.before hbefore).1
  cases hm with
  | receive buffer => exact .inr ⟨buffer, rfl, rfl⟩
  | signal => exact absurd rfl ha
  | connect =>
    have h : s.openClient.stopCommandIntf = false := hrunning
    rw [afterCommand_of_running h]
    exact .inl ⟨rfl, rfl, rfl⟩
  | peerCloses =>
    have h : s.closeClient.stopCommandIntf = false := hrunning
    rw [afterCommand_of_running h]
    exact .inl ⟨rfl, rfl, rfl⟩
  | recvFails =>
    have h : s.closeClient.stopCommandIntf = false := hrunning
    rw [afterClient_of_running h]
    exact .inl ⟨rfl, rfl, rfl⟩
  | readable fd => exact .inl ⟨hbefore, rfl, rfl⟩
  | waitReturns _ hpc | waitFails hpc | joined hpc => simp [hpc, MainPc.afterListen] at hbefore
  | _ => exact .inl ⟨rfl, rfl, rfl⟩

theorem Unrouted.leaving (hi : s.Unrouted) (hafter : s.pc.afterListen = true)
    (hm : s.Move a s') (ha : a ≠ .signal) (hr : ∀ fd, a ≠ .readable fd) :
    a = .waitFails ∧ s.pc = .waitForData ∧ s' = { s with pc := .joinThreads } ∨
      a = .joined ∧ s.pc = .joinThreads ∧ s' = { s with pc := .returned } := by
  obtain ⟨hclosed, hdone, -⟩ := hi.after hafter
  cases hm with
  | waitFails hpc => exact .inl ⟨rfl, hpc, afterWait_of_done hdone⟩
  | joined hpc => exact .inr ⟨rfl, hpc, rfl⟩
  | waitReturns events _ hopen =>
    rw [hclosed] at hopen
    cases hopen
  | signal => exact absurd rfl ha
  | readable fd => exact absurd rfl (hr fd)
  | createOk hpc | createFails hpc | listenOk hpc | listenFails hpc | connect hpc
  | acceptFails hpc | receive buffer hpc | peerCloses hpc | recvFails hpc =>
    simp [hpc, MainPc.afterListen] at hafter

end MainState

namespace Program

variable {p p' : Program} {env : CommandEnv ProxyState}

structure Sound (p : Program) : Prop where
  unrouted : p.main.Unrouted
  dormant : p.dispatcher.Dormant
  closing : p.dispatcher.Closing
  slots : p.events.slots = 0

structure Up (p : Program) : Prop extends Sound p where
  listening : p.main.pc.afterListen = false
  running : p.main.stopRequested = false
  stopping : p.dispatcher.stopping = .idle
  joining : p.dispatcher.joining = .idle

structure GoingDown (p : Program) : Prop extends Sound p where
  after : p.main.pc.afterListen = true
  woken : p.main.proxy.threadsWoken = true
  stopping : p.dispatcher.stopping ≠ .idle
  joins : p.dispatcher.joining ≠ .idle →
    p.dispatcher.stopping = .done ∧ p.main.pc ≠ .waitForData
  returned : p.main.pc = .returned → p.dispatcher.joining = .done
  passed : p.main.pc ≠ .waitForData → p.events.fdCount = 0
  waiting : p.events.Overrun → p.main.pc = .waitForData ∧ p.events.fdCount ≠ 0

def left (p : Program) : ℕ :=
  (if p.events.Overrun then 0 else p.main.pc.left) + p.dispatcher.stopping.left +
    p.dispatcher.joining.leaving p.dispatcher.workers.length + p.dispatcher.ahead

theorem Sound.system {a : System.Action} {l : Lifetime} (hi : p.Sound) (ha : a.feeds = false)
    (hs : p.dispatcher.step (.system a) = some l) :
    p.dispatcher.Calm a l.toSystem ∧ l.Closing ∧ l.joining = p.dispatcher.joining := by
  have hclosing := hi.closing.step (hi.dormant.closesDown _) hs
  simp only [Lifetime.step, Option.ite_none_left_eq_some, Option.map_eq_some_iff] at hs
  obtain ⟨-, s', hs, rfl⟩ := hs
  exact ⟨hi.dormant.step ha hs, hclosing, rfl⟩

theorem mainStep_eq_some {a : MainAction} (hs : p.mainStep env a = some p') :
    ¬ p.InCall ∧ (a = .joined → p.dispatcher.joining = .done) ∧
      ∃ main', p.main.step env a = some main' ∧
        ((waits p.events a).Overrun ∧ p' = { p with events := waits p.events a } ∨
          ¬ (waits p.events a).Overrun ∧
            (calls main' a = none ∧ p' = ⟨main', p.dispatcher, waits p.events a⟩ ∨
              ∃ c l, calls main' a = some c ∧ p.dispatcher.step c = some l ∧
                p' = ⟨main', l, waits p.events a⟩)) := by
  unfold mainStep at hs
  split_ifs at hs with hcond
  obtain ⟨main', hmain, hs⟩ := Option.bind_eq_some_iff.mp hs
  refine ⟨fun h => hcond (.inl h), fun h => ?_, main', hmain, ?_⟩
  · by_contra hne
    exact hcond (.inr ⟨h, hne⟩)
  · dsimp only at hs
    split_ifs at hs with hover
    · exact .inl ⟨hover, (Option.some.inj hs).symm⟩
    · refine .inr ⟨hover, ?_⟩
      cases hc : calls main' a with
      | none =>
        rw [hc] at hs
        exact .inl ⟨rfl, (Option.some.inj hs).symm⟩
      | some c =>
        rw [hc] at hs
        obtain ⟨l, hl, rfl⟩ := Option.map_eq_some_iff.mp hs
        exact .inr ⟨c, l, rfl, hl, rfl⟩

theorem waits_of_move {s s' : MainState} {a : MainAction} (events : EventBuffer)
    (hm : s.Move a s') (hpc : s.pc ≠ .waitForData) : waits events a = events := by
  cases hm with
  | waitReturns _ h | waitFails h => exact absurd h hpc
  | _ => rfl

theorem not_overrun {a : Label} (hs : p.step env a = some p') : ¬ p.events.Overrun := by
  intro hover
  simp [step, hover] at hs

theorem step_main {a : MainAction} (hs : p.step env (.main a) = some p') :
    p.mainStep env a = some p' ∧ a ≠ .signal ∧ ∀ fd, a ≠ .readable fd := by
  have hfine := not_overrun hs
  cases a with
  | signal | readable => simp [step, hfine] at hs
  | _ =>
    simp only [step, if_neg hfine] at hs
    exact ⟨hs, by simp, by simp⟩

theorem step_arrive {fd : Fd} {d : Datagram} (hs : p.step env (.arrive fd d) = some p') :
    ∃ l, p.dispatcher.step (.system (.arrive fd d)) = some l ∧
      p' = ⟨p.main.arrived fd, l, p.events⟩ := by
  simp only [step, if_neg (not_overrun hs)] at hs
  obtain ⟨main', hmain, hs⟩ := Option.bind_eq_some_iff.mp hs
  obtain ⟨l, hl, rfl⟩ := Option.map_eq_some_iff.mp hs
  simp only [MainState.step, Option.ite_none_right_eq_some, Option.some.injEq] at hmain
  exact ⟨l, hl, by rw [hmain.2]⟩

theorem step_dispatcher {c : Lifetime.Label} (hs : p.step env (.dispatcher c) = some p') :
    p.Admits c ∧ ∃ l, p.dispatcher.step c = some l ∧ p' = { p with dispatcher := l } := by
  simp only [step, if_neg (not_overrun hs), Option.ite_none_right_eq_some, Option.map_eq_some_iff] at hs
  obtain ⟨hc, l, hl, rfl⟩ := hs
  exact ⟨hc, l, hl, rfl⟩

theorem unrouted_arrived {s : MainState} (hi : s.Unrouted) (fd : Fd) :
    (s.arrived fd).Unrouted := ⟨hi.handed, hi.before, hi.after⟩

/-- The buffer at the start is that of the proxy that has been constructed. -/
theorem start_events {proxy : Proxy} (hr : Registered proxy) (count : ℕ)
    (senders : Fd → Option ℕ) (junk : Junk) :
    (start proxy.epoller.registered count senders junk).events =
      EventBuffer.ofEpoller proxy.epoller := by
  simp only [start, EventBuffer.ofEpoller, hr.registered, hr.fdCount, List.length_map]

theorem up_start (registered : List Fd) (count : ℕ) (senders : Fd → Option ℕ)
    (junk : Junk) : (start registered count senders junk).Up where
  unrouted := MainState.unrouted_start registered
  dormant := System.dormant_start count senders junk
  closing := Lifetime.closing_start count senders junk
  slots := rfl
  listening := rfl
  running := rfl
  stopping := rfl
  joining := rfl

theorem Up.step {a : Label} (htest : env.readJson strCommandTest = some stopprocTree)
    (hid : env.lib.uint8 "1" = some 1) (hi : p.Up) (hs : p.step env a = some p') :
    p'.Up ∨ p'.GoingDown := by
  have hfine := not_overrun hs
  cases a with
  | main a =>
    obtain ⟨hs, hsignal, -⟩ := step_main hs
    obtain ⟨-, -, main', hmain, hs⟩ := mainStep_eq_some hs
    have hmove := MainState.step_move htest hid hmain
    have hunrouted := hi.unrouted.move hmove
    have hbefore : p.main.pc ≠ .waitForData := by
      intro hpc
      have hlistening := hi.listening
      simp [hpc, MainPc.afterListen] at hlistening
    rw [waits_of_move p.events hmove hbefore] at hs
    replace hs := (hs.resolve_left fun h => hfine h.1).2
    rcases hi.unrouted.listening hi.listening hsignal hmove with
      ⟨hlistening, hsame, hnone⟩ | ⟨buffer, rfl, rfl⟩
    · rcases hs with ⟨-, rfl⟩ | ⟨c, l, hc, -⟩
      · exact .inl ⟨⟨hunrouted, hi.dormant, hi.closing, hi.slots⟩, hlistening,
          hsame.trans hi.running, hi.stopping, hi.joining⟩
      · simp [hnone] at hc
    · have hcalls : calls p.main.stopped (.receive buffer) = some (.system .stop) := rfl
      rcases hs with ⟨hnone, -⟩ | ⟨c, l, hc, hl, rfl⟩
      · simp [hcalls] at hnone
      · obtain rfl : .system .stop = c := Option.some.inj (hcalls.symm.trans hc)
        obtain ⟨hcalm, hclosing, hjoining⟩ := hi.toSound.system rfl hl
        have hidle : l.joining = .idle := hjoining.trans hi.joining
        exact .inr ⟨⟨hunrouted, hcalm.dormant, hclosing, hi.slots⟩, rfl, rfl, hcalm.stopping,
          fun h => absurd hidle h, nofun, fun h => absurd rfl h, fun h => absurd h hfine⟩
  | arrive fd d =>
    obtain ⟨l, hl, rfl⟩ := step_arrive hs
    obtain ⟨hcalm, hclosing, hjoining⟩ := hi.toSound.system rfl hl
    exact .inl ⟨⟨unrouted_arrived hi.unrouted fd, hcalm.dormant, hclosing, hi.slots⟩, hi.listening,
      hi.running, hcalm.stopping.trans hi.stopping, hjoining.trans hi.joining⟩
  | dispatcher c =>
    obtain ⟨hadmits, l, hl, rfl⟩ := step_dispatcher hs
    left
    cases c with
    | joinThreads =>
      have hlistening := hi.listening
      simp [hadmits.1, MainPc.afterListen] at hlistening
    | join =>
      simp [Lifetime.step, Lifetime.joinStep, hi.joining] at hl
    | system a =>
      have hfeeds : a.feeds = false := by
        cases a <;> first | rfl | exact hadmits.elim
      obtain ⟨hcalm, hclosing, hjoining⟩ := hi.toSound.system hfeeds hl
      have hstopping : l.stopping = .idle := by
        have hstop := hcalm.stopping
        cases a with
        | sweep => simp [hi.stopping, StopPc.left] at hstop
        | stop => exact hadmits.elim
        | thread => exact hstop.1.trans hi.stopping
        | arrive => exact hstop.trans hi.stopping
        | _ => exact hstop.elim
      exact ⟨⟨hi.unrouted, hcalm.dormant, hclosing, hi.slots⟩, hi.listening, hi.running, hstopping,
        hjoining.trans hi.joining⟩

theorem not_inCall (h : ¬ p.InCall) (hne : p.dispatcher.stopping ≠ .idle) :
    p.dispatcher.stopping = .done := by
  have hfree : p.dispatcher.lockFree ≠ false := fun hl => h (.inl hl)
  cases hstop : p.dispatcher.stopping with
  | idle => exact absurd hstop hne
  | sweeping => simp [System.lockFree, hstop] at hfree
  | done => rfl

theorem GoingDown.dispatcher {c : Lifetime.Label} {l : Lifetime} (hi : p.GoingDown)
    (hadmits : p.Admits c) (hl : p.dispatcher.step c = some l) :
    GoingDown { p with dispatcher := l } ∧ left { p with dispatcher := l } < p.left := by
  have hclosing := hi.closing.step (hi.dormant.closesDown c) hl
  cases c with
  | joinThreads =>
    obtain ⟨hpc, hcall⟩ := hadmits
    have hdone := not_inCall hcall hi.stopping
    simp only [Lifetime.step, Option.ite_none_right_eq_some, Option.some.injEq] at hl
    obtain ⟨⟨-, hidle, -⟩, rfl⟩ := hl
    refine ⟨⟨⟨hi.unrouted, hi.dormant, hclosing, hi.slots⟩, hi.after, hi.woken, hi.stopping,
      fun _ => ⟨hdone, by simp [hpc]⟩, by simp [hpc], hi.passed, hi.waiting⟩, ?_⟩
    simp only [left, hidle, JoinPc.leaving]
    exact Nat.add_lt_add_right (by omega) _
  | join =>
    simp only [Lifetime.step, Option.ite_none_right_eq_some] at hl
    obtain ⟨hsystem, hjoining⟩ := Lifetime.joinStep_frame hl.2
    have hlt := hi.closing.joins.leaving_lt hl.2
    have hlive : p.main.pc ≠ .returned := fun h => hadmits (.inl h)
    refine ⟨⟨⟨hi.unrouted, ?_, hclosing, hi.slots⟩, hi.after, hi.woken, ?_, fun _ => ?_,
      fun h => absurd h hlive, hi.passed, hi.waiting⟩, ?_⟩
    · rw [hsystem]
      exact hi.dormant
    · rw [hsystem]
      exact hi.stopping
    · rw [hsystem]
      exact hi.joins hjoining
    · simp only [left, hsystem]
      omega
  | system a =>
    have hfeeds : a.feeds = false := by
      cases a <;> first | rfl | exact hadmits.elim
    obtain ⟨hcalm, -, hjoining⟩ := hi.toSound.system hfeeds hl
    have hworkers := hcalm.workers
    have hahead := hcalm.ahead
    have hstop := hcalm.stopping
    -- what is left to show of a step of the sweep or of a thread
    have hdown : l.stopping ≠ .idle →
        (p.dispatcher.joining ≠ .idle → l.stopping = .done) →
        l.stopping.left + l.ahead < p.dispatcher.stopping.left + p.dispatcher.ahead →
        GoingDown { p with dispatcher := l } ∧ left { p with dispatcher := l } < p.left := by
      intro hne hjoins hlt
      refine ⟨⟨⟨hi.unrouted, hcalm.dormant, hclosing, hi.slots⟩, hi.after, hi.woken, hne, ?_, ?_,
        hi.passed, hi.waiting⟩, ?_⟩
      · rw [hjoining]
        exact fun h => ⟨hjoins h, (hi.joins h).2⟩
      · rw [hjoining]
        exact hi.returned
      · simp only [left, hjoining, hworkers]
        omega
    cases a with
    | sweep =>
      apply hdown hstop.1
      · intro hj
        have hlt := hstop.2
        simp [(hi.joins hj).1, StopPc.left] at hlt
      · have hlt := hstop.2
        omega
    | thread w k =>
      apply hdown
      · rw [hstop.1]
        exact hi.stopping
      · rw [hstop.1]
        exact fun hj => (hi.joins hj).1
      · rw [hstop.1]
        have hlt := hstop.2
        omega
    | arrive | stop => exact hadmits.elim
    | _ => exact hstop.elim

/-- After it every step but an arrival brings the end nearer. -/
theorem GoingDown.step {a : Label} (htest : env.readJson strCommandTest = some stopprocTree)
    (hid : env.lib.uint8 "1" = some 1) (hi : p.GoingDown) (hs : p.step env a = some p') :
    p'.GoingDown ∧ p'.left ≤ p.left ∧ (p.Working a → p'.left < p.left) := by
  have hless : p'.GoingDown ∧ p'.left < p.left →
      p'.GoingDown ∧ p'.left ≤ p.left ∧ (p.Working a → p'.left < p.left) :=
    fun h => ⟨h.1, Nat.le_of_lt h.2, fun _ => h.2⟩
  have hfine := not_overrun hs
  cases a with
  | main a =>
    apply hless
    obtain ⟨hs, hsignal, hreadable⟩ := step_main hs
    obtain ⟨-, hjoined, main', hmain, hs⟩ := mainStep_eq_some hs
    have hmove := MainState.step_move htest hid hmain
    have hunrouted := hi.unrouted.move hmove
    rcases hi.unrouted.leaving hi.after hmove hsignal hreadable with
      ⟨rfl, hpc, rfl⟩ | ⟨rfl, hpc, rfl⟩
    · have hcleared : (waits p.events .waitFails).Overrun ↔ p.events.fdCount ≠ 0 :=
        EventBuffer.overrun_waited hi.slots hfine
      rcases hs with ⟨hover, rfl⟩ | ⟨hsafe, ⟨-, rfl⟩ | ⟨c, l, hc, -⟩⟩
      -- the `memset` overruns the buffer
      · refine ⟨⟨⟨hi.unrouted, hi.dormant, hi.closing, hi.slots⟩, hi.after, hi.woken, hi.stopping,
          hi.joins, hi.returned, fun h => absurd hpc h,
          fun _ => ⟨hpc, hcleared.mp hover⟩⟩, ?_⟩
        simp only [left, hover, hfine, hpc, MainPc.left, if_true, if_false]
        omega
      · have hcount : p.events.fdCount = 0 := by
          by_contra hne
          exact hsafe (hcleared.mpr hne)
        refine ⟨⟨⟨hunrouted, hi.dormant, hi.closing, hi.slots⟩, rfl, hi.woken, hi.stopping,
          fun h => ⟨(hi.joins h).1, by simp⟩, nofun, fun _ => hcount, fun h => absurd h hsafe⟩, ?_⟩
        simp only [left, hsafe, hfine, hpc, MainPc.left, if_false]
        omega
      · cases hc
    · replace hs := (hs.resolve_left fun h => hfine h.1).2
      rcases hs with ⟨-, rfl⟩ | ⟨c, l, hc, -⟩
      · refine ⟨⟨⟨hunrouted, hi.dormant, hi.closing, hi.slots⟩, rfl, hi.woken, hi.stopping,
          fun h => ⟨(hi.joins h).1, by simp⟩, fun _ => hjoined rfl,
          fun _ => hi.passed (by simp [hpc]), fun h => absurd h hfine⟩, ?_⟩
        simp only [left, waits, hfine, hpc, MainPc.left, if_false]
        omega
      · cases hc
  | arrive fd d =>
    obtain ⟨l, hl, rfl⟩ := step_arrive hs
    obtain ⟨hcalm, hclosing, hjoining⟩ := hi.toSound.system rfl hl
    have hstopping : l.stopping = p.dispatcher.stopping := hcalm.stopping
    refine ⟨⟨⟨unrouted_arrived hi.unrouted fd, hcalm.dormant, hclosing, hi.slots⟩, hi.after,
      hi.woken, ?_, ?_, ?_, hi.passed, hi.waiting⟩, ?_, fun h => h.elim⟩
    · rw [hstopping]
      exact hi.stopping
    · rw [hjoining, hstopping]
      exact hi.joins
    · rw [hjoining]
      exact hi.returned
    · have hahead := hcalm.ahead
      simp only [left, hstopping, hjoining, hcalm.workers, MainState.arrived]
      omega
  | dispatcher c =>
    apply hless
    obtain ⟨hadmits, l, hl, rfl⟩ := step_dispatcher hs
    exact hi.dispatcher hadmits hl

theorem spends_left (htest : env.readJson strCommandTest = some stopprocTree)
    (hid : env.lib.uint8 "1" = some 1) :
    Spends (step env) anyStep Working GoingDown left where
  keeps _ _ _ hi _ hs := (hi.step htest hid hs).1
  le _ _ _ hi _ hs := (hi.step htest hid hs).2.1
  lt _ _ _ hi _ hworking hs := (hi.step htest hid hs).2.2 hworking

theorem GoingDown.sweep_ends (hi : p.GoingDown) (hfine : ¬ p.events.Overrun)
    (hlive : ¬ p.main.Finished) (hrest : Rests (Program.step env) Awake p) : p.dispatcher.stopping = .done := by
  have hstuck := hrest (.dispatcher (.system .sweep)) id
  have hnone : p.dispatcher.toSystem.step .sweep = none := by
    simpa [Program.step, hfine, Admits, hlive, Lifetime.step, Lifetime.refuses] using hstuck
  simp only [System.step, hi.dormant.fault, Option.isSome_none, Bool.false_eq_true, if_false,
    System.sweepStep] at hnone
  cases hstop : p.dispatcher.stopping with
  | idle => exact absurd hstop hi.stopping
  | done => rfl
  | sweeping i n =>
    simp only [hstop] at hnone
    have hn := hi.closing.sweep.covers i n hstop
    by_cases hin : i < n
    · have hlt : i < p.dispatcher.workers.length := by omega
      have hget : p.dispatcher.workers[i]? = some p.dispatcher.workers[i] :=
        List.getElem?_eq_getElem hlt
      have henrolled := hi.dormant.enrolled _ (List.getElem_mem hlt)
      simp [hin, hget, List.getElem?_eq_getElem henrolled] at hnone
    · simp [hin] at hnone

/-- `JoinThreads` is called, goes on and returns, and then `main` does, unless a thread is
waited for that is in `Pause`. -/
theorem GoingDown.returns (hi : p.GoingDown) (hfine : ¬ p.events.Overrun)
    (hrest : Rests (Program.step env) Awake p) :
    p.main.pc = .returned ∨ p.main.pc = .joinThreads ∧ p.dispatcher.WaitsForPaused := by
  by_cases hreturned : p.main.pc = .returned
  · exact .inl hreturned
  have hlive : ¬ p.main.Finished := by
    rintro (h | h)
    · exact hreturned h
    · have hafter := hi.after
      simp [h, MainPc.afterListen] at hafter
  have hdone := hi.sweep_ends hfine hlive hrest
  have hstuck : ∀ a, p.Awake a → p.step env a = none := hrest
  have hfree : p.dispatcher.lockFree = true := by simp [System.lockFree, hdone]
  -- the dispatcher is at rest too, so a `JoinThreads` that has been called has returned or waits
  have hjoined : p.dispatcher.joining ≠ .idle →
      p.dispatcher.joining = .done ∨ p.dispatcher.WaitsForPaused := by
    intro hjoining
    have hswept : p.dispatcher.Swept := ⟨hi.closing, hdone⟩
    refine (hswept.joined hi.dormant.fault ?_ hjoining).imp And.left id
    rintro c ⟨-, hending, hawake⟩
    have hadmits : p.Admits c := by
      cases c with
      | joinThreads => exact hending.elim
      | join => exact hlive
      | system a => cases a <;> first | exact hlive | exact hending.elim
    have hnone := hstuck (.dispatcher c) hawake
    simpa [Program.step, hfine, hadmits] using hnone
  by_cases hwaits : p.dispatcher.WaitsForPaused
  · obtain ⟨i, n, hjoining, -⟩ := id hwaits
    have hpc := (hi.joins (by simp [hjoining])).2
    refine .inr ⟨?_, hwaits⟩
    cases h : p.main.pc with
    | joinThreads => rfl
    | returned => exact absurd h hreturned
    | waitForData => exact absurd h hpc
    | _ =>
      have hafter := hi.after
      simp [h, MainPc.afterListen] at hafter
  · have hjoined : p.dispatcher.joining ≠ .idle → p.dispatcher.joining = .done :=
      fun h => (hjoined h).resolve_right hwaits
    have hcall : ¬ p.InCall := by
      rintro (h | h | ⟨h, hnot⟩)
      · simp [hfree] at h
      · exact h hi.dormant.dispatching
      · exact hnot (hjoined h)
    exfalso
    cases hpc : p.main.pc with
    | returned => exact hreturned hpc
    | waitForData =>
      have hnone := hstuck (.main .waitFails) trivial
      simp only [Program.step, if_neg hfine, mainStep, hcall, reduceCtorEq, false_and, or_self,
        if_false, MainState.step, hpc, if_true, Option.bind_some, calls] at hnone
      split at hnone <;> cases hnone
    | joinThreads =>
      by_cases hidle : p.dispatcher.joining = .idle
      · have hnone := hstuck (.dispatcher .joinThreads) id
        simp [Program.step, hfine, Admits, hpc, hcall, Lifetime.step, hi.dormant.fault,
          hi.dormant.dispatching, hidle] at hnone
      · have hnone := hstuck (.main .joined) trivial
        simp [Program.step, hfine, mainStep, hcall, hjoined hidle, MainState.step, hpc, hi.woken,
          waits, calls] at hnone
    | _ =>
      have hafter := hi.after
      simp [hpc, MainPc.afterListen] at hafter

theorem GoingDown.all_joined (hi : p.GoingDown) (hpc : p.main.pc = .returned) :
    p.dispatcher.deleted = p.dispatcher.workers ∧
      ∀ w ∈ p.dispatcher.workers, ∀ k pc, p.dispatcher.pcAt w k = some pc → pc = .exited := by
  have hjoins := hi.closing.joins
  simp only [Lifetime.JoinsInOrder, hi.returned hpc] at hjoins
  refine ⟨hjoins, fun w hw k pc hat => ?_⟩
  have htidy := hi.closing.tidy
  obtain rfl := htidy.one.eq_zero hat
  have hexited := htidy.exited w 0 (htidy.deleted w (hjoins ▸ hw))
  exact Option.some.inj (hat.symm.trans hexited)

/-- `main` has returned after every worker's thread had left `Run` and been joined, or it
waits in `JoinThreads` for a thread in `Pause`. -/
def Ended (p : Program) : Prop :=
  p.main.pc = .returned ∧ p.dispatcher.deleted = p.dispatcher.workers ∧
      (∀ w ∈ p.dispatcher.workers, ∀ k pc, p.dispatcher.pcAt w k = some pc → pc = .exited) ∨
    p.main.pc = .joinThreads ∧ p.dispatcher.WaitsForPaused

theorem waits_fdCount (events : EventBuffer) (a : MainAction) :
    (waits events a).fdCount = events.fdCount := by cases a <;> rfl

theorem fdCount_step {a : Label} (hs : p.step env a = some p') :
    p'.events.fdCount = p.events.fdCount := by
  cases a with
  | main a =>
    obtain ⟨-, -, main', -, hs⟩ := mainStep_eq_some (step_main hs).1
    have hsame := waits_fdCount p.events a
    rcases hs with ⟨-, rfl⟩ | ⟨-, ⟨-, rfl⟩ | ⟨c, l, -, -, rfl⟩⟩ <;> exact hsame
  | arrive fd d =>
    obtain ⟨l, -, rfl⟩ := step_arrive hs
    rfl
  | dispatcher c =>
    obtain ⟨-, l, -, rfl⟩ := step_dispatcher hs
    rfl

/-- **A command ends the program**: from the receipt of the first one on, whatever it says,
the steps of `main` and of the workers' threads that are left are bounded, and where none is
left, but for returns from `Pause`, the `memset` of `WaitForData` has overrun the buffer of
events if a receiver is registered, and else the program has ended. No event has ever been
handed to `ProcessData`. -/
theorem command_ends_program {registered : List Fd} {count : ℕ} {senders : Fd → Option ℕ}
    {junk : Junk} (htest : env.readJson strCommandTest = some stopprocTree)
    (hid : env.lib.uint8 "1" = some 1)
    (h : Reaches (step env) anyStep (start registered count senders junk) p)
    (hcommand : p.main.stopRequested = true) :
    (∀ n p', Counted (step env) anyStep Working p n p' → n ≤ p.left) ∧
    (∃ p', Reaches (step env) Awake p p' ∧ Rests (step env) Awake p') ∧
    ∀ p', Reaches (step env) anyStep p p' → Rests (step env) Awake p' →
      p'.main.handed = [] ∧ p'.dispatcher.fault = none ∧
        if UInt32.ofNat registered.length = 0 then ¬ p'.events.Overrun ∧ p'.Ended
        else p'.main.pc = .waitForData ∧ p'.events.Overrun := by
  have hphase : p.Up ∨ p.GoingDown := by
    apply h.invariant (I := fun p => p.Up ∨ p.GoingDown)
      (.inl (up_start registered count senders junk))
    rintro p a p' (hi | hi) _ hs
    · exact hi.step htest hid hs
    · exact .inr (hi.step htest hid hs).1
  have hi : p.GoingDown := by
    rcases hphase with hup | hdown
    · simp [hup.running] at hcommand
    · exact hdown
  have hspends := spends_left htest hid
  refine ⟨fun n p' hcounted => ?_, ?_, fun p' hp' hrest => ?_⟩
  · have hle := hspends.count_le hi hcounted
    omega
  · have hlowers : Lowers (step env) Awake GoingDown left :=
      hspends.lowers fun p a hawake => by
        cases a with
        | arrive => exact hawake.elim
        | main | dispatcher => exact ⟨trivial, trivial⟩
    obtain ⟨p', hp', -, hrest⟩ := hlowers.exists_rest hi
    exact ⟨p', hp', hrest⟩
  · have hi' : p'.GoingDown := hp'.invariant hi fun _ _ _ hi _ hs => (hi.step htest hid hs).1
    have hcount : p'.events.fdCount = UInt32.ofNat registered.length :=
      (h.trans hp').invariant (I := fun p => p.events.fdCount = UInt32.ofNat registered.length) rfl
        fun _ _ _ hcount _ hs => (fdCount_step hs).trans hcount
    refine ⟨hi'.unrouted.handed, hi'.dormant.fault, ?_⟩
    rw [← hcount]
    by_cases hover : p'.events.Overrun
    · obtain ⟨hpc, hne⟩ := hi'.waiting hover
      rw [if_neg hne]
      exact ⟨hpc, hover⟩
    · have hends := hi'.returns hover hrest
      have hzero : p'.events.fdCount = 0 := by
        apply hi'.passed
        rcases hends with hpc | ⟨hpc, -⟩ <;> simp [hpc]
      rw [if_pos hzero]
      refine ⟨hover, ?_⟩
      rcases hends with hpc | hwaits
      · exact .inl ⟨hpc, hi'.all_joined hpc⟩
      · exact .inr hwaits

/-- Worker 0 falls asleep, and a client sends a command that has no meaning: without a receiver
the program ends, with one, on which a datagram has arrived, the buffer is overrun. -/
theorem command_ends_program_five_workers :
    (∃ p : Program, p.left = 34 ∧
      (∀ n p', Counted (step (sampleEnv ProxyState)) anyStep Working p n p' → n ≤ 34) ∧
      ∃ p', Reaches (step (sampleEnv ProxyState)) anyStep p p' ∧ p'.Ended) ∧
    ∃ p : Program, p.main.early = [0] ∧
      ∃ p', Reaches (step (sampleEnv ProxyState)) anyStep p p' ∧ p'.events.Overrun := by
  constructor
  · obtain ⟨p, hp, hcommand, hleft⟩ : ∃ p, Reaches (step (sampleEnv ProxyState)) anyStep
        (start [] 5 (fun _ => none) .zeroed) p ∧ p.main.stopRequested = true ∧ p.left = 34 :=
      exists_reaches_of_runChecked [.main .createOk, .main .listenOk,
        .dispatcher (.system (.thread 0 0)), .main .connect, .main (.receive (bytes "hello"))]
        (by decide +kernel)
    obtain ⟨hcount, ⟨p', hp', hrest⟩, hends⟩ := command_ends_program rfl rfl hp hcommand
    have hany : Reaches (step (sampleEnv ProxyState)) anyStep p p' := hp'.mono fun _ _ _ => trivial
    exact ⟨p, hleft, fun n p' h => hleft ▸ hcount n p' h, p', hany, (hends p' hany hrest).2.2.2⟩
  · obtain ⟨p, hp, hcommand, hearly⟩ : ∃ p, Reaches (step (sampleEnv ProxyState)) anyStep
        (start [0] 5 (fun fd => if fd = 0 then some 1 else none) .zeroed) p ∧
        p.main.stopRequested = true ∧ p.main.early = [0] :=
      exists_reaches_of_runChecked [.main .createOk, .main .listenOk, .arrive 0 [7],
        .dispatcher (.system (.thread 0 0)), .main .connect, .main (.receive (bytes "hello"))]
        (by decide +kernel)
    obtain ⟨-, ⟨p', hp', hrest⟩, hends⟩ := command_ends_program rfl rfl hp hcommand
    have hany : Reaches (step (sampleEnv ProxyState)) anyStep p p' := hp'.mono fun _ _ _ => trivial
    exact ⟨p, hearly, p', hany, (hends p' hany hrest).2.2.2⟩

end Program
end MddProxy
