import MddProxy.Management.MainLoop

/-!
# One client of the management interface

`CommandLineInterface::ReceiveData` with the calls it makes on the descriptor of its
client. The loop ends after a command that stops the proxy, or when `recv` fails, which it
also does on a descriptor that has been closed. `Listen` runs it for one client after the
other.
-/
namespace MddProxy

open PropertyTree Interleaving CommandEnv

/-- What `recv` returns on an open connection: some data, nothing (`some []`) once the
client has closed the connection, or an error. -/
abbrev RecvOutcome := Option (List UInt8)

/-- A call on `clientSocket`, with what `recv` and `close` return. -/
inductive ClientCall where
  | recv (readcount : Int)
  | send (response : List UInt8)
  | close (retCode : Int)
  deriving DecidableEq, Repr

namespace ClientCall

def isRecv : ClientCall → Bool
  | .recv _ => true
  | .send _ | .close _ => false

def isClose : ClientCall → Bool
  | .close _ => true
  | .recv _ | .send _ => false

end ClientCall

structure Connection (σ : Type) where
  proxy : σ
  stopCommandIntf : Bool
  clientOpen : Bool
  calls : List ClientCall
  deriving DecidableEq, Repr

namespace Connection

variable {σ : Type}

/-- `Listen` accepts clients as long as no command has stopped the proxy. -/
def accepted (proxy : σ) : Connection σ where
  proxy
  stopCommandIntf := false
  clientOpen := true
  calls := []

section
variable (c : Connection σ)

def recv (readcount : Int) : Connection σ := { c with calls := c.calls ++ [.recv readcount] }

/-- `close(clientSocket)`, which fails on a closed descriptor. -/
def close : Connection σ :=
  { c with
    clientOpen := false
    calls := c.calls ++ [.close (if c.clientOpen = true then 0 else -1)] }

/-- `recv` has failed: the handler of the exception closes the descriptor and leaves the
loop. -/
def recvFailed : Connection σ := (c.recv (-1)).close

def processed (r : Session σ) : Connection σ :=
  { c with
    proxy := r.proxy
    stopCommandIntf := r.stopCommandIntf }

/-- `SendData`, which ignores what `send` returns. -/
def sendData (response : List UInt8) : Connection σ :=
  { c with calls := c.calls ++ [.send response] }

def respond (env : CommandEnv σ) (buffer : List UInt8) : Option (Connection σ) :=
  (env.processCommand buffer ⟨c.proxy, [], c.stopCommandIntf, 0⟩).map fun r =>
    (c.processed r.2).sendData r.1

end

/-- `ReceiveData`, for what `recv` returns as long as the connection is open; `none` while
it waits for more, and where a command is undefined. -/
def receiveData (env : CommandEnv σ) (outcomes : List RecvOutcome) (c : Connection σ) :
    Option (Connection σ) :=
  if c.stopCommandIntf = true then some c
  -- the socket has been closed in the turn before
  else if c.clientOpen = false then some c.recvFailed
  else match outcomes with
    | [] => none
    | none :: _ => some c.recvFailed
    | some [] :: outcomes => receiveData env outcomes (c.recv 0).close
    | some buffer :: outcomes =>
      ((c.recv buffer.length).respond env buffer).bind (receiveData env outcomes)

/-- The loop of `Listen`, for what happens on each of the connections that it accepts;
`none` where it goes on waiting. -/
def listen (env : CommandEnv σ) (clients : List (List RecvOutcome)) (proxy : σ) :
    Option (List (Connection σ)) :=
  match clients with
  | [] => none
  | outcomes :: clients =>
    ((accepted proxy).receiveData env outcomes).bind fun c =>
      if c.stopCommandIntf = true then some [c]
      else (listen env clients c.proxy).map (c :: ·)

/-- A command has stopped the proxy, the client has closed the connection, or `recv` has
failed on it. -/
inductive Ending where
  | stopped
  | clientClosed
  | failed
  deriving DecidableEq, Repr

def Ending.calls : Ending → List ClientCall
  | .stopped => []
  | .clientClosed => [.recv 0, .close 0, .recv (-1), .close (-1)]
  | .failed => [.recv (-1), .close 0]

/-- Which ending comes first, from the outcomes of `recv` and the results of the commands;
the flag says that the proxy has been stopped. -/
inductive Ends (env : CommandEnv σ) : List RecvOutcome → σ → Bool → Ending → Prop
  | stopped {outcomes : List RecvOutcome} {proxy : σ} : Ends env outcomes proxy true .stopped
  | clientClosed {outcomes : List RecvOutcome} {proxy : σ} :
      Ends env (some [] :: outcomes) proxy false .clientClosed
  | failed {outcomes : List RecvOutcome} {proxy : σ} :
      Ends env (none :: outcomes) proxy false .failed
  | command {buffer response : List UInt8} {outcomes : List RecvOutcome} {proxy : σ}
      {r : Session σ} {ending : Ending} (hdata : buffer ≠ [])
      (hr : env.processCommand buffer ⟨proxy, [], false, 0⟩ = some (response, r))
      (hrest : Ends env outcomes r.proxy r.stopCommandIntf ending) :
      Ends env (some buffer :: outcomes) proxy false ending

/-- Every chunk of data has been answered with one response, before the next call. -/
inductive Answered : List ClientCall → Prop
  | nil : Answered []
  | answer {readcount : Int} {response : List UInt8} {calls : List ClientCall}
      (hdata : 0 < readcount) (hrest : Answered calls) :
      Answered (.recv readcount :: .send response :: calls)
  | noData {readcount : Int} {calls : List ClientCall} (hnone : readcount ≤ 0)
      (hrest : Answered calls) : Answered (.recv readcount :: calls)
  | close {retCode : Int} {calls : List ClientCall} (hrest : Answered calls) :
      Answered (.close retCode :: calls)

/-- `close` has been called once, `recv` has not been called after it, and every chunk of
data has been answered. -/
structure ClosedOnce (calls : List ClientCall) : Prop where
  once : calls.countP ClientCall.isClose = 1
  last : calls.Pairwise fun earlier later => earlier.isClose = true → later.isRecv = false
  answered : Answered calls

/-- What a call of `ReceiveData` with this ending does to a connection. -/
structure Serves (c : Connection σ) (ending : Ending) (c' : Connection σ) : Prop where
  calls : ∃ front, Answered front ∧ (∀ call ∈ front, call.isClose = false) ∧
    c'.calls = c.calls ++ (front ++ ending.calls)
  stopped : c'.stopCommandIntf = true ↔ ending = .stopped
  clientOpen : c'.clientOpen = true ↔ ending = .stopped

variable {env : CommandEnv σ} {outcomes : List RecvOutcome} {proxy : σ} {stop : Bool}
  {ending ending' : Ending} {c c' : Connection σ} {front back : List ClientCall}

theorem Ends.unique (h : Ends env outcomes proxy stop ending)
    (h' : Ends env outcomes proxy stop ending') : ending = ending' := by
  induction h with
  | stopped => cases h'; rfl
  | clientClosed =>
    cases h' with
    | clientClosed => rfl
    | command hdata => exact absurd rfl hdata
  | failed => cases h'; rfl
  | command hdata hr _ ih =>
    cases h' with
    | clientClosed => exact absurd rfl hdata
    | command _ hr' hrest' =>
      obtain ⟨-, rfl⟩ := Prod.mk.inj (Option.some.inj (hr.symm.trans hr'))
      exact ih hrest'

theorem Answered.append (hfront : Answered front) (hback : Answered back) :
    Answered (front ++ back) := by
  induction hfront with
  | nil => exact hback
  | answer hdata _ ih => exact .answer hdata ih
  | noData hnone _ ih => exact .noData hnone ih
  | close _ ih => exact .close ih

theorem receiveData_stopped (hstop : c.stopCommandIntf = true) :
    c.receiveData env outcomes = some c := by
  rw [receiveData.eq_def, if_pos hstop]

theorem receiveData_closed (hstop : c.stopCommandIntf = false) (hclosed : c.clientOpen = false) :
    c.receiveData env outcomes = some c.recvFailed := by
  rw [receiveData.eq_def, if_neg (by simp [hstop]), if_pos hclosed]

theorem receiveData_failed (hstop : c.stopCommandIntf = false) (hopen : c.clientOpen = true) :
    c.receiveData env (none :: outcomes) = some c.recvFailed := by
  rw [receiveData.eq_def, if_neg (by simp [hstop]), if_neg (by simp [hopen])]

theorem receiveData_clientClosed (hstop : c.stopCommandIntf = false)
    (hopen : c.clientOpen = true) :
    c.receiveData env (some [] :: outcomes) = some (c.recv 0).close.recvFailed := by
  rw [receiveData.eq_def, if_neg (by simp [hstop]), if_neg (by simp [hopen])]
  exact receiveData_closed hstop rfl

theorem receiveData_command {buffer : List UInt8} (hstop : c.stopCommandIntf = false)
    (hopen : c.clientOpen = true) (hdata : buffer ≠ []) :
    c.receiveData env (some buffer :: outcomes) =
      ((c.recv buffer.length).respond env buffer).bind (receiveData env outcomes) := by
  rw [receiveData.eq_def, if_neg (by simp [hstop]), if_neg (by simp [hopen])]
  cases buffer with
  | nil => exact absurd rfl hdata
  | cons => rfl

theorem receiveData_respond {buffer response : List UInt8} {r : Session σ}
    (hstop : c.stopCommandIntf = false) (hopen : c.clientOpen = true) (hdata : buffer ≠ [])
    (hr : env.processCommand buffer ⟨c.proxy, [], false, 0⟩ = some (response, r)) :
    c.receiveData env (some buffer :: outcomes) =
      (((c.recv buffer.length).processed r).sendData response).receiveData env outcomes := by
  have hresponse : (c.recv buffer.length).respond env buffer =
      some (((c.recv buffer.length).processed r).sendData response) := by
    rw [respond, recv, hstop, hr]
    rfl
  rw [receiveData_command hstop hopen hdata, hresponse]
  rfl

theorem Ends.serves (h : Ends env outcomes c.proxy c.stopCommandIntf ending)
    (hopen : c.clientOpen = true) :
    ∃ c', c.receiveData env outcomes = some c' ∧ c.Serves ending c' := by
  generalize hproxy : c.proxy = proxy at h
  generalize hstop : c.stopCommandIntf = stop at h
  induction h generalizing c with
  | stopped =>
    refine ⟨c, receiveData_stopped hstop, ⟨[], .nil, by simp, ?_⟩, ?_, ?_⟩
    · simp [Ending.calls]
    · simp [hstop]
    · simp [hopen]
  | clientClosed =>
    refine ⟨_, receiveData_clientClosed hstop hopen, ⟨[], .nil, by simp, ?_⟩, ?_, ?_⟩
    · simp [recvFailed, recv, close, Ending.calls, hopen]
    · simp [recvFailed, recv, close, hstop]
    · simp [recvFailed, recv, close]
  | failed =>
    refine ⟨_, receiveData_failed hstop hopen, ⟨[], .nil, by simp, ?_⟩, ?_, ?_⟩
    · simp [recvFailed, recv, close, Ending.calls, hopen]
    · simp [recvFailed, recv, close, hstop]
    · simp [recvFailed, recv, close]
  | @command buffer response outcomes proxy r ending hdata hr hrest ih =>
    subst hproxy
    obtain ⟨c', hrun, ⟨front, hanswered, hnoclose, hcalls⟩, hstopped, hclosed⟩ :=
      ih (c := ((c.recv buffer.length).processed r).sendData response) hopen rfl rfl
    have hpos := List.length_pos_iff.mpr hdata
    refine ⟨c', ?_, ⟨.recv buffer.length :: .send response :: front, ?_, ?_, ?_⟩, hstopped,
      hclosed⟩
    · rw [receiveData_respond hstop hopen hdata hr]
      exact hrun
    · exact .answer (by omega) hanswered
    · simpa [ClientCall.isClose] using hnoclose
    · simp [hcalls, recv, processed, sendData]

theorem exists_ends (hopen : c.clientOpen = true) (h : c.receiveData env outcomes = some c') :
    ∃ ending, Ends env outcomes c.proxy c.stopCommandIntf ending := by
  induction outcomes generalizing c with
  | nil =>
    cases hstop : c.stopCommandIntf with
    | true => exact ⟨.stopped, .stopped⟩
    | false =>
      rw [receiveData.eq_def, if_neg (by simp [hstop]), if_neg (by simp [hopen])] at h
      cases h
  | cons outcome outcomes ih =>
    cases hstop : c.stopCommandIntf with
    | true => exact ⟨.stopped, .stopped⟩
    | false =>
      match outcome with
      | none => exact ⟨.failed, .failed⟩
      | some [] => exact ⟨.clientClosed, .clientClosed⟩
      | some (byte :: buffer) =>
        rw [receiveData_command hstop hopen (List.cons_ne_nil byte buffer)] at h
        obtain ⟨c₁, hresponse, hrest⟩ := Option.bind_eq_some_iff.mp h
        obtain ⟨⟨response, r⟩, hr, rfl⟩ := Option.map_eq_some_iff.mp hresponse
        rw [recv, hstop] at hr
        obtain ⟨ending, hending⟩ :=
          ih (c := ((c.recv _).processed r).sendData response) hopen hrest
        exact ⟨ending, .command (List.cons_ne_nil byte buffer) hr hending⟩

theorem serves_of_receiveData (hopen : c.clientOpen = true)
    (h : c.receiveData env outcomes = some c') :
    ∃ ending, Ends env outcomes c.proxy c.stopCommandIntf ending ∧ c.Serves ending c' := by
  obtain ⟨ending, hending⟩ := exists_ends hopen h
  obtain ⟨c₁, hrun, hserves⟩ := hending.serves hopen
  obtain rfl := Option.some.inj (hrun.symm.trans h)
  exact ⟨ending, hending, hserves⟩

theorem receiveData_returns_iff (hopen : c.clientOpen = true) :
    (∃ c', c.receiveData env outcomes = some c') ↔
      ∃ ending, Ends env outcomes c.proxy c.stopCommandIntf ending := by
  constructor
  · rintro ⟨c', h⟩
    exact exists_ends hopen h
  · rintro ⟨ending, h⟩
    obtain ⟨c', hrun, -⟩ := h.serves hopen
    exact ⟨c', hrun⟩

theorem Ending.answered_calls (ending : Ending) : Answered ending.calls := by
  cases ending with
  | stopped => exact .nil
  | clientClosed => exact .noData (by omega) (.close (.noData (by omega) (.close .nil)))
  | failed => exact .noData (by omega) (.close .nil)

/-- Nothing closes the descriptor before the ending, so that the ending decides. -/
theorem closedOnce_append_iff (hanswered : Answered front)
    (hnoclose : ∀ call ∈ front, call.isClose = false) :
    ClosedOnce (front ++ ending.calls) ↔ ending = .failed := by
  have hfront : front.countP ClientCall.isClose = 0 := by
    rw [List.countP_eq_zero]
    intro call hcall
    simp [hnoclose call hcall]
  have hopen : ∀ earlier ∈ front, ∀ later : ClientCall,
      earlier.isClose = true → later.isRecv = false := by
    intro earlier hearlier later hclose
    rw [hnoclose earlier hearlier] at hclose
    cases hclose
  constructor
  · intro h
    have hcount := h.once
    rw [List.countP_append, hfront] at hcount
    cases ending with
    | failed => rfl
    | stopped | clientClosed => cases hcount
  · rintro rfl
    constructor
    · rw [List.countP_append, hfront]
      rfl
    · rw [List.pairwise_append]
      refine ⟨?_, ?_, fun earlier hearlier later _ => hopen earlier hearlier later⟩
      · apply List.pairwise_of_forall_mem_list
        exact fun earlier hearlier later _ => hopen earlier hearlier later
      · simp [Ending.calls, ClientCall.isClose]
    · exact hanswered.append (Ending.answered_calls .failed)

theorem Serves.closedOnce_iff (h : (accepted proxy).Serves ending c) :
    ClosedOnce c.calls ↔ ending = .failed := by
  obtain ⟨front, hanswered, hnoclose, hcalls⟩ := h.calls
  rw [hcalls]
  exact closedOnce_append_iff hanswered hnoclose

/-- However the service ends, every chunk of data has got its response. -/
theorem receiveData_answered (h : (accepted proxy).receiveData env outcomes = some c) :
    Answered c.calls := by
  obtain ⟨ending, -, hserves⟩ := serves_of_receiveData rfl h
  obtain ⟨front, hanswered, -, hcalls⟩ := hserves.calls
  rw [hcalls]
  exact hanswered.append ending.answered_calls

/-- **The client's descriptor is closed once** by a call of `ReceiveData` exactly when
`recv` fails before the client closes the connection and before a command stops the
proxy. -/
theorem client_closed_once_iff (h : (accepted proxy).receiveData env outcomes = some c) :
    ClosedOnce c.calls ↔ Ends env outcomes proxy false .failed := by
  obtain ⟨ending, hending, hserves⟩ := serves_of_receiveData rfl h
  rw [hserves.closedOnce_iff]
  constructor
  · rintro rfl
    exact hending
  · intro hfailed
    exact hending.unique hfailed

/-- A client whose connection is reset at once. -/
theorem client_closed_once_reset : ∃ c,
    (accepted ()).receiveData (sampleEnv Unit) [none] = some c ∧ ClosedOnce c.calls := by
  have h : (accepted ()).receiveData (sampleEnv Unit) [none] =
      some (accepted ()).recvFailed := rfl
  exact ⟨_, h, (client_closed_once_iff h).mpr .failed⟩

/-- A client that connects and closes the connection has its descriptor closed twice. -/
theorem closed_client_closed_twice : ¬ ∀ outcomes c,
    (accepted ()).receiveData (sampleEnv Unit) outcomes = some c → ClosedOnce c.calls := by
  intro hstated
  have htwice := (hstated [some []] ((accepted ()).recv 0).close.recvFailed rfl).once
  cases htwice

theorem Serves.clientOpen_iff (h : c.Serves ending c') :
    c'.clientOpen = true ↔ c'.stopCommandIntf = true :=
  h.clientOpen.trans h.stopped.symm

/-- When `Listen` returns, no call has closed the descriptor of its last client, and all
others are closed. -/
theorem listen_leaves_last_open {clients : List (List RecvOutcome)}
    {served : List (Connection σ)} (h : listen env clients proxy = some served) :
    ∃ front last, served = front ++ [last] ∧ (∀ c ∈ front, c.clientOpen = false) ∧
      last.clientOpen = true ∧ ∀ call ∈ last.calls, call.isClose = false := by
  induction clients generalizing proxy served with
  | nil => cases h
  | cons outcomes clients ih =>
    obtain ⟨c, hc, hrest⟩ := Option.bind_eq_some_iff.mp h
    obtain ⟨ending, -, hserves⟩ := serves_of_receiveData rfl hc
    by_cases hstop : c.stopCommandIntf = true
    · rw [if_pos hstop] at hrest
      obtain rfl := Option.some.inj hrest
      obtain ⟨front, -, hnoclose, hcalls⟩ := hserves.calls
      refine ⟨[], c, rfl, by simp, hserves.clientOpen_iff.mpr hstop, ?_⟩
      rw [hcalls, hserves.stopped.mp hstop]
      simpa [accepted, Ending.calls] using hnoclose
    · rw [if_neg hstop] at hrest
      obtain ⟨rest, hlisten, rfl⟩ := Option.map_eq_some_iff.mp hrest
      obtain ⟨front, last, rfl, hclosed, hlast⟩ := ih hlisten
      refine ⟨c :: front, last, rfl, ?_, hlast⟩
      intro c' hc'
      rcases List.mem_cons.mp hc' with rfl | hmem
      · rw [← Bool.not_eq_true]
        exact fun hopen => hstop (hserves.clientOpen_iff.mp hopen)
      · exact hclosed c' hmem

section
variable {env : CommandEnv ProxyState} {c c' : Connection ProxyState} {s : MainState}
  {pc : MainPc}

/-- The state of `main` that goes with a connection: at `pc`, unless a command has stopped
the proxy. -/
structure Matches (c : Connection ProxyState) (pc : MainPc) (s : MainState) : Prop where
  proxy : s.proxy = c.proxy
  stopCommandIntf : s.stopCommandIntf = c.stopCommandIntf
  clientOpen : s.clientOpen = c.clientOpen
  pc : s.pc = if c.stopCommandIntf = true then .waitForData else pc

theorem Matches.pc_running (h : c.Matches pc s) (hstop : c.stopCommandIntf = false) :
    s.pc = pc := by
  rw [h.pc, hstop]
  rfl

theorem matches_connect (env : CommandEnv ProxyState) (hpc : s.pc = .accept)
    (hstop : s.stopCommandIntf = false) :
    ∃ s', s.step env .connect = some s' ∧ (accepted s.proxy).Matches .recv s' := by
  have hrunning : s.openClient.stopCommandIntf = false := hstop
  refine ⟨_, if_pos hpc, ?_⟩
  rw [MainState.afterCommand_of_running hrunning]
  exact ⟨rfl, hstop, rfl, rfl⟩

theorem Matches.recvFails (env : CommandEnv ProxyState) (h : c.Matches .recv s)
    (hstop : c.stopCommandIntf = false) :
    ∃ s', s.step env .recvFails = some s' ∧ c.recvFailed.Matches .accept s' := by
  have hrunning : s.closeClient.stopCommandIntf = false := h.stopCommandIntf.trans hstop
  refine ⟨_, if_pos (h.pc_running hstop), ?_⟩
  rw [MainState.afterClient_of_running hrunning]
  refine ⟨h.proxy, h.stopCommandIntf, rfl, ?_⟩
  simp [recvFailed, recv, close, hstop]

theorem Matches.peerCloses (env : CommandEnv ProxyState) (h : c.Matches .recv s)
    (hstop : c.stopCommandIntf = false) (hopen : c.clientOpen = true) :
    ∃ s', s.step env .peerCloses = some s' ∧ (c.recv 0).close.Matches .recv s' := by
  have hrunning : s.closeClient.stopCommandIntf = false := h.stopCommandIntf.trans hstop
  refine ⟨_, if_pos ⟨h.pc_running hstop, h.clientOpen.trans hopen⟩, ?_⟩
  rw [MainState.afterCommand_of_running hrunning]
  refine ⟨h.proxy, h.stopCommandIntf, rfl, ?_⟩
  simp [recv, close, hstop]

theorem Matches.receive {buffer response : List UInt8} {r : Session ProxyState}
    (h : c.Matches .recv s) (hstop : c.stopCommandIntf = false) (hopen : c.clientOpen = true)
    (hdata : buffer ≠ []) (hsize : buffer.length ≤ READ_BUFF_SIZE)
    (hr : env.withStop.processCommand buffer ⟨c.proxy, [], false, 0⟩ = some (response, r)) :
    ∃ s', s.step env (.receive buffer) = some s' ∧
      (((c.recv buffer.length).processed r).sendData response).Matches .recv s' := by
  refine ⟨(s.commandDone r).afterCommand, ?_, ?_⟩
  · rw [MainState.step, if_pos ⟨h.pc_running hstop, h.clientOpen.trans hopen, hdata, hsize⟩,
      h.proxy, h.stopCommandIntf, hstop, hr]
    rfl
  · cases hdone : r.stopCommandIntf with
    | true =>
      constructor <;> simp [MainState.afterCommand, MainState.afterClient, MainState.enterWait,
        MainState.commandDone, recv, processed, sendData, hdone, h.clientOpen]
    | false =>
      constructor <;> simp [MainState.afterCommand, MainState.commandDone, recv, processed,
        sendData, hdone, h.clientOpen]

theorem Ends.reaches (h : Ends env.withStop outcomes c.proxy c.stopCommandIntf ending)
    (hsize : ∀ buffer, some buffer ∈ outcomes → buffer.length ≤ READ_BUFF_SIZE)
    (hopen : c.clientOpen = true) (hmatch : c.Matches .recv s)
    (hrun : c.receiveData env.withStop outcomes = some c') :
    ∃ s', Reaches (MainState.step env) anyStep s s' ∧ c'.Matches .accept s' := by
  generalize hproxy : c.proxy = proxy at h
  generalize hstop : c.stopCommandIntf = stop at h
  induction h generalizing c s with
  | stopped =>
    rw [receiveData_stopped hstop] at hrun
    obtain rfl := Option.some.inj hrun
    have hpc := hmatch.pc
    rw [if_pos hstop] at hpc
    exact ⟨s, .refl, hmatch.proxy, hmatch.stopCommandIntf, hmatch.clientOpen,
      by rw [hpc, if_pos hstop]⟩
  | clientClosed =>
    rw [receiveData_clientClosed hstop hopen] at hrun
    obtain rfl := Option.some.inj hrun
    obtain ⟨s₁, hclose, hmatch₁⟩ := hmatch.peerCloses env hstop hopen
    obtain ⟨s₂, hfail, hmatch₂⟩ := hmatch₁.recvFails env hstop
    exact ⟨s₂, .head trivial hclose (.single trivial hfail), hmatch₂⟩
  | failed =>
    rw [receiveData_failed hstop hopen] at hrun
    obtain rfl := Option.some.inj hrun
    obtain ⟨s₁, hfail, hmatch₁⟩ := hmatch.recvFails env hstop
    exact ⟨s₁, .single trivial hfail, hmatch₁⟩
  | @command buffer response outcomes proxy r ending hdata hr hrest ih =>
    subst hproxy
    rw [receiveData_respond hstop hopen hdata hr] at hrun
    obtain ⟨hbuffer, hrestsize⟩ : buffer.length ≤ READ_BUFF_SIZE ∧
        ∀ b, some b ∈ outcomes → b.length ≤ READ_BUFF_SIZE :=
      ⟨hsize buffer List.mem_cons_self, fun b hb => hsize b (List.mem_cons_of_mem _ hb)⟩
    obtain ⟨s₁, hreceive, hmatch₁⟩ := hmatch.receive hstop hopen hdata hbuffer hr
    obtain ⟨s₂, hreaches, hmatch₂⟩ :=
      ih (c := ((c.recv buffer.length).processed r).sendData response) hrestsize hopen hmatch₁
        hrun rfl rfl
    exact ⟨s₂, .head trivial hreceive hreaches, hmatch₂⟩

/-- The service of a client, from `accept` on, is a run of `main`. -/
theorem receiveData_reaches (hpc : s.pc = .accept) (hstop : s.stopCommandIntf = false)
    (hsize : ∀ buffer, some buffer ∈ outcomes → buffer.length ≤ READ_BUFF_SIZE)
    (hrun : (accepted s.proxy).receiveData env.withStop outcomes = some c) :
    ∃ s', Reaches (MainState.step env) anyStep s s' ∧ c.Matches .accept s' := by
  obtain ⟨ending, hending, -⟩ := serves_of_receiveData rfl hrun
  obtain ⟨s₁, hconnect, hmatch⟩ := matches_connect env hpc hstop
  obtain ⟨s₂, hreaches, hmatch₂⟩ := hending.reaches hsize rfl hmatch hrun
  exact ⟨s₂, .head trivial hconnect hreaches, hmatch₂⟩

theorem listen_reaches {clients : List (List RecvOutcome)} {served : List (Connection ProxyState)}
    (hpc : s.pc = .accept) (hstop : s.stopCommandIntf = false)
    (hsize : ∀ outcomes ∈ clients, ∀ buffer, some buffer ∈ outcomes →
      buffer.length ≤ READ_BUFF_SIZE)
    (h : listen env.withStop clients s.proxy = some served) :
    ∃ s', Reaches (MainState.step env) anyStep s s' ∧ s'.pc = .waitForData ∧
      s'.clientOpen = true := by
  induction clients generalizing s served with
  | nil => cases h
  | cons outcomes clients ih =>
    obtain ⟨hfirst, hothers⟩ := List.forall_mem_cons.mp hsize
    obtain ⟨c, hc, hrest⟩ := Option.bind_eq_some_iff.mp h
    obtain ⟨ending, -, hserves⟩ := serves_of_receiveData rfl hc
    obtain ⟨s₁, hreaches, hmatch⟩ := receiveData_reaches hpc hstop hfirst hc
    by_cases hdone : c.stopCommandIntf = true
    · refine ⟨s₁, hreaches, ?_, hmatch.clientOpen.trans (hserves.clientOpen_iff.mpr hdone)⟩
      rw [hmatch.pc, if_pos hdone]
    · rw [if_neg hdone, ← hmatch.proxy] at hrest
      obtain ⟨rest, hlisten, -⟩ := Option.map_eq_some_iff.mp hrest
      rw [Bool.not_eq_true] at hdone
      obtain ⟨s₂, hreaches₂, hend⟩ := ih (hmatch.pc_running hdone)
        (hmatch.stopCommandIntf.trans hdone) hothers hlisten
      exact ⟨s₂, hreaches.trans hreaches₂, hend⟩

/-- As commands are executed, the connection has to fail before the client has sent
anything. -/
theorem ends_failed_iff (htest : env.readJson strCommandTest = some stopprocTree)
    (hid : env.lib.uint8 "1" = some 1) {proxy : ProxyState} :
    Ends env.withStop outcomes proxy false .failed ↔ outcomes.head? = some none := by
  constructor
  · intro h
    cases h with
    | failed => rfl
    | command hdata hr hrest =>
      rw [MainState.processCommand_withStop htest hid] at hr
      obtain ⟨-, rfl⟩ := Prod.mk.inj (Option.some.inj hr)
      cases hrest
  · intro h
    cases outcomes with
    | nil => cases h
    | cons outcome outcomes =>
      obtain rfl := Option.some.inj h
      exact .failed

end

end Connection
end MddProxy
