import MddProxy.Kernel.Descriptors
import MddProxy.Management.MainLoop

/-!
# What `Stop` closes

`Stop` closes the number in `ePollHandle` and keeps it. Signals and a command can call it
any number of times, and the management interface opens and closes descriptors in between.
A new one gets the lowest number that is free. The life of `main` is run here with the
descriptor table of the process.
-/
namespace MddProxy

open PropertyTree Interleaving Descriptors CommandEnv

inductive File where
  | epoll
  | listener
  | client
  | other
  deriving DecidableEq, Repr

/-- The descriptors after the constructor of `MddProxy`. -/
structure Opened where
  files : Table File
  ePollHandle : ℕ
  owned : files.owner ePollHandle = some .epoll

/-- `socket`, `accept` and `close` as the kernel sees them: the number that is given, and the
number that is given back. -/
inductive FileOp where
  | opened (fd : ℕ)
  | closed (fd : ℕ)
  deriving DecidableEq, Repr

/-- Every opening that got this number is followed by a closing of it. -/
def GivenBack (fd : ℕ) : List FileOp → Prop
  | [] => True
  | .opened fd' :: ops => (fd' = fd → .closed fd ∈ ops) ∧ GivenBack fd ops
  | .closed _ :: ops => GivenBack fd ops

instance decidableGivenBack (fd : ℕ) : (ops : List FileOp) → Decidable (GivenBack fd ops)
  | [] => .isTrue trivial
  | .opened _ :: ops =>
    have := decidableGivenBack fd ops
    inferInstanceAs (Decidable (_ ∧ _))
  | .closed _ :: ops => decidableGivenBack fd ops

/-- `listener` is `socketObj->socket` of the command line interface; it and `clientSocket`
are `none` before a descriptor has been stored in them. `sigabrt` says that the signal of
`abort` has been delivered. The last three fields record how often `Stop` has been called,
what it has closed, and what the rest of `main` has opened and closed since the last call. -/
structure Process where
  main : MainState
  files : Table File
  ePollHandle : ℕ
  listener : Option ℕ
  clientSocket : Option ℕ
  sigabrt : Bool
  stops : ℕ
  closed : List File
  since : List FileOp

inductive ProcessAction where
  | main (a : MainAction)
  /-- `Create` throws after it has opened the socket. -/
  | bindFails
  /-- An exception has left `main`, and `abort` raises the signal that is handled by `Stop`. -/
  | abort
  deriving DecidableEq, Repr

namespace Process

def start (registered : List Fd) (o : Opened) : Process where
  main := .start registered
  files := o.files
  ePollHandle := o.ePollHandle
  listener := none
  clientSocket := none
  sigabrt := false
  stops := 0
  closed := []
  since := []

variable (s : Process)

def stop : Process :=
  { s with
    files := s.files.close s.ePollHandle
    stops := s.stops + 1
    closed := s.closed ++ (s.files.owner s.ePollHandle).toList
    since := [] }

def openFile (f : File) : Process :=
  { s with files := s.files.opened f, since := s.since ++ [.opened s.files.fresh] }

def closeFile (fd : Option ℕ) : Process :=
  { s with
    files := fd.elim s.files s.files.close
    since := s.since ++ (fd.map FileOp.closed).toList }

def openListener : Process := { s.openFile .listener with listener := some s.files.fresh }

def openClient : Process := { s.openFile .client with clientSocket := some s.files.fresh }

def closeClient : Process := s.closeFile s.clientSocket

/-- `close(socketObj->socket)` at the end of `Listen`. -/
def closeListener : Process := s.closeFile s.listener

def commanded (env : CommandEnv ProxyState) (buffer : List UInt8) : Process :=
  match env.withStop.processCommand buffer ⟨s.main.proxy, [], s.main.stopCommandIntf, 0⟩ with
  | some (_, r) => r.invoked.foldl (fun s op => if op = .stop then s.stop else s) s
  | none => s

/-- What an action of `main` opens and closes before `Listen` can return. -/
def effect (env : CommandEnv ProxyState) : MainAction → Process
  | .createOk => s.openListener
  | .connect => s.openClient
  | .receive buffer => s.commanded env buffer
  | .peerCloses | .recvFails => s.closeClient
  | .signal => s.stop
  | .createFails | .listenOk | .listenFails | .acceptFails | .readable _ | .waitReturns _
  | .waitFails | .joined => s

def continued (m : MainState) : Process :=
  if s.main.pc.afterListen = false ∧ m.pc.afterListen = true then
    { s.closeListener with main := m }
  else { s with main := m }

/-- A call on a descriptor succeeds only while the descriptor is what it was opened for. -/
def Usable : MainAction → Prop
  | .listenOk | .connect => s.listener.bind s.files.owner = some .listener
  | .receive _ | .peerCloses => s.clientSocket.bind s.files.owner = some .client
  | .createOk | .createFails | .listenFails | .acceptFails | .recvFails | .readable _ | .signal
  | .waitReturns _ | .waitFails | .joined => True

instance (a : MainAction) : Decidable (s.Usable a) :=
  match a with
  | .listenOk | .connect | .receive _ | .peerCloses => inferInstanceAs (Decidable (_ = _))
  | .createOk | .createFails | .listenFails | .acceptFails | .recvFails | .readable _ | .signal
  | .waitReturns _ | .waitFails | .joined => .isTrue trivial

def step (env : CommandEnv ProxyState) (s : Process) : ProcessAction → Option Process
  | .main a =>
    if s.Usable a then (s.main.step env a).map fun m => (s.effect env a).continued m else none
  | .bindFails => (s.main.step env .createFails).map fun m => s.openListener.continued m
  | .abort =>
    if s.main.pc = .aborted ∧ s.sigabrt = false then some { s.stop with sigabrt := true }
    else none

def CallsStop : ProcessAction → Bool
  | .main .signal | .main (.receive _) | .abort => true
  | .main _ | .bindFails => false

def Opens : ProcessAction → Bool
  | .main .createOk | .main .connect | .bindFails => true
  | .main _ | .abort => false

/-- All calls of `Stop` together have closed the epoll handle once, and nothing else. -/
def StopsOnce : Prop := 1 ≤ s.stops → s.closed = [.epoll]

/-- A repeated call of `Stop` comes after the closing of whatever was given the number of the
epoll handle since the call before it. -/
def HandleGivenBack (a : ProcessAction) : Prop :=
  CallsStop a = true → s.stops = 0 ∨ GivenBack s.ePollHandle s.since

/-- Descriptors are opened before the first call of `Stop` only. -/
def OpensBefore (a : ProcessAction) : Prop := Opens a = true → s.stops = 0

instance (a : ProcessAction) : Decidable (s.HandleGivenBack a) :=
  inferInstanceAs (Decidable (_ → _))

instance : Decidable s.StopsOnce := inferInstanceAs (Decidable (_ → _))

section
variable (m : MainState)

@[simp] theorem stops_continued : (s.continued m).stops = s.stops := by
  unfold continued
  split <;> rfl

@[simp] theorem closed_continued : (s.continued m).closed = s.closed := by
  unfold continued
  split <;> rfl

@[simp] theorem main_continued : (s.continued m).main = m := by
  unfold continued
  split <;> rfl

@[simp] theorem ePollHandle_continued : (s.continued m).ePollHandle = s.ePollHandle := by
  unfold continued
  split <;> rfl

end

variable {s} {s' : Process} {a : ProcessAction} {env : CommandEnv ProxyState}

theorem commanded_eq (htest : env.readJson strCommandTest = some stopprocTree)
    (hid : env.lib.uint8 "1" = some 1) (buffer : List UInt8) :
    s.commanded env buffer = s.stop := by
  rw [commanded, MainState.processCommand_withStop htest hid]
  rfl

inductive Move (env : CommandEnv ProxyState) (s : Process) : ProcessAction → Process → Prop
  | main {b : MainAction} {m : MainState} (hm : s.main.step env b = some m) :
      Move env s (.main b) ((s.effect env b).continued m)
  | bindFails {m : MainState} (hm : s.main.step env .createFails = some m) :
      Move env s .bindFails (s.openListener.continued m)
  | abort : Move env s .abort { s.stop with sigabrt := true }

theorem step_move (h : s.step env a = some s') : s.Move env a s' := by
  cases a with
  | main b =>
    obtain ⟨-, h⟩ := Option.ite_none_right_eq_some.mp h
    obtain ⟨m, hm, rfl⟩ := Option.map_eq_some_iff.mp h
    exact .main hm
  | bindFails =>
    obtain ⟨m, hm, rfl⟩ := Option.map_eq_some_iff.mp h
    exact .bindFails hm
  | abort =>
    obtain ⟨-, h⟩ := Option.ite_none_right_eq_some.mp h
    obtain rfl := Option.some.inj h
    exact .abort

theorem effect_of_callsStop (htest : env.readJson strCommandTest = some stopprocTree)
    (hid : env.lib.uint8 "1" = some 1) {b : MainAction} (hcall : CallsStop (.main b) = true) :
    s.effect env b = s.stop := by
  cases b with
  | receive buffer => exact commanded_eq htest hid buffer
  | signal => rfl
  | _ => cases hcall

theorem Move.stop (htest : env.readJson strCommandTest = some stopprocTree)
    (hid : env.lib.uint8 "1" = some 1) (hm : s.Move env a s') (hcall : CallsStop a = true) :
    s'.stops = s.stops + 1 ∧
      s'.closed = s.closed ++ (s.files.owner s.ePollHandle).toList := by
  cases hm with
  | main =>
    rw [stops_continued, closed_continued, effect_of_callsStop htest hid hcall]
    exact ⟨rfl, rfl⟩
  | bindFails => cases hcall
  | abort => exact ⟨rfl, rfl⟩

theorem Move.quiet (hm : s.Move env a s') (hcall : CallsStop a = false) :
    s'.stops = s.stops ∧ s'.closed = s.closed := by
  cases hm with
  | @main b =>
    rw [stops_continued, closed_continued]
    cases b with
    | receive buffer | signal => cases hcall
    | _ => exact ⟨rfl, rfl⟩
  | bindFails =>
    rw [stops_continued, closed_continued]
    exact ⟨rfl, rfl⟩
  | abort => cases hcall

/-- The handle is open, and no other variable holds its number. -/
structure HandleKept (s : Process) : Prop where
  owner : s.files.owner s.ePollHandle = some .epoll
  listener : s.listener ≠ some s.ePollHandle
  clientSocket : s.clientSocket ≠ some s.ePollHandle
  closed : s.closed = []

theorem handleKept_start (registered : List Fd) (o : Opened) : (start registered o).HandleKept :=
  ⟨o.owned, nofun, nofun, rfl⟩

theorem HandleKept.opened (h : s.HandleKept) (f : File) :
    (s.files.opened f).owner s.ePollHandle = some .epoll ∧
      some s.files.fresh ≠ some s.ePollHandle := by
  have hsome : (s.files.owner s.ePollHandle).isSome = true := by rw [h.owner]; rfl
  refine ⟨(s.files.owner_opened_of_isSome f hsome).trans h.owner, ?_⟩
  intro hfresh
  have hnone := s.files.fresh_spec.1
  rw [Option.some.inj hfresh, h.owner] at hnone
  cases hnone

theorem HandleKept.closed_other (h : s.HandleKept) {fd : Option ℕ}
    (hne : fd ≠ some s.ePollHandle) :
    (fd.elim s.files s.files.close).owner s.ePollHandle = some .epoll := by
  cases fd with
  | none => exact h.owner
  | some fd =>
    refine (s.files.owner_close fd s.ePollHandle).trans ?_
    rw [if_neg fun heq => hne (congrArg some heq.symm)]
    exact h.owner

theorem HandleKept.openListener (h : s.HandleKept) : s.openListener.HandleKept :=
  ⟨(h.opened .listener).1, (h.opened .listener).2, h.clientSocket, h.closed⟩

theorem HandleKept.openClient (h : s.HandleKept) : s.openClient.HandleKept :=
  ⟨(h.opened .client).1, h.listener, (h.opened .client).2, h.closed⟩

theorem HandleKept.closeClient (h : s.HandleKept) : s.closeClient.HandleKept :=
  ⟨h.closed_other h.clientSocket, h.listener, h.clientSocket, h.closed⟩

theorem HandleKept.continued (h : s.HandleKept) (m : MainState) : (s.continued m).HandleKept := by
  unfold Process.continued
  split
  · exact ⟨h.closed_other h.listener, h.listener, h.clientSocket, h.closed⟩
  · exact ⟨h.owner, h.listener, h.clientSocket, h.closed⟩

theorem HandleKept.move (h : s.HandleKept) (hcall : CallsStop a = false)
    (hm : s.Move env a s') : s'.HandleKept := by
  cases hm with
  | @main b m =>
    apply HandleKept.continued
    cases b with
    | createOk => exact h.openListener
    | connect => exact h.openClient
    | peerCloses | recvFails => exact h.closeClient
    | receive buffer | signal => cases hcall
    | _ => exact h
  | @bindFails m => exact h.openListener.continued m
  | abort => cases hcall

/-- When every lower number is in use, the next descriptor gets the number of the handle. -/
theorem fresh_stop (h : s.ePollHandle < s.files.fresh) : s.stop.files.fresh = s.ePollHandle :=
  s.files.fresh_close h

/-- The first call of `Stop` closes the epoll handle. -/
structure FirstClosed (s : Process) : Prop where
  before : s.stops = 0 → s.HandleKept
  after : 1 ≤ s.stops → ∃ files, s.closed = .epoll :: files

theorem firstClosed_start (registered : List Fd) (o : Opened) :
    (start registered o).FirstClosed :=
  ⟨fun _ => handleKept_start registered o, nofun⟩

theorem FirstClosed.move (htest : env.readJson strCommandTest = some stopprocTree)
    (hid : env.lib.uint8 "1" = some 1) (h : s.FirstClosed) (hm : s.Move env a s') :
    s'.FirstClosed := by
  cases hcall : CallsStop a with
  | false =>
    obtain ⟨hstops, hclosed⟩ := hm.quiet hcall
    constructor
    · intro hzero
      exact (h.before (hstops ▸ hzero)).move hcall hm
    · intro hpos
      rw [hclosed]
      exact h.after (hstops ▸ hpos)
  | true =>
    obtain ⟨hstops, hclosed⟩ := hm.stop htest hid hcall
    refine ⟨fun hzero => absurd (hstops.symm.trans hzero) (Nat.succ_ne_zero _), fun _ => ?_⟩
    rw [hclosed]
    rcases Nat.eq_zero_or_pos s.stops with hzero | hpos
    · rw [(h.before hzero).closed, (h.before hzero).owner]
      exact ⟨[], rfl⟩
    · obtain ⟨files, hfiles⟩ := h.after hpos
      rw [hfiles]
      exact ⟨_, rfl⟩

/-- What a step adds to the record is harmless exactly when a repeated call of `Stop` finds the
number of the handle not in use. -/
theorem FirstClosed.stopsOnce_move (htest : env.readJson strCommandTest = some stopprocTree)
    (hid : env.lib.uint8 "1" = some 1) (h : s.FirstClosed) (hm : s.Move env a s') :
    s'.StopsOnce ↔ s.StopsOnce ∧
      (CallsStop a = true → s.stops = 0 ∨ s.files.owner s.ePollHandle = none) := by
  cases hcall : CallsStop a with
  | false =>
    obtain ⟨hstops, hclosed⟩ := hm.quiet hcall
    simp [StopsOnce, hstops, hclosed]
  | true =>
    obtain ⟨hstops, hclosed⟩ := hm.stop htest hid hcall
    rcases Nat.eq_zero_or_pos s.stops with hzero | hpos
    · have hkept := h.before hzero
      simp [StopsOnce, hstops, hclosed, hzero, hkept.closed, hkept.owner]
    · obtain ⟨files, hfiles⟩ := h.after hpos
      have hne : s.stops ≠ 0 := Nat.pos_iff_ne_zero.mp hpos
      simp [StopsOnce, hstops, hclosed, hne, hfiles, Nat.one_le_iff_ne_zero]

theorem givenBack_opened {fd fd' : ℕ} {ops : List FileOp} :
    GivenBack fd (ops ++ [.opened fd']) ↔ fd' ≠ fd ∧ GivenBack fd ops := by
  induction ops with
  | nil => simp [GivenBack]
  | cons op ops ih =>
    cases op with
    | opened fd₀ =>
      simp only [List.cons_append, GivenBack, List.mem_append, List.mem_singleton, reduceCtorEq,
        or_false, ih]
      tauto
    | closed fd₀ => exact ih

theorem givenBack_closed {fd fd' : ℕ} {ops : List FileOp} :
    GivenBack fd (ops ++ [.closed fd']) ↔ fd' = fd ∨ GivenBack fd ops := by
  induction ops with
  | nil => simp [GivenBack]
  | cons op ops ih =>
    cases op with
    | opened fd₀ =>
      simp only [List.cons_append, GivenBack, List.mem_append, List.mem_singleton,
        FileOp.closed.injEq, ih]
      tauto
    | closed fd₀ => exact ih

/-- From the first call of `Stop` on, the number is free exactly when it has been given back. -/
def Tracked (s : Process) : Prop :=
  1 ≤ s.stops → (s.files.owner s.ePollHandle = none ↔ GivenBack s.ePollHandle s.since)

theorem tracked_stop (s : Process) : s.stop.Tracked := fun _ =>
  iff_of_true ((s.files.owner_close _ _).trans (if_pos rfl)) trivial

theorem Tracked.openFile (h : s.Tracked) (f : File) : (s.openFile f).Tracked := by
  intro hpos
  have howner : (s.files.opened f).owner s.ePollHandle = none ↔
      s.files.fresh ≠ s.ePollHandle ∧ s.files.owner s.ePollHandle = none := by
    rw [s.files.owner_opened]
    split
    next heq => simp [heq]
    next hne => simp [Ne.symm hne]
  exact howner.trans ((and_congr_right fun _ => h hpos).trans givenBack_opened.symm)

theorem Tracked.closeFile (h : s.Tracked) (fd : Option ℕ) : (s.closeFile fd).Tracked := by
  intro hpos
  cases fd with
  | none =>
    simp only [Process.closeFile, Option.elim_none, Option.map_none, Option.toList_none,
      List.append_nil]
    exact h hpos
  | some fd =>
    have howner : (s.files.close fd).owner s.ePollHandle = none ↔
        fd = s.ePollHandle ∨ s.files.owner s.ePollHandle = none := by
      rw [s.files.owner_close]
      split
      next heq => simp [heq]
      next hne => simp [Ne.symm hne]
    exact howner.trans ((or_congr_right (h hpos)).trans givenBack_closed.symm)

theorem Tracked.continued (h : s.Tracked) (m : MainState) : (s.continued m).Tracked := by
  unfold Process.continued
  split
  · exact h.closeFile s.listener
  · exact h

theorem Tracked.move (htest : env.readJson strCommandTest = some stopprocTree)
    (hid : env.lib.uint8 "1" = some 1) (h : s.Tracked) (hm : s.Move env a s') : s'.Tracked := by
  cases hm with
  | @main b m =>
    apply Tracked.continued
    cases b with
    | createOk => exact h.openFile .listener
    | connect => exact h.openFile .client
    | peerCloses | recvFails => exact h.closeFile s.clientSocket
    | receive buffer =>
      rw [effect_of_callsStop htest hid rfl]
      exact tracked_stop s
    | signal => exact tracked_stop s
    | _ => exact h
  | @bindFails m =>
    have hopened : s.openListener.Tracked := h.openFile .listener
    exact hopened.continued m
  | abort => exact tracked_stop s

theorem Tracked.handleGivenBack_iff (h : s.Tracked) :
    (CallsStop a = true → s.stops = 0 ∨ s.files.owner s.ePollHandle = none) ↔
      s.HandleGivenBack a := by
  apply imp_congr_right
  intro _
  rcases Nat.eq_zero_or_pos s.stops with hzero | hpos
  · simp [hzero]
  · exact or_congr_right (h hpos)

section
variable {registered : List Fd} {o : Opened}

/-- `main` lives as it does without the table. -/
theorem main_reaches (h : Reaches (step env) anyStep (start registered o) s) :
    Reaches (MainState.step env) anyStep (.start registered) s.main := by
  have hsim : ∃ m, Reaches (MainState.step env) anyStep (.start registered) m ∧ s.main = m := by
    apply h.simulation (R := fun s m => s.main = m) rfl
    rintro s a s' m rfl - hs
    cases step_move hs with
    | @main b m hm | @bindFails m hm =>
      exact ⟨m, .single trivial hm, main_continued _ m⟩
    | abort => exact ⟨s.main, .refl, rfl⟩
  obtain ⟨m, hm, rfl⟩ := hsim
  exact hm

theorem callsStop_of_opens (hopens : Opens a = true) : CallsStop a = false := by
  cases a with
  | main b => cases b <;> first | rfl | cases hopens
  | bindFails => rfl
  | abort => cases hopens

theorem Move.mem_since (htest : env.readJson strCommandTest = some stopprocTree)
    (hid : env.lib.uint8 "1" = some 1) (hm : s.Move env a s') (hopens : Opens a = false) {fd : ℕ}
    (hfd : .opened fd ∈ s'.since) : CallsStop a = false ∧ .opened fd ∈ s.since := by
  have hclose : ∀ (t : Process) (fd' : Option ℕ), .opened fd ∈ (t.closeFile fd').since →
      .opened fd ∈ t.since := by
    intro t fd' h
    rcases List.mem_append.mp h with h | h
    · exact h
    · cases fd' <;> simp at h
  have hcontinued : ∀ (t : Process) (m : MainState), .opened fd ∈ (t.continued m).since →
      .opened fd ∈ t.since := by
    intro t m h
    unfold Process.continued at h
    split at h
    · exact hclose t t.listener h
    · exact h
  cases hm with
  | @main b m =>
    have hfd := hcontinued _ _ hfd
    cases b with
    | createOk | connect => cases hopens
    | receive buffer =>
      rw [effect_of_callsStop htest hid rfl] at hfd
      cases hfd
    | signal => cases hfd
    | peerCloses | recvFails => exact ⟨rfl, hclose s s.clientSocket hfd⟩
    | _ => exact ⟨rfl, hfd⟩
  | bindFails => cases hopens
  | abort => cases hfd

theorem givenBack_of_noneOpened {fd : ℕ} {ops : List FileOp} (h : .opened fd ∉ ops) :
    GivenBack fd ops := by
  induction ops with
  | nil => trivial
  | cons op ops ih =>
    have hrest := ih fun hmem => h (List.mem_cons_of_mem _ hmem)
    cases op with
    | opened fd' =>
      refine ⟨?_, hrest⟩
      rintro rfl
      exact absurd (List.mem_cons_self ..) h
    | closed fd' => exact hrest

/-- A run that opens no descriptor after the first call of `Stop` meets the guard. -/
theorem handleGivenBack_of_opensBefore (htest : env.readJson strCommandTest = some stopprocTree)
    (hid : env.lib.uint8 "1" = some 1)
    (h : Reaches (step env) OpensBefore (start registered o) s) :
    Reaches (step env) HandleGivenBack (start registered o) s := by
  apply h.mono_of_invariant (I := fun s => 1 ≤ s.stops → ∀ fd, .opened fd ∉ s.since)
  · exact fun hpos => absurd hpos (Nat.not_succ_le_zero 0)
  · intro s a s' hnone hok hs hpos fd hfd
    have hm := step_move hs
    cases hopens : Opens a with
    | true =>
      rw [(hm.quiet (callsStop_of_opens hopens)).1, hok hopens] at hpos
      cases hpos
    | false =>
      obtain ⟨hcall, hold⟩ := hm.mem_since htest hid hopens hfd
      exact hnone ((hm.quiet hcall).1 ▸ hpos) fd hold
  · intro s a hnone _ _
    rcases Nat.eq_zero_or_pos s.stops with hzero | hpos
    · exact .inl hzero
    · exact .inr (givenBack_of_noneOpened (hnone hpos _))

/-- **Stop is idempotent on descriptors** in a run exactly when, before each call of `Stop`
after the first, every descriptor that was given the number of the epoll handle since the call
before has been closed. -/
theorem stop_idempotent_iff (htest : env.readJson strCommandTest = some stopprocTree)
    (hid : env.lib.uint8 "1" = some 1)
    (h : Reaches (step env) anyStep (start registered o) s) :
    s.StopsOnce ↔ Reaches (step env) HandleGivenBack (start registered o) s := by
  apply h.iff_guarded (I := fun s => s.FirstClosed ∧ s.Tracked)
    ⟨firstClosed_start registered o, fun hpos => absurd hpos (Nat.not_succ_le_zero 0)⟩
  · exact fun hpos => absurd hpos (Nat.not_succ_le_zero 0)
  · rintro s a s' ⟨hfirst, htracked⟩ hs
    exact ⟨hfirst.move htest hid (step_move hs), htracked.move htest hid (step_move hs)⟩
  · rintro s a s' ⟨hfirst, htracked⟩ hs
    rw [hfirst.stopsOnce_move htest hid (step_move hs), htracked.handleGivenBack_iff]

end

/-- The epoll handle after the standard streams, and a receiver. -/
def opened : Opened where
  files := ⟨[(3, .epoll), (0, .other), (1, .other), (2, .other), (4, .other)], by decide⟩
  ePollHandle := 3
  owned := rfl

/-- A client comes and goes between two signals. -/
theorem stop_idempotent_client_gone : ∃ s : Process, s.stops = 2 ∧ s.StopsOnce := by
  obtain ⟨s, hs, hstops⟩ : ∃ s, Reaches (step (sampleEnv ProxyState)) HandleGivenBack
      (start [4] opened) s ∧ s.stops = 2 :=
    exists_reaches_of_runChecked [.main .createOk, .main .listenOk, .main .signal,
      .main .connect, .main .recvFails, .main .signal] (by decide)
  have h : Reaches (step (sampleEnv ProxyState)) anyStep (start [4] opened) s :=
    hs.mono fun _ _ _ => trivial
  exact ⟨s, hstops, (stop_idempotent_iff rfl rfl h).mpr hs⟩

/-- A client connects between two signals, and the second one closes its descriptor. -/
theorem client_closed_by_stop : ¬ ∀ s,
    Reaches (step (sampleEnv ProxyState)) anyStep (start [4] opened) s → s.StopsOnce := by
  intro hstated
  obtain ⟨s, hs, honce⟩ : ∃ s, Reaches (step (sampleEnv ProxyState)) anyStep
      (start [4] opened) s ∧ ¬ s.StopsOnce :=
    exists_reaches_of_runChecked [.main .createOk, .main .listenOk, .main .signal,
      .main .connect, .main .signal] (by decide)
  exact honce (hstated s hs)

end Process
end MddProxy
