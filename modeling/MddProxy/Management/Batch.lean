import MddProxy.Management.Command

/-!
# Batches with commands that fail

What the loop of `ProcessCommand` makes of any parsed tree. A command that lacks a name
or an id throws; one that lacks its value is met by `get()` on an empty `optional`, which
is no exception.
-/
namespace MddProxy

open PropertyTree

namespace CommandEnv

variable {σ : Type} (env : CommandEnv σ)

def serve (tree : PTree) (s : Session σ) : Option (List UInt8 × Session σ) :=
  match exec (env.dispatchAll tree.children) { s with retCode := 0 } with
  | (.ok (), s) => some (env.writeJson (responseTree s.retCode), s)
  | (.error .exception, s) => some (env.writeJson (responseTree (-1)), { s with retCode := -1 })
  | (.error .undefined, _) => none

theorem processCommand_eq_serve {tree : PTree} (hread : env.readJson strCommandTest = some tree)
    (buffer : List UInt8) (s : Session σ) : env.processCommand buffer s = env.serve tree s := by
  rw [processCommand, parseAndDispatch, hread]
  rfl

def HasId (lib : Boost) (command : PTree) (id : UInt8) : Prop :=
  (∃ commandName, lib.getString command ["name"] = .ok commandName) ∧
    lib.get lib.uint8 command ["id"] = .ok id

def Unreadable (lib : Boost) (command : PTree) : Prop := ∀ id, ¬ HasId lib command id

def UnknownId (lib : Boost) (command : PTree) : Prop :=
  ∃ id, HasId lib command id ∧ ¬ (1 ≤ id.toNat ∧ id.toNat ≤ 7)

/-- The value that an id from 4 to 7 needs cannot be read. -/
inductive ValueUnreadable (lib : Boost) (command : PTree) : UInt8 → Prop
  | logLevel (h : lib.getOptional some command ["value"] = none) : ValueUnreadable lib command 4
  | sndBufferSize (h : lib.getOptional lib.uint32 command ["value"] = none) :
      ValueUnreadable lib command 5
  | rcvBufferSize (h : lib.getOptional lib.uint32 command ["value"] = none) :
      ValueUnreadable lib command 6
  | workers (h : lib.getOptional lib.uint16 command ["value"] = none) :
      ValueUnreadable lib command 7

def MissingValue (lib : Boost) (command : PTree) : Prop :=
  ∃ id, HasId lib command id ∧ ValueUnreadable lib command id

variable {env} {lib : Boost} {command : PTree} {id : UInt8} {op : ProxyOperation}
  {s : Session σ}

theorem id_cases (h : 1 ≤ id.toNat ∧ id.toNat ≤ 7) :
    id = 1 ∨ id = 2 ∨ id = 3 ∨ id = 4 ∨ id = 5 ∨ id = 6 ∨ id = 7 := by
  simp only [← UInt8.toNat_inj, UInt8.reduceToNat]
  omega

theorem requests_or_missing (h : 1 ≤ id.toNat ∧ id.toNat ≤ 7) :
    (∃ op, Requests lib command id op) ∨ ValueUnreadable lib command id := by
  rcases id_cases h with rfl | rfl | rfl | rfl | rfl | rfl | rfl
  · exact .inl ⟨_, .stop⟩
  · exact .inl ⟨_, .startStats⟩
  · exact .inl ⟨_, .stopStats⟩
  · cases hv : lib.getOptional some command ["value"] with
    | none => exact .inr (.logLevel hv)
    | some value => exact .inl ⟨_, .logLevel hv⟩
  · cases hv : lib.getOptional lib.uint32 command ["value"] with
    | none => exact .inr (.sndBufferSize hv)
    | some value => exact .inl ⟨_, .sndBufferSize hv⟩
  · cases hv : lib.getOptional lib.uint32 command ["value"] with
    | none => exact .inr (.rcvBufferSize hv)
    | some value => exact .inl ⟨_, .rcvBufferSize hv⟩
  · cases hv : lib.getOptional lib.uint16 command ["value"] with
    | none => exact .inr (.workers hv)
    | some value => exact .inl ⟨_, .workers hv⟩

theorem command_cases (lib : Boost) (command : PTree) : Unreadable lib command ∨
    UnknownId lib command ∨ MissingValue lib command ∨ ∃ op, ValidCommand lib command op := by
  by_cases hid : ∃ id, HasId lib command id
  · obtain ⟨id, hid⟩ := hid
    by_cases hknown : 1 ≤ id.toNat ∧ id.toNat ≤ 7
    · have hcases : (∃ op, Requests lib command id op) ∨ ValueUnreadable lib command id :=
        requests_or_missing hknown
      rcases hcases with ⟨op, hop⟩ | hmissing
      · exact .inr (.inr (.inr ⟨op, hid.1, id, hid.2, hop⟩))
      · exact .inr (.inr (.inl ⟨id, hid, hmissing⟩))
    · exact .inr (.inl ⟨id, hid, hknown⟩)
  · exact .inl fun id h => hid ⟨id, h⟩

theorem exec_access_error {α : Type} {x : Except PTreeError α} (h : ∀ a, x ≠ .ok a) :
    exec (access x) s = (.error .exception, s) := by
  cases x with
  | ok a => exact absurd rfl (h a)
  | error e => rfl

theorem exec_getValue_none {α : Type} {optionalValue : Option α} (h : optionalValue = none) :
    exec (getValue optionalValue) s = (.error .undefined, s) := by
  subst h
  rfl

theorem exec_dispatch_unreadable (h : Unreadable env.lib command) :
    exec (env.dispatch command) s = (.error .exception, s) := by
  rw [dispatch]
  cases hname : env.lib.getString command ["name"] with
  | error e =>
    apply exec_bind_error
    apply exec_access_error
    intro commandName hok
    cases hok
  | ok commandName =>
    rw [exec_bind_ok (exec_access rfl)]
    apply exec_bind_error
    apply exec_access_error
    intro id hid
    exact h id ⟨⟨commandName, hname⟩, hid⟩

theorem exec_dispatch_unknown (h : UnknownId env.lib command) :
    exec (env.dispatch command) s = (.ok (), { s with retCode := -1 }) := by
  obtain ⟨id, ⟨⟨commandName, hname⟩, hid⟩, hrange⟩ := h
  rw [dispatch, exec_bind_ok (exec_access hname), exec_bind_ok (exec_access hid)]
  split
  all_goals first | omega | rfl

theorem exec_dispatch_missing (h : MissingValue env.lib command) :
    exec (env.dispatch command) s = (.error .undefined, s) := by
  obtain ⟨id, ⟨⟨commandName, hname⟩, hid⟩, hvalue⟩ := h
  rw [dispatch, exec_bind_ok (exec_access hname), exec_bind_ok (exec_access hid)]
  cases hvalue with
  | logLevel h | sndBufferSize h | rcvBufferSize h | workers h =>
    exact exec_bind_error (exec_getValue_none h)

/-- What a batch has to do: the operations invoked, the proxy they leave, the response. A
command that fails is the last one to be looked at. -/
inductive Batch (env : CommandEnv σ) :
    List (String × PTree) → σ → List ProxyOperation → σ → Int → Prop
  | nil {proxy : σ} : Batch env [] proxy [] proxy 0
  | applied {key : String} {command : PTree} {commands : List (String × PTree)}
      {op : ProxyOperation} {ops : List ProxyOperation} {proxy proxy₁ proxy' : σ} {retCode : Int} :
      ValidCommand env.lib command op → env.perform op proxy = .ok proxy₁ →
      Batch env commands proxy₁ ops proxy' retCode →
      Batch env ((key, command) :: commands) proxy (op :: ops) proxy' retCode
  | unknown {key : String} {command : PTree} {commands : List (String × PTree)}
      {ops : List ProxyOperation} {proxy proxy' : σ} {retCode : Int} :
      UnknownId env.lib command → Batch env commands proxy ops proxy' retCode →
      Batch env ((key, command) :: commands) proxy ops proxy' (-1)
  | malformed {key : String} {command : PTree} {commands : List (String × PTree)} {proxy : σ} :
      Unreadable env.lib command ∨ MissingValue env.lib command →
      Batch env ((key, command) :: commands) proxy [] proxy (-1)
  | throws {key : String} {command : PTree} {commands : List (String × PTree)}
      {op : ProxyOperation} {proxy proxy' : σ} :
      ValidCommand env.lib command op → env.perform op proxy = .error proxy' →
      Batch env ((key, command) :: commands) proxy [op] proxy' (-1)

/-- The first command to fail has an id from 4 to 7 and no value. -/
inductive MissingFirst (env : CommandEnv σ) : List (String × PTree) → σ → Prop
  | here {key : String} {command : PTree} {commands : List (String × PTree)} {proxy : σ} :
      MissingValue env.lib command → MissingFirst env ((key, command) :: commands) proxy
  | applied {key : String} {command : PTree} {commands : List (String × PTree)}
      {op : ProxyOperation} {proxy proxy₁ : σ} :
      ValidCommand env.lib command op → env.perform op proxy = .ok proxy₁ →
      MissingFirst env commands proxy₁ → MissingFirst env ((key, command) :: commands) proxy
  | unknown {key : String} {command : PTree} {commands : List (String × PTree)} {proxy : σ} :
      UnknownId env.lib command → MissingFirst env commands proxy →
      MissingFirst env ((key, command) :: commands) proxy

/-- `ProcessCommand` does what the batch has to do, and says so. -/
def Served (env : CommandEnv σ) (tree : PTree) (s : Session σ) : Prop :=
  ∀ ops proxy' retCode, Batch env tree.children s.proxy ops proxy' retCode →
    ∃ s', env.serve tree s = some (env.writeJson (responseTree retCode), s') ∧
      s'.proxy = proxy' ∧ s'.invoked = s.invoked ++ ops ∧ s'.retCode = retCode

variable {commands : List (String × PTree)} {ops : List ProxyOperation} {proxy proxy' : σ}
  {retCode : Int}

theorem exists_batch (env : CommandEnv σ) (commands : List (String × PTree)) (proxy : σ) :
    ∃ ops proxy' retCode, Batch env commands proxy ops proxy' retCode := by
  induction commands generalizing proxy with
  | nil => exact ⟨[], proxy, 0, .nil⟩
  | cons child commands ih =>
    obtain ⟨key, command⟩ := child
    rcases command_cases env.lib command with hunread | hunknown | hmissing | ⟨op, hvalid⟩
    · exact ⟨_, _, _, .malformed (.inl hunread)⟩
    · obtain ⟨ops, proxy', retCode, h⟩ := ih proxy
      exact ⟨_, _, _, .unknown hunknown h⟩
    · exact ⟨_, _, _, .malformed (.inr hmissing)⟩
    · cases hop : env.perform op proxy with
      | ok proxy₁ =>
        obtain ⟨ops, proxy', retCode, h⟩ := ih proxy₁
        exact ⟨_, _, _, .applied hvalid hop h⟩
      | error proxy₁ => exact ⟨_, _, _, .throws hvalid hop⟩

theorem Batch.retCode_cases (h : Batch env commands proxy ops proxy' retCode) :
    retCode = 0 ∨ retCode = -1 := by
  induction h with
  | nil => exact .inl rfl
  | applied _ _ _ ih => exact ih
  | unknown | malformed | throws => exact .inr rfl

theorem Batch.valid (h : Batch env commands proxy ops proxy' retCode) (hzero : retCode = 0) :
    List.Forall₂ (fun child op => ValidCommand env.lib child.2 op) commands ops ∧
      env.Performs ops proxy proxy' := by
  induction h with
  | nil => exact ⟨.nil, .nil⟩
  | applied hvalid hop _ ih =>
    obtain ⟨hcommands, hperforms⟩ := ih hzero
    exact ⟨.cons hvalid hcommands, .cons hop hperforms⟩
  | unknown | malformed | throws => cases hzero

/-- How the loop ends: with the sticky `retCode`, or by an exception. -/
structure Ended (r : Except Interrupt Unit × Session σ) (s : Session σ)
    (ops : List ProxyOperation) (proxy' : σ) (retCode : Int) : Prop where
  proxy : r.2.proxy = proxy'
  invoked : r.2.invoked = s.invoked ++ ops
  result : r.1 = .ok () ∧ r.2.retCode = (if retCode = 0 then s.retCode else -1) ∨
    r.1 = .error .exception ∧ retCode = -1

theorem Ended.applied {r : Except Interrupt Unit × Session σ} {proxy₁ : σ}
    (h : Ended r (s.after [op] proxy₁) ops proxy' retCode) :
    Ended r s (op :: ops) proxy' retCode where
  proxy := h.proxy
  invoked := by simp [h.invoked, Session.after]
  result := h.result

theorem exec_dispatchAll_ok {key : String} {s' : Session σ}
    (h : exec (env.dispatch command) s = (.ok (), s')) :
    exec (env.dispatchAll ((key, command) :: commands)) s = exec (env.dispatchAll commands) s' :=
  exec_bind_ok h

theorem exec_dispatchAll_error {key : String} {s' : Session σ} {e : Interrupt}
    (h : exec (env.dispatch command) s = (.error e, s')) :
    exec (env.dispatchAll ((key, command) :: commands)) s = (.error e, s') :=
  exec_bind_error h

theorem Batch.ended (h : Batch env commands proxy ops proxy' retCode)
    (hmissing : ¬ MissingFirst env commands proxy) (hs : s.proxy = proxy) :
    Ended (exec (env.dispatchAll commands) s) s ops proxy' retCode := by
  induction h generalizing s with
  | nil =>
    subst hs
    exact ⟨rfl, (List.append_nil _).symm, .inl ⟨rfl, rfl⟩⟩
  | @applied key command commands op ops proxy proxy₁ proxy' retCode hvalid hop _ ih =>
    subst hs
    have hhead := exec_dispatch hvalid s
    rw [hop] at hhead
    rw [exec_dispatchAll_ok hhead]
    exact (ih (fun hm => hmissing (.applied hvalid hop hm)) rfl).applied
  | @unknown key command commands ops proxy proxy' retCode hunknown _ ih =>
    rw [exec_dispatchAll_ok (exec_dispatch_unknown hunknown)]
    obtain ⟨hproxy, hinvoked, hresult⟩ :=
      ih (s := { s with retCode := -1 }) (fun hm => hmissing (.unknown hunknown hm)) hs
    refine ⟨hproxy, hinvoked, ?_⟩
    rcases hresult with ⟨hok, hcode⟩ | ⟨herror, hcode⟩
    · exact .inl ⟨hok, by simpa using hcode⟩
    · exact .inr ⟨herror, rfl⟩
  | malformed hbad =>
    rcases hbad with hunread | hvalue
    · rw [exec_dispatchAll_error (exec_dispatch_unreadable hunread)]
      exact ⟨hs, (List.append_nil _).symm, .inr ⟨rfl, rfl⟩⟩
    · exact absurd (.here hvalue) hmissing
  | throws hvalid hop =>
    subst hs
    have hhead := exec_dispatch hvalid s
    rw [hop] at hhead
    rw [exec_dispatchAll_error hhead]
    exact ⟨rfl, rfl, .inr ⟨rfl, rfl⟩⟩

theorem served_of_not_missing {tree : PTree}
    (hmissing : ¬ MissingFirst env tree.children s.proxy) : Served env tree s := by
  intro ops proxy' retCode h
  have hcases := h.retCode_cases
  have hended := h.ended (s := { s with retCode := 0 }) hmissing rfl
  obtain ⟨hproxy, hinvoked, hresult⟩ := hended
  generalize hexec : exec (env.dispatchAll tree.children) { s with retCode := 0 } = r at *
  obtain ⟨result, s'⟩ := r
  simp only at hproxy hinvoked hresult
  rcases hresult with ⟨rfl, hcode⟩ | ⟨rfl, rfl⟩
  · have hsame : s'.retCode = retCode := by
      rcases hcases with rfl | rfl <;> simpa using hcode
    exact ⟨s', by simp only [serve, hexec, hsame], hproxy, hinvoked, hsame⟩
  · exact ⟨{ s' with retCode := -1 }, by simp only [serve, hexec], hproxy, hinvoked, rfl⟩

/-- A missing value ends the call without a response. -/
theorem MissingFirst.interrupts (h : MissingFirst env commands proxy) (hs : s.proxy = proxy) :
    (exec (env.dispatchAll commands) s).1 = .error .undefined := by
  induction h generalizing s with
  | here hvalue => rw [exec_dispatchAll_error (exec_dispatch_missing hvalue)]
  | applied hvalid hop _ ih =>
    subst hs
    have hhead := exec_dispatch hvalid s
    rw [hop] at hhead
    rw [exec_dispatchAll_ok hhead]
    exact ih rfl
  | unknown hunknown _ ih =>
    rw [exec_dispatchAll_ok (exec_dispatch_unknown hunknown)]
    exact ih hs

theorem MissingFirst.serve_eq_none {tree : PTree}
    (h : MissingFirst env tree.children s.proxy) : env.serve tree s = none := by
  have hinterrupt := h.interrupts (s := { s with retCode := 0 }) rfl
  generalize hexec : exec (env.dispatchAll tree.children) { s with retCode := 0 } = r at hinterrupt
  obtain ⟨result, s'⟩ := r
  obtain rfl : result = .error .undefined := hinterrupt
  simp only [serve, hexec]

theorem Served.not_missing {tree : PTree} (h : Served env tree s) :
    ¬ MissingFirst env tree.children s.proxy := by
  intro hmissing
  obtain ⟨ops, proxy', retCode, hbatch⟩ := exists_batch env tree.children s.proxy
  obtain ⟨s', hs', -⟩ := h ops proxy' retCode hbatch
  rw [hmissing.serve_eq_none] at hs'
  cases hs'

/-- **Batch semantics**: a parsed tree is served as its commands require exactly when the
first of them to fail, if any, is not one with an id from 4 to 7 and no value. -/
theorem batch_served_iff (env : CommandEnv σ) (tree : PTree) (s : Session σ) :
    Served env tree s ↔ ¬ MissingFirst env tree.children s.proxy :=
  ⟨Served.not_missing, served_of_not_missing⟩

def noLevel : PTree := .node "" [("name", .node "loglevel" []), ("id", .node "4" [])]

theorem missing_value_not_served :
    ¬ ∀ (tree : PTree) (s : Session Unit), Served (sampleEnv Unit) tree s := by
  intro hstated
  have hvalue : MissingValue (sampleEnv Unit).lib noLevel :=
    ⟨4, ⟨⟨"loglevel", rfl⟩, rfl⟩, .logLevel rfl⟩
  exact (hstated (.node "" [("", noLevel)]) (.start ())).not_missing (.here hvalue)

end CommandEnv
end MddProxy
