import MddProxy.Boost.PropertyTree
import Mathlib.Data.List.Forall2

/-!
# Management commands

`CommandLineInterface::ProcessCommand`: the `try` block with its loop over the parsed
commands, the seven operations it dispatches to, and the response. The JSON reader and
writer and the operations of the proxy are given.
-/
namespace MddProxy

open PropertyTree Collections

inductive LogLevelT where
  | informational
  | debug
  deriving DecidableEq, Repr

/-- The operations of `MddProxy` that commands reach; `startStats none` is the overload
without a frequency. -/
inductive ProxyOperation where
  | stop
  | startStats (frequency : Option UInt32)
  | stopStats
  | setLogLevel (newLogLevel : LogLevelT)
  | setSendBufferSize (newBufferSize : UInt32)
  | setRecvBufferSize (newBufferSize : UInt32)
  | addNewWorkers (count : UInt16)
  deriving DecidableEq, Repr

/-- `readJson` is `none` where `read_json` throws. An operation that throws leaves the
proxy in the state of the `error`. -/
structure CommandEnv (σ : Type) where
  lib : Boost
  readJson : List UInt8 → Option PTree
  writeJson : PTree → List UInt8
  perform : ProxyOperation → σ → Except σ σ

/-- The proxy and the operations invoked on it, the stop flag, and the local `retCode`. -/
structure Session (σ : Type) where
  proxy : σ
  invoked : List ProxyOperation
  stopCommandIntf : Bool
  retCode : Int
  deriving DecidableEq, Repr

def Session.start {σ : Type} (proxy : σ) : Session σ where
  proxy
  invoked := []
  stopCommandIntf := false
  retCode := 0

/-- The session after some commands whose operations have returned. -/
def Session.after {σ : Type} (s : Session σ) (ops : List ProxyOperation) (proxy : σ) : Session σ :=
  { s with
    proxy
    invoked := s.invoked ++ ops
    stopCommandIntf := s.stopCommandIntf || ops.contains .stop }

/-- How a command can break off: an exception, or `get()` on an empty `optional`. -/
inductive Interrupt where
  | exception
  | undefined
  deriving DecidableEq, Repr

abbrev CommandM (σ : Type) := ExceptT Interrupt (StateM (Session σ))

def exec {σ α : Type} (x : CommandM σ α) (s : Session σ) : Except Interrupt α × Session σ :=
  x.run s

namespace CommandEnv

variable {σ : Type} (env : CommandEnv σ)

def call (op : ProxyOperation) : CommandM σ Unit := do
  let s ← get
  match env.perform op s.proxy with
  | .ok proxy => set { s with proxy, invoked := s.invoked ++ [op] }
  | .error proxy => do
    set { s with proxy, invoked := s.invoked ++ [op] }
    throw .exception

/-- An access to the property tree that throws where the path or the data is bad. -/
def access {α : Type} (x : Except PTreeError α) : CommandM σ α :=
  match x with
  | .ok a => pure a
  | .error _ => throw .exception

def getValue {α : Type} (optionalValue : Option α) : CommandM σ α :=
  match optionalValue with
  | some a => pure a
  | none => throw .undefined

/-- What `strcmp` reads of `value.c_str()`: up to the first null character. -/
def cStr (value : String) : String :=
  String.ofList (value.toList.takeWhile (· ≠ Char.ofNat 0))

def dispatch (command : PTree) : CommandM σ Unit := do
  let _commandName ← access (env.lib.getString command ["name"])
  let id ← access (env.lib.get env.lib.uint8 command ["id"])
  match id.toNat with
  | 1 => do
    env.call .stop
    modify fun s => { s with stopCommandIntf := true }
  | 2 => env.call (.startStats (env.lib.getOptional env.lib.uint32 command ["value"]))
  | 3 => env.call .stopStats
  | 4 => do
    let value ← getValue (env.lib.getOptional some command ["value"])
    env.call (.setLogLevel (if cStr value = "DEBUG" then .debug else .informational))
  | 5 => do
    let value ← getValue (env.lib.getOptional env.lib.uint32 command ["value"])
    env.call (.setSendBufferSize value)
  | 6 => do
    let value ← getValue (env.lib.getOptional env.lib.uint32 command ["value"])
    env.call (.setRecvBufferSize value)
  | 7 => do
    let value ← getValue (env.lib.getOptional env.lib.uint16 command ["value"])
    env.call (.addNewWorkers value)
  | _ => modify fun s => { s with retCode := -1 }

def dispatchAll (commands : List (String × PTree)) : CommandM σ Unit :=
  commands.forM fun command => env.dispatch command.2

def bytes (text : String) : List UInt8 := text.toList.map fun c => c.toNat.toUInt8

def strCommandTest : List UInt8 := bytes "[\x7b\"name\": \"stopproc\",\"id\":1\x7d]"

def parseAndDispatch (is : List UInt8) : CommandM σ Unit := do
  match env.readJson is with
  | some tree => env.dispatchAll tree.children
  | none => throw .exception

/-- The tree of the response; `put<int8_t>` writes a number. -/
def responseTree (retCode : Int) : PTree :=
  .node "" [("response", .node "" [("retCode", .node (toString retCode) [])])]

/-- `ProcessCommand`: `strCommand` is made of the buffer, `is` of `strCommandTest`. -/
def processCommand (buffer : List UInt8) (s : Session σ) :
    Option (List UInt8 × Session σ) :=
  let _strCommand := buffer
  let is := strCommandTest
  match exec (env.parseAndDispatch is) { s with retCode := 0 } with
  | (.ok (), s) => some (env.writeJson (responseTree s.retCode), s)
  | (.error .exception, s) => some (env.writeJson (responseTree (-1)), { s with retCode := -1 })
  | (.error .undefined, _) => none

/-- The operation behind an `id`, with the value it needs. -/
inductive Requests (lib : Boost) (command : PTree) : UInt8 → ProxyOperation → Prop
  | stop : Requests lib command 1 .stop
  | startStats : Requests lib command 2
      (.startStats (lib.getOptional lib.uint32 command ["value"]))
  | stopStats : Requests lib command 3 .stopStats
  | logLevel {value : String} (h : lib.getOptional some command ["value"] = some value) :
      Requests lib command 4
        (.setLogLevel (if cStr value = "DEBUG" then .debug else .informational))
  | sndBufferSize {value : UInt32}
      (h : lib.getOptional lib.uint32 command ["value"] = some value) :
      Requests lib command 5 (.setSendBufferSize value)
  | rcvBufferSize {value : UInt32}
      (h : lib.getOptional lib.uint32 command ["value"] = some value) :
      Requests lib command 6 (.setRecvBufferSize value)
  | workers {value : UInt16}
      (h : lib.getOptional lib.uint16 command ["value"] = some value) :
      Requests lib command 7 (.addNewWorkers value)

/-- A command object with a name, an id and the value that the id needs. -/
structure ValidCommand (lib : Boost) (command : PTree) (op : ProxyOperation) : Prop where
  name : ∃ commandName, lib.getString command ["name"] = .ok commandName
  id : ∃ id, lib.get lib.uint8 command ["id"] = .ok id ∧ Requests lib command id op

/-- An array (children without keys) of commands that ask for `ops`. -/
structure ValidBatch (lib : Boost) (tree : PTree) (ops : List ProxyOperation) : Prop where
  array : ∀ child ∈ tree.children, child.1 = ""
  commands : List.Forall₂ (fun child op => ValidCommand lib child.2 op) tree.children ops

/-- The operations return one after the other, from `proxy` to `proxy'`. -/
inductive Performs : List ProxyOperation → σ → σ → Prop
  | nil {proxy : σ} : Performs [] proxy proxy
  | cons {op : ProxyOperation} {ops : List ProxyOperation} {proxy proxy₁ proxy' : σ} :
      env.perform op proxy = .ok proxy₁ → Performs ops proxy₁ proxy' →
      Performs (op :: ops) proxy proxy'

variable {env} {α β : Type} {s s' : Session σ} {op : ProxyOperation} {proxy proxy' : σ}

theorem exec_bind (x : CommandM σ α) (f : α → CommandM σ β) (s : Session σ) :
    exec (x >>= f) s = match exec x s with
      | (.ok a, s') => exec (f a) s'
      | (.error e, s') => (.error e, s') := by
  change (match exec x s with | (r, s') => ExceptT.bindCont f r s') = _
  rcases exec x s with ⟨_ | _, _⟩ <;> rfl

theorem exec_bind_ok {x : CommandM σ α} {f : α → CommandM σ β} {a : α}
    (h : exec x s = (.ok a, s')) : exec (x >>= f) s = exec (f a) s' := by
  rw [exec_bind, h]

theorem exec_bind_error {x : CommandM σ α} {f : α → CommandM σ β} {e : Interrupt}
    (h : exec x s = (.error e, s')) : exec (x >>= f) s = (.error e, s') := by
  rw [exec_bind, h]

theorem exec_access {x : Except PTreeError α} {a : α} (h : x = .ok a) :
    exec (access x) s = (.ok a, s) := by
  subst h
  rfl

theorem exec_getValue {optionalValue : Option α} {a : α} (h : optionalValue = some a) :
    exec (getValue optionalValue) s = (.ok a, s) := by
  subst h
  rfl

theorem exec_call (op : ProxyOperation) (s : Session σ) : exec (env.call op) s =
    match env.perform op s.proxy with
    | .ok proxy => (.ok (), { s with proxy, invoked := s.invoked ++ [op] })
    | .error proxy => (.error .exception, { s with proxy, invoked := s.invoked ++ [op] }) := by
  change exec (match env.perform op s.proxy with
    | .ok proxy => set { s with proxy, invoked := s.invoked ++ [op] }
    | .error proxy => do
      set { s with proxy, invoked := s.invoked ++ [op] }
      throw .exception) s = _
  cases env.perform op s.proxy <;> rfl

/-- One valid command invokes the operation it asks for, once; it breaks off when the
operation throws. -/
theorem exec_dispatch {command : PTree} (hvalid : ValidCommand env.lib command op)
    (s : Session σ) : exec (env.dispatch command) s = match env.perform op s.proxy with
      | .ok proxy => (.ok (), s.after [op] proxy)
      | .error proxy => (.error .exception, { s with proxy, invoked := s.invoked ++ [op] }) := by
  obtain ⟨commandName, hname⟩ := hvalid.name
  obtain ⟨id, hid, hreq⟩ := hvalid.id
  have hcall : exec (env.call op) s = _ := exec_call op s
  rw [dispatch, exec_bind_ok (exec_access hname), exec_bind_ok (exec_access hid)]
  cases hreq with
  | stop =>
    cases hop : env.perform .stop s.proxy with
    | ok proxy =>
      rw [hop] at hcall
      refine (exec_bind_ok hcall).trans ?_
      change (Except.ok (), _) = _
      simp [Session.after]
    | error proxy =>
      rw [hop] at hcall
      exact exec_bind_error hcall
  | startStats | stopStats => simpa [Session.after] using hcall
  | logLevel h | sndBufferSize h | rcvBufferSize h | workers h =>
    refine (exec_bind_ok (exec_getValue h)).trans ?_
    simpa [Session.after] using hcall

theorem exec_dispatchAll {commands : List (String × PTree)} {ops : List ProxyOperation}
    (hvalid : List.Forall₂ (fun child op => ValidCommand env.lib child.2 op) commands ops)
    (hops : env.Performs ops s.proxy proxy') :
    exec (env.dispatchAll commands) s = (.ok (), s.after ops proxy') := by
  induction hvalid generalizing s with
  | nil =>
    cases hops
    simp [Session.after, dispatchAll, exec]
    rfl
  | @cons child op commands ops hchild _ ih =>
    cases hops with
    | cons hop hrest =>
      have hhead := exec_dispatch hchild s
      rw [hop] at hhead
      refine (exec_bind_ok hhead).trans ((ih hrest).trans ?_)
      simp [Session.after, Bool.or_assoc]

def stopproc : PTree := .node "" [("name", .node "stopproc" []), ("id", .node "1" [])]

/-- The JSON value that `strCommandTest` denotes. -/
def stopprocTree : PTree := .node "" [("", stopproc)]

theorem validCommand_stopproc {lib : Boost} (hid : lib.uint8 "1" = some 1) :
    ValidCommand lib stopproc .stop := by
  have hname : lib.getChildOptional stopproc ["name"] = some (.node "stopproc" []) :=
    lib.getChildOptional_single (by simp) (by simp)
  have hone : lib.getChildOptional stopproc ["id"] = some (.node "1" []) :=
    lib.getChildOptional_single (by simp) (by simp)
  refine ⟨⟨"stopproc", ?_⟩, 1, ?_, .stop⟩
  · simp only [Boost.getString, Boost.get, Boost.getChild, hname]
    rfl
  · simp only [Boost.get, Boost.getChild, hone]
    simp only [pure_bind, PTree.data, hid]
    rfl

/-- Whatever the client sent, `Stop` is invoked and nothing else. -/
theorem processCommand_eq (htest : env.readJson strCommandTest = some stopprocTree)
    (hid : env.lib.uint8 "1" = some 1) (buffer : List UInt8) (s : Session σ) :
    env.processCommand buffer s = match env.perform .stop s.proxy with
      | .ok proxy => some (env.writeJson (responseTree 0),
          { s with proxy, invoked := s.invoked ++ [.stop], stopCommandIntf := true, retCode := 0 })
      | .error proxy => some (env.writeJson (responseTree (-1)),
          { s with proxy, invoked := s.invoked ++ [.stop], retCode := -1 }) := by
  have hparse : env.parseAndDispatch strCommandTest = env.dispatchAll [("", stopproc)] := by
    simp only [parseAndDispatch, htest]
    rfl
  have hvalid := validCommand_stopproc hid
  simp only [processCommand, hparse]
  cases hop : env.perform .stop s.proxy with
  | ok proxy =>
    rw [exec_dispatchAll (s := { s with retCode := 0 }) (.cons hvalid .nil) (.cons hop .nil)]
    simp [Session.after]
  | error proxy =>
    have hhead := exec_dispatch hvalid { s with retCode := 0 }
    simp only [hop] at hhead
    have hall : exec (env.dispatchAll [("", stopproc)]) { s with retCode := 0 } = _ :=
      exec_bind_error hhead
    rw [hall]

def NoThrow (env : CommandEnv σ) (ops : List ProxyOperation) (proxy : σ) : Prop :=
  ∃ proxy', env.Performs ops proxy proxy'

/-- The client's commands are executed, and a text that is not JSON executes nothing. -/
structure CommandsExecuted (env : CommandEnv σ) (buffer : List UInt8) (proxy : σ) : Prop where
  valid : ∀ tree ops, env.readJson buffer = some tree → ValidBatch env.lib tree ops →
    env.NoThrow ops proxy → ∃ s,
      env.processCommand buffer (.start proxy) = some (env.writeJson (responseTree 0), s) ∧
      s.invoked = ops ∧ (s.stopCommandIntf = true ↔ .stop ∈ ops)
  malformed : env.readJson buffer = none → ∃ s,
    env.processCommand buffer (.start proxy) = some (env.writeJson (responseTree (-1)), s) ∧
    s.invoked = [] ∧ s.stopCommandIntf = false

theorem processCommand_invoked (htest : env.readJson strCommandTest = some stopprocTree)
    (hid : env.lib.uint8 "1" = some 1) {buffer : List UInt8} {response : List UInt8}
    (h : env.processCommand buffer (.start proxy) = some (response, s)) : s.invoked = [.stop] := by
  rw [processCommand_eq htest hid] at h
  cases hop : env.perform .stop (Session.start proxy).proxy with
  | ok proxy' | error proxy' =>
    rw [hop] at h
    obtain ⟨-, rfl⟩ := Prod.mk.inj (Option.some.inj h)
    rfl

/-- **Client commands are what gets executed** exactly for well-formed JSON that, if it
is a valid batch whose operations return, is the single command that stops the proxy. -/
theorem commands_executed_iff (htest : env.readJson strCommandTest = some stopprocTree)
    (hid : env.lib.uint8 "1" = some 1) (buffer : List UInt8) (proxy : σ) :
    CommandsExecuted env buffer proxy ↔ ∃ tree, env.readJson buffer = some tree ∧
      ∀ ops, ValidBatch env.lib tree ops → env.NoThrow ops proxy → ops = [.stop] := by
  constructor
  · intro h
    cases hread : env.readJson buffer with
    | none =>
      obtain ⟨s, hs, hnone, -⟩ := h.malformed hread
      rw [processCommand_invoked htest hid hs] at hnone
      cases hnone
    | some tree =>
      refine ⟨tree, rfl, fun ops hvalid hops => ?_⟩
      obtain ⟨s, hs, hinvoked, -⟩ := h.valid tree ops hread hvalid hops
      rw [← hinvoked, processCommand_invoked htest hid hs]
  · rintro ⟨tree, hread, hstop⟩
    constructor
    · intro tree' ops hread' hvalid hops
      obtain rfl : tree = tree' := Option.some.inj (hread.symm.trans hread')
      obtain rfl := hstop ops hvalid hops
      obtain ⟨_, _ | ⟨hop, -⟩⟩ := hops
      rw [processCommand_eq htest hid]
      simp [Session.start, hop]
    · intro hnone
      rw [hread] at hnone
      cases hnone

/-- A reader that knows two texts, the writer of responses, and operations that return. -/
def sampleEnv (σ : Type) : CommandEnv σ where
  lib := .plain
  readJson text :=
    if text = strCommandTest then some stopprocTree
    else if text = bytes "[\x7b\"name\": \"stopstats\",\"id\":3\x7d]" then
      some (.node "" [("", .node "" [("name", .node "stopstats" []), ("id", .node "3" [])])])
    else none
  writeJson
    | .node _ [(_, .node _ [(_, retCode)])] => bytes
      ("\x7b\n    \"response\": \x7b\n        \"retCode\": \"" ++ retCode.data ++
        "\"\n    \x7d\n\x7d\n")
    | _ => []
  perform _ proxy := .ok proxy

theorem commands_executed_stopproc : CommandsExecuted (sampleEnv Unit) strCommandTest () := by
  refine (commands_executed_iff rfl rfl strCommandTest ()).mpr ⟨stopprocTree, rfl, ?_⟩
  rintro ops ⟨-, hcommands⟩ -
  obtain _ | ⟨hcommand, ⟨⟩⟩ := hcommands
  obtain ⟨id, hid, hreq⟩ := hcommand.id
  obtain rfl : 1 = id := Except.ok.inj hid
  cases hreq
  rfl

/-- A client that asks to stop the statistics stops the proxy. -/
theorem stopstats_stops_proxy : ¬ ∀ buffer, CommandsExecuted (sampleEnv Unit) buffer () := by
  intro hstated
  have hvalid : ValidCommand (sampleEnv Unit).lib
      (.node "" [("name", .node "stopstats" []), ("id", .node "3" [])]) .stopStats :=
    ⟨⟨"stopstats", rfl⟩, 3, rfl, .stopStats⟩
  obtain ⟨s, hs, hinvoked, -⟩ :=
    (hstated (bytes "[\x7b\"name\": \"stopstats\",\"id\":3\x7d]")).valid _ [.stopStats] rfl
      ⟨by simp [PTree.children], .cons hvalid .nil⟩ ⟨(), .cons rfl .nil⟩
  rw [processCommand_invoked rfl rfl hs] at hinvoked
  cases hinvoked

end CommandEnv
end MddProxy
