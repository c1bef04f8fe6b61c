import MddProxy.Config.Sockets

/-!
# Building the receivers of a proxy

`AddReceiversFromConfig`: three nested loops over the mapped feeds, one receiver
for each mapped receiver and one sender for each of its destinations. The loop
bodies are inverted once: when they succeed, and what they build.
-/
namespace MddProxy

open PropertyTree Collections

/-- The sockets of a `MddProxy` under construction; `sockets` counts the calls of
`socket()` so far. -/
structure Proxy where
  sockets : ℕ
  receivers : List (Fd × ReceiverSocket)
  senders : List (Fd × SenderSocket)
  statsCollectors : List (Fd × StatsCollector)
  epoller : Epoller
  deriving DecidableEq, Repr

def Proxy.empty : Proxy where
  sockets := 0
  receivers := []
  senders := []
  statsCollectors := []
  epoller := ⟨[], 0⟩

def Proxy.opened (p : Proxy) : Proxy := { p with sockets := p.sockets + 1 }

/-- `StatsWriter::GetStatsCollector`. It is called once after each call of `socket()`, so
the number of those calls tells the objects apart. -/
def Proxy.getStatsCollector (p : Proxy) (socketId : Fd) (addr : String) (port : Option UInt16) :
    StatsCollector × Proxy :=
  let newStats : StatsCollector := ⟨p.sockets, addr, port⟩
  (newStats, { p with statsCollectors := insert p.statsCollectors socketId newStats })

variable (host : Host) (mappedFeed : InterfaceConfigT)

def senderAddr (output : OutputAddressT) : AddrT :=
  fillAddr host
    { AddrT.new with interface := ⟨none, some (host.inetAddr mappedFeed.outputInterface)⟩ }
    output.toMulticastGroupT

def receiverInterface : UInt32 :=
  if mappedFeed.inputInterface = "0.0.0.0" then INADDR_ANY
  else host.inetAddr mappedFeed.inputInterface

def receiverAddr (inputAddress : InputAddressT) : AddrT :=
  let addr := fillAddr host
    { AddrT.new with interface := ⟨none, some (receiverInterface host mappedFeed)⟩ }
    inputAddress.toMulticastGroupT
  { addr with interface := { addr.interface with sinPort := addr.addr.sinPort } }

def addSender (acc : List SenderSocket × Proxy) (output : OutputAddressT) :
    Except Failure (List SenderSocket × Proxy) := do
  let (senderList, p) := acc
  throwIf (host.inetAddr mappedFeed.outputInterface = INADDR_NONE)
    "Invalid output interface address <%s>"
  let senderObj ←
    (SenderSocket.new (senderAddr host mappedFeed output)).create host p.sockets
  let (statsCollector, p) := p.opened.getStatsCollector (host.socket p.sockets)
    mappedFeed.outputInterface senderObj.socketObj.addr.sinPort
  pure (senderList ++ [{ senderObj with statsCollector := some statsCollector }], p)

def addReceiver (p : Proxy) (rcvrSenders : ReceiverSendersT) : Except Failure Proxy := do
  let (senderList, p) ← rcvrSenders.outputAddresses.foldlM (addSender host mappedFeed) ([], p)
  throwIf (receiverInterface host mappedFeed = INADDR_NONE)
    "Invalid input interface address <%s>"
  match rcvrSenders.inputAddress with
  | none => throw .undefined
  | some inputAddress => do
    let n := p.sockets
    let rcvrSocket ← (ReceiverSocket.new senderList
      (receiverAddr host mappedFeed inputAddress)).create host n
    let (statsCollector, p) := p.opened.getStatsCollector (host.socket n)
      mappedFeed.outputInterface rcvrSocket.socketObj.addr.sinPort
    let rcvrSocket := { rcvrSocket with statsCollector := some statsCollector }
    let receivers := insert p.receivers (host.socket n) rcvrSocket
    let epoller ← p.epoller.registerSocket host n
    pure { p with receivers, epoller }

def addReceiversFromConfig (feedsList : List InterfaceConfigT) (p : Proxy) :
    Except Failure Proxy :=
  feedsList.foldlM (fun p mappedFeed =>
    mappedFeed.rcvrSenders.foldlM (addReceiver host mappedFeed) p) p

/-- The `MddProxy` constructor from the parsed tree to the end of
`AddReceiversFromConfig`. -/
def construct (lib : Boost) (tree : PTree) : Except Failure Proxy := do
  let mappedFeeds ← (MddFeedConfig.load lib tree).mapError .ptree
  addReceiversFromConfig host mappedFeeds .empty

/-- The sender built for a destination on `socket()` call number `n`. -/
def builtSender (n : ℕ) (output : OutputAddressT) : SenderSocket :=
  { (SenderSocket.new (senderAddr host mappedFeed output)).created host n with
    statsCollector := some ⟨n + 1, mappedFeed.outputInterface, some output.port.toUInt16⟩ }

/-- The receiver built from an input address and its senders. -/
def builtReceiver (n : ℕ) (senderList : List SenderSocket) (inputAddress : InputAddressT) :
    ReceiverSocket :=
  { (ReceiverSocket.new senderList (receiverAddr host mappedFeed inputAddress)).created host n with
    statsCollector := some ⟨n + 1, mappedFeed.outputInterface, some inputAddress.port.toUInt16⟩ }

/-- The senders built for some destinations from `socket()` call number `n` on. -/
def builtSenders (n : ℕ) (outputs : List OutputAddressT) : List SenderSocket :=
  (outputs.zipIdx n).map fun o => builtSender host mappedFeed o.2 o.1

def Proxy.withSender (p : Proxy) (output : OutputAddressT) : Proxy :=
  (p.opened.getStatsCollector (host.socket p.sockets) mappedFeed.outputInterface
    (some output.port.toUInt16)).2

def Proxy.withSenders (p : Proxy) (outputs : List OutputAddressT) : Proxy :=
  outputs.foldl (Proxy.withSender host mappedFeed) p

/-- The state after a receiver has been added to `p`, its senders being there. -/
def Proxy.withReceiver (p : Proxy) (senderList : List SenderSocket)
    (inputAddress : InputAddressT) : Proxy :=
  { (p.opened.getStatsCollector (host.socket p.sockets) mappedFeed.outputInterface
      (some inputAddress.port.toUInt16)).2 with
    receivers := insert p.receivers (host.socket p.sockets)
      (builtReceiver host mappedFeed p.sockets senderList inputAddress)
    epoller := ⟨p.epoller.registered ++ [host.socket p.sockets], p.epoller.fdCount + 1⟩ }

section
variable (p : Proxy) (outputs : List OutputAddressT)

@[simp] theorem sockets_withSenders :
    (p.withSenders host mappedFeed outputs).sockets = p.sockets + outputs.length := by
  induction outputs generalizing p with
  | nil => rfl
  | cons output outputs ih =>
    refine (ih (p.withSender host mappedFeed output)).trans ?_
    simp only [Proxy.withSender, Proxy.getStatsCollector, Proxy.opened, List.length_cons]
    omega

@[simp] theorem receivers_withSenders :
    (p.withSenders host mappedFeed outputs).receivers = p.receivers := by
  induction outputs generalizing p with
  | nil => rfl
  | cons output outputs ih => exact ih (p.withSender host mappedFeed output)

@[simp] theorem epoller_withSenders :
    (p.withSenders host mappedFeed outputs).epoller = p.epoller := by
  induction outputs generalizing p with
  | nil => rfl
  | cons output outputs ih => exact ih (p.withSender host mappedFeed output)

end

/-- What must hold for a sender to be built on `socket()` call number `n`. -/
def SenderAccepted (n : ℕ) (output : OutputAddressT) : Prop :=
  host.inetAddr mappedFeed.outputInterface ≠ INADDR_NONE ∧
    SenderSocket.Creatable host n (senderAddr host mappedFeed output)

theorem addSender_eq_ok {senderList : List SenderSocket} {p : Proxy} {output : OutputAddressT}
    {acc' : List SenderSocket × Proxy} :
    addSender host mappedFeed (senderList, p) output = .ok acc' ↔
      SenderAccepted host mappedFeed p.sockets output ∧
      acc' = (senderList ++ [builtSender host mappedFeed p.sockets output],
        p.withSender host mappedFeed output) := by
  simp only [addSender, bind_eq_ok, throwIf_eq_ok, exists_const, SenderSocket.create_eq_ok,
    pure_eq_ok, SenderAccepted, and_assoc]
  constructor
  · rintro ⟨haddr, _, hc, rfl, rfl⟩
    exact ⟨haddr, hc, rfl⟩
  · rintro ⟨haddr, hc, rfl⟩
    exact ⟨haddr, _, hc, rfl, rfl⟩

theorem addSenders_eq_ok {senderList : List SenderSocket} {p : Proxy}
    {outputs : List OutputAddressT} {acc' : List SenderSocket × Proxy} :
    outputs.foldlM (addSender host mappedFeed) (senderList, p) = .ok acc' ↔
      (∀ o ∈ outputs.zipIdx p.sockets, SenderAccepted host mappedFeed o.2 o.1) ∧
      acc' = (senderList ++ builtSenders host mappedFeed p.sockets outputs,
        p.withSenders host mappedFeed outputs) := by
  induction outputs generalizing senderList p with
  | nil => simp [builtSenders, Proxy.withSenders, pure_eq_ok]
  | cons output outputs ih =>
    have hsockets : (p.withSender host mappedFeed output).sockets = p.sockets + 1 := rfl
    simp only [List.foldlM_cons, bind_eq_ok, addSender_eq_ok, List.zipIdx_cons,
      List.forall_mem_cons, builtSenders, List.map_cons]
    constructor
    · rintro ⟨_, ⟨hacc, rfl⟩, h⟩
      obtain ⟨hrest, rfl⟩ := ih.mp h
      rw [hsockets] at hrest
      exact ⟨⟨hacc, hrest⟩, by simp [hsockets, builtSenders, Proxy.withSenders]⟩
    · rintro ⟨⟨hacc, hrest⟩, rfl⟩
      refine ⟨_, ⟨hacc, rfl⟩, ih.mpr ⟨by rw [hsockets]; exact hrest, ?_⟩⟩
      simp [hsockets, builtSenders, Proxy.withSenders]

/-- What must hold for a mapped receiver to be built with its senders. -/
structure ReceiverAccepted (n : ℕ) (rcvrSenders : ReceiverSendersT)
    (inputAddress : InputAddressT) : Prop where
  assigned : rcvrSenders.inputAddress = some inputAddress
  senders : ∀ o ∈ rcvrSenders.outputAddresses.zipIdx n, SenderAccepted host mappedFeed o.2 o.1
  interface : receiverInterface host mappedFeed ≠ INADDR_NONE
  creatable : ReceiverSocket.Creatable host (n + rcvrSenders.outputAddresses.length)
    (receiverAddr host mappedFeed inputAddress)
  registered : host.succeeds (n + rcvrSenders.outputAddresses.length) .epollAdd = true

theorem addReceiver_eq_ok {p p' : Proxy} {rcvrSenders : ReceiverSendersT} :
    addReceiver host mappedFeed p rcvrSenders = .ok p' ↔
      ∃ inputAddress, ReceiverAccepted host mappedFeed p.sockets rcvrSenders inputAddress ∧
        p' = (p.withSenders host mappedFeed rcvrSenders.outputAddresses).withReceiver host
          mappedFeed (builtSenders host mappedFeed p.sockets rcvrSenders.outputAddresses)
          inputAddress := by
  simp only [addReceiver, bind_eq_ok, addSenders_eq_ok, throwIf_eq_ok, exists_const,
    List.nil_append]
  constructor
  · rintro ⟨_, ⟨hsenders, rfl⟩, hintf, h⟩
    cases hin : rcvrSenders.inputAddress with
    | none => simp [hin, throw_ne_ok] at h
    | some inputAddress =>
      simp only [hin, bind_eq_ok, ReceiverSocket.create_eq_ok, Epoller.registerSocket_eq_ok,
        pure_eq_ok] at h
      obtain ⟨_, ⟨hc, rfl⟩, _, ⟨hreg, rfl⟩, rfl⟩ := h
      rw [sockets_withSenders] at hc hreg
      exact ⟨inputAddress, ⟨hin, hsenders, hintf, hc, hreg⟩, rfl⟩
  · rintro ⟨inputAddress, ⟨hin, hsenders, hintf, hc, hreg⟩, rfl⟩
    refine ⟨_, ⟨hsenders, rfl⟩, hintf, ?_⟩
    simp only [hin, bind_eq_ok, ReceiverSocket.create_eq_ok, Epoller.registerSocket_eq_ok,
      pure_eq_ok]
    rw [← sockets_withSenders host mappedFeed p] at hc hreg
    exact ⟨_, ⟨hc, rfl⟩, _, ⟨hreg, rfl⟩, rfl⟩

end MddProxy
