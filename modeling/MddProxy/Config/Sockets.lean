import MddProxy.Config.FeedConfig
import MddProxy.Dispatch.Worker

/-!
# Sockets and what the host answers

`FillAddr`, `SenderSocket::Create`, `ReceiverSocket::Create` and
`Epoller::RegisterSocket`. A member of a freshly allocated `AddrT` is `none` until
it is stored. The host decides the byte order, which texts are addresses, which
interfaces are up and which socket calls succeed.
-/
namespace MddProxy

open PropertyTree Collections

def INADDR_ANY : UInt32 := 0

def INADDR_NONE : UInt32 := 0xffffffff

/-- What ends the construction of a proxy: an exception of the property tree, a
`THROW` with its format text, or a read through an unassigned pointer. -/
inductive Failure where
  | ptree (error : PTreeError)
  | thrown (exceptionStr : String)
  | undefined
  deriving DecidableEq, Repr

def throwIf (cond : Prop) [Decidable cond] (exceptionStr : String) : Except Failure Unit :=
  if cond then throw (.thrown exceptionStr) else pure ()

/-- One entry of `getifaddrs`; `inet` says that it has an `AF_INET` address. -/
structure IfAddr where
  inet : Bool
  addr : UInt32
  up : Bool
  deriving DecidableEq, Repr

/-- The calls on a descriptor that are checked for success. -/
inductive SocketCall where
  | reuseAddr
  | bind
  | addMembership
  | noCheck
  | multicastIf
  | multicastTtl
  | multicastLoop
  | epollAdd
  deriving DecidableEq, Repr

/-- `socket n` is what the call number `n` of `socket()` returns; `bufferSize` and
`succeeds` answer the calls on that descriptor. -/
structure Host where
  bigEndian : Bool
  inetAton : String → Option UInt32
  interfaces : List IfAddr
  socket : ℕ → Fd
  bufferSize : ℕ → ℕ
  succeeds : ℕ → SocketCall → Bool

namespace Host

variable (host : Host)

def inetAddr (cp : String) : UInt32 := (host.inetAton cp).getD INADDR_NONE

def swapBytes (x : UInt16) : UInt16 := x <<< 8 ||| x >>> 8

/-- The identity on a big-endian host, the byte swap on a little-endian one. -/
def htons (x : UInt16) : UInt16 := if host.bigEndian then x else swapBytes x

def ntohs (x : UInt16) : UInt16 := if host.bigEndian then x else swapBytes x

/-- The search through `getifaddrs`: is the first interface with this address up? -/
def interfaceUp (addr : Option UInt32) : Bool :=
  match host.interfaces.find? fun i => i.inet && some i.addr = addr with
  | some i => i.up
  | none => false

end Host

/-- `sockaddr_in`; the family is always `AF_INET`. -/
structure SockAddrIn where
  sinPort : Option UInt16
  sinAddr : Option UInt32
  deriving DecidableEq, Repr

inductive SocketType where
  | dgram
  | stream
  deriving DecidableEq, Repr

structure AddrT where
  addr : SockAddrIn
  protocol : Option SocketType
  type : Option BroadcastT
  interface : SockAddrIn
  socket : Option Fd
  deriving DecidableEq, Repr

def AddrT.new : AddrT where
  addr := ⟨none, none⟩
  protocol := none
  type := none
  interface := ⟨none, none⟩
  socket := none

/-- `FillAddr`. `inet_aton` stores nothing when it rejects the text. -/
def fillAddr (host : Host) (addr : AddrT) (multicastGroup : MulticastGroupT) : AddrT :=
  { addr with
    addr :=
      { sinPort := some multicastGroup.port.toUInt16
        sinAddr := (host.inetAton multicastGroup.address).or addr.addr.sinAddr }
    protocol := some (match multicastGroup.protocol with | .udp => .dgram | .tcp => .stream)
    type := some multicastGroup.broadcastType }

/-- A `StatsCollector` by its label; `object` tells the allocated ones apart. -/
structure StatsCollector where
  object : ℕ
  addr : String
  port : Option UInt16
  deriving DecidableEq, Repr

/-- What the kernel has been told about a sending descriptor. -/
structure SenderOptions where
  multicastIf : Option UInt32
  multicastTtl : UInt8
  multicastLoop : UInt8
  deriving DecidableEq, Repr

/-- `options` are set by `Create`. -/
structure SenderSocket where
  socketObj : AddrT
  isLoopBackEnabled : Bool
  socketBufferSize : ℕ
  statsCollector : Option StatsCollector
  options : Option SenderOptions
  deriving DecidableEq, Repr

/-- The port given to `bind`, and the group and interface of the membership, if any. -/
structure ReceiverOptions where
  boundPort : Option UInt16
  membership : Option (Option UInt32 × Option UInt32)
  deriving DecidableEq, Repr

structure ReceiverSocket where
  socketObj : AddrT
  senderSocketList : List SenderSocket
  socketBufferSize : ℕ
  statsCollector : Option StatsCollector
  options : Option ReceiverOptions
  deriving DecidableEq, Repr

structure Epoller where
  registered : List Fd
  fdCount : UInt32
  deriving DecidableEq, Repr

namespace SenderSocket

/-- `new SenderSocket(addr)`. -/
def new (addr : AddrT) : SenderSocket where
  socketObj := addr
  isLoopBackEnabled := false
  socketBufferSize := 0
  statsCollector := none
  options := none

/-- The socket after a `Create` whose `socket()` call is number `n`. -/
def created (host : Host) (n : ℕ) (s : SenderSocket) : SenderSocket :=
  { s with
    socketObj := { s.socketObj with socket := some (host.socket n) }
    socketBufferSize := host.bufferSize n
    options := some
      { multicastIf := s.socketObj.interface.sinAddr
        multicastTtl := 10
        multicastLoop := if s.isLoopBackEnabled then 1 else 0 } }

def create (host : Host) (n : ℕ) (s : SenderSocket) : Except Failure SenderSocket := do
  throwIf (host.interfaceUp s.socketObj.interface.sinAddr = false)
    "<%s:%u>, the receiver interface %s (inet addr:%s) is down"
  throwIf (host.succeeds n .multicastIf = false)
    "Error in setsockopt while setting outgoing interface for address=<%s:%u> (inet addr:%s) %s"
  throwIf (host.succeeds n .multicastTtl = false)
    "Error in setsockopt while setting TTL for address=<%s:%u> %s"
  throwIf (host.succeeds n .multicastLoop = false)
    "Error in setsockopt while setting loopback for address=<%s:%u> %s"
  pure (s.created host n)

end SenderSocket

namespace ReceiverSocket

/-- `new ReceiverSocket(senderList, addr)`. -/
def new (senderList : List SenderSocket) (addr : AddrT) : ReceiverSocket where
  socketObj := addr
  senderSocketList := senderList
  socketBufferSize := 0
  statsCollector := none
  options := none

def created (host : Host) (n : ℕ) (r : ReceiverSocket) : ReceiverSocket :=
  { r with
    socketObj := { r.socketObj with socket := some (host.socket n) }
    socketBufferSize := host.bufferSize n
    options := some
      { boundPort := r.socketObj.interface.sinPort.map host.htons
        membership := if r.socketObj.type = some .multicast then
          some (r.socketObj.addr.sinAddr, r.socketObj.interface.sinAddr) else none } }

def create (host : Host) (n : ℕ) (r : ReceiverSocket) : Except Failure ReceiverSocket := do
  throwIf (r.socketObj.interface.sinAddr ≠ some INADDR_ANY ∧
      host.interfaceUp r.socketObj.interface.sinAddr = false)
    "<%s:%u>, the receiver interface %s (inet addr:%s) is down"
  throwIf (host.succeeds n .reuseAddr = false) "Error setting socket option"
  throwIf (host.succeeds n .bind = false) "Can't bind to interface %s err: %s"
  throwIf (r.socketObj.type = some .multicast ∧ host.succeeds n .addMembership = false)
    "Can't Add membership to interface %s err: %s"
  throwIf (host.succeeds n .noCheck = false) "Can't set SO_NO_CHECK %s err: %s"
  pure (r.created host n)

end ReceiverSocket

/-- `Epoller::RegisterSocket` on the descriptor of `socket()` call number `n`. -/
def Epoller.registerSocket (e : Epoller) (host : Host) (n : ℕ) : Except Failure Epoller := do
  throwIf (host.succeeds n .epollAdd = false) "Cant't add socket handle to epoll %d %s"
  pure { registered := e.registered ++ [host.socket n], fdCount := e.fdCount + 1 }

theorem throwIf_eq_ok {cond : Prop} [Decidable cond] {exceptionStr : String} {u : Unit} :
    throwIf cond exceptionStr = .ok u ↔ ¬ cond := by
  unfold throwIf
  by_cases h : cond
  · simp [h, throw_ne_ok]
  · simp [h, pure_eq_ok]

structure SenderSocket.Creatable (host : Host) (n : ℕ) (addr : AddrT) : Prop where
  up : host.interfaceUp addr.interface.sinAddr = true
  multicastIf : host.succeeds n .multicastIf = true
  multicastTtl : host.succeeds n .multicastTtl = true
  multicastLoop : host.succeeds n .multicastLoop = true

theorem SenderSocket.create_eq_ok {host : Host} {n : ℕ} {s s' : SenderSocket} :
    s.create host n = .ok s' ↔ Creatable host n s.socketObj ∧ s' = s.created host n := by
  simp only [create, bind_eq_ok, throwIf_eq_ok, exists_const, Bool.not_eq_false, pure_eq_ok]
  constructor
  · rintro ⟨h₁, h₂, h₃, h₄, rfl⟩
    exact ⟨⟨h₁, h₂, h₃, h₄⟩, rfl⟩
  · rintro ⟨⟨h₁, h₂, h₃, h₄⟩, rfl⟩
    exact ⟨h₁, h₂, h₃, h₄, rfl⟩

structure ReceiverSocket.Creatable (host : Host) (n : ℕ) (addr : AddrT) : Prop where
  up : addr.interface.sinAddr = some INADDR_ANY ∨ host.interfaceUp addr.interface.sinAddr = true
  reuseAddr : host.succeeds n .reuseAddr = true
  bind : host.succeeds n .bind = true
  addMembership : addr.type = some .multicast → host.succeeds n .addMembership = true
  noCheck : host.succeeds n .noCheck = true

theorem ReceiverSocket.create_eq_ok {host : Host} {n : ℕ} {r r' : ReceiverSocket} :
    r.create host n = .ok r' ↔ Creatable host n r.socketObj ∧ r' = r.created host n := by
  simp only [create, bind_eq_ok, throwIf_eq_ok, exists_const, Bool.not_eq_false, pure_eq_ok,
    not_and, ne_eq]
  constructor
  · rintro ⟨h₁, h₂, h₃, h₄, h₅, rfl⟩
    exact ⟨⟨or_iff_not_imp_left.mpr h₁, h₂, h₃, h₄, h₅⟩, rfl⟩
  · rintro ⟨⟨h₁, h₂, h₃, h₄, h₅⟩, rfl⟩
    exact ⟨or_iff_not_imp_left.mp h₁, h₂, h₃, h₄, h₅, rfl⟩

theorem Epoller.registerSocket_eq_ok {e e' : Epoller} {host : Host} {n : ℕ} :
    e.registerSocket host n = .ok e' ↔ host.succeeds n .epollAdd = true ∧
      e' = ⟨e.registered ++ [host.socket n], e.fdCount + 1⟩ := by
  simp only [Epoller.registerSocket, bind_eq_ok, throwIf_eq_ok, exists_const, Bool.not_eq_false,
    pure_eq_ok]

end MddProxy
