import MddProxy.Boost.PropertyTree
import MddProxy.Boost.Collections

/-!
# Loading the feed configuration

`LoadReceivers`, `LoadSenders` and `LoadMappedFeeds` of `MddFeedConfig`, on the
tree that `read_xml` returned. A pointer to a loaded address is modelled by the
address; the `inputAddress` of a mapped receiver stays unassigned when its id is
not declared.
-/
namespace MddProxy

open PropertyTree Collections

inductive ProtocolT where
  | udp
  | tcp
  deriving DecidableEq, Repr

inductive BroadcastT where
  | unicast
  | multicast
  deriving DecidableEq, Repr

structure MulticastGroupT where
  id : UInt32
  address : String
  port : UInt32
  broadcastType : BroadcastT
  protocol : ProtocolT
  deriving DecidableEq, Repr

structure InputAddressT extends MulticastGroupT where
  feedName : String
  deriving DecidableEq, Repr

structure OutputAddressT extends MulticastGroupT where
  isLoopBack : Bool
  deriving DecidableEq, Repr

/-- `inputAddress` is `none` while the pointer has not been assigned. -/
structure ReceiverSendersT where
  inputAddress : Option InputAddressT
  outputAddresses : List OutputAddressT
  deriving DecidableEq, Repr

structure InterfaceConfigT where
  inputInterface : String
  outputInterface : String
  rcvrSenders : List ReceiverSendersT
  deriving DecidableEq, Repr

abbrev ReceiversById := List (UInt32 × InputAddressT)

abbrev SendersById := List (UInt32 × OutputAddressT)

namespace MddFeedConfig

variable (lib : Boost)

def broadcastOf (bcastType : String) : BroadcastT :=
  if bcastType = "Unicast" then .unicast else .multicast

def protocolOf (protocol : String) : ProtocolT := if protocol = "UDP" then .udp else .tcp

def readReceiver (receiver : PTree) : Except PTreeError InputAddressT := do
  let feedName ← lib.getString receiver ["<xmlattr>", "name"]
  let id ← lib.get lib.uint32 receiver ["<xmlattr>", "id"]
  let address ← lib.getString receiver ["<xmlattr>", "ip"]
  let port ← lib.get lib.uint32 receiver ["<xmlattr>", "port"]
  let bcastType ← lib.getString receiver ["<xmlattr>", "type"]
  let protocol ← lib.getString receiver ["<xmlattr>", "protocol"]
  pure { id, address, port, broadcastType := broadcastOf bcastType
         protocol := protocolOf protocol, feedName }

def readSender (sender : PTree) : Except PTreeError OutputAddressT := do
  let id ← lib.get lib.uint32 sender ["<xmlattr>", "id"]
  let address ← lib.getString sender ["<xmlattr>", "ip"]
  let port ← lib.get lib.uint32 sender ["<xmlattr>", "port"]
  let isLoopBack := lib.getD lib.bool sender ["<xmlattr>", "isLoopback"] false
  let bcastType ← lib.getString sender ["<xmlattr>", "type"]
  let protocol ← lib.getString sender ["<xmlattr>", "protocol"]
  pure { id, address, port, broadcastType := broadcastOf bcastType
         protocol := protocolOf protocol, isLoopBack }

def loadReceivers (tree : PTree) : Except PTreeError ReceiversById := do
  let elements ← lib.getChild tree ["Receivers"]
  elements.children.foldlM (fun receivers receiver =>
    if receiver.1 = "Receiver" then do
      let inputAddr ← readReceiver lib receiver.2
      pure (insert receivers inputAddr.id inputAddr)
    else pure receivers) []

def loadSenders (tree : PTree) : Except PTreeError SendersById := do
  let elements ← lib.getChild tree ["Senders"]
  elements.children.foldlM (fun senders sender =>
    if sender.1 = "Sender" then do
      let outputAddr ← readSender lib sender.2
      pure (insert senders outputAddr.id outputAddr)
    else pure senders) []

/-- `if (outputAddrIt != senders.end())`: a destination is pushed when it was found. -/
def pushFound (outputAddresses : List OutputAddressT) :
    Option OutputAddressT → List OutputAddressT
  | some outputAddr => outputAddresses ++ [outputAddr]
  | none => outputAddresses

def loadMappedSenders (senders : SendersById) (rcvr : PTree) :
    Except PTreeError (List OutputAddressT) := do
  let subtreesenders ← lib.getChild rcvr []
  subtreesenders.children.foldlM (fun outputAddresses sender =>
    if sender.1 = "MappedSender" then do
      let senderId ← lib.get lib.uint32 sender.2 ["<xmlattr>", "id"]
      pure (pushFound outputAddresses (senders.lookup senderId))
    else pure outputAddresses) []

def loadMappedReceivers (receivers : ReceiversById) (senders : SendersById) (map : PTree) :
    Except PTreeError (List ReceiverSendersT) := do
  let subtree ← lib.getChild map []
  subtree.children.foldlM (fun rcvrSenders rcvr =>
    if rcvr.1 = "MappedReceiver" then do
      let receiverId ← lib.get lib.uint32 rcvr.2 ["<xmlattr>", "id"]
      let outputAddresses ← loadMappedSenders lib senders rcvr.2
      pure (rcvrSenders ++ [{ inputAddress := receivers.lookup receiverId, outputAddresses }])
    else pure rcvrSenders) []

def loadMappedFeeds (receivers : ReceiversById) (senders : SendersById) (tree : PTree) :
    Except PTreeError (List InterfaceConfigT) := do
  let mapping ← lib.getChild tree ["Mapping"]
  mapping.children.foldlM (fun mappedFeeds map =>
    if map.1 = "Map" then do
      let inputInterface ← lib.getString map.2 ["<xmlattr>", "inputInterface"]
      let outputInterface ← lib.getString map.2 ["<xmlattr>", "outputInterface"]
      let rcvrSenders ← loadMappedReceivers lib receivers senders map.2
      pure (mappedFeeds ++ [{ inputInterface, outputInterface, rcvrSenders := rcvrSenders }])
    else pure mappedFeeds) []

/-- `Load` after `read_xml`, up to what `GetMappedFeeds` returns. -/
def load (tree : PTree) : Except PTreeError (List InterfaceConfigT) := do
  let receivers ← loadReceivers lib tree
  let senders ← loadSenders lib tree
  loadMappedFeeds lib receivers senders tree

end MddFeedConfig
end MddProxy
