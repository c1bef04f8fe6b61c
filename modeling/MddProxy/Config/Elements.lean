import MddProxy.Config.FeedConfig

/-!
# What the configuration says

The declarative reading of a configuration: the `Receiver`, `Sender` and `Map`
elements in document order, with an id standing for the first element that carries
it. `Load` computes this reading.
-/
namespace MddProxy

open PropertyTree Collections

structure MappedReceiver where
  id : UInt32
  senderIds : List UInt32
  deriving DecidableEq, Repr

structure MapElement where
  inputInterface : String
  outputInterface : String
  mapped : List MappedReceiver
  deriving DecidableEq, Repr

variable (lib : Boost)

def receiverElements (tree : PTree) : Except PTreeError (List InputAddressT) := do
  let elements ← lib.getChild tree ["Receivers"]
  (elements.tagged "Receiver").mapM (MddFeedConfig.readReceiver lib)

def senderElements (tree : PTree) : Except PTreeError (List OutputAddressT) := do
  let elements ← lib.getChild tree ["Senders"]
  (elements.tagged "Sender").mapM (MddFeedConfig.readSender lib)

/-- The `id` attribute of a `MappedReceiver` or `MappedSender`. -/
def mappedId (t : PTree) : Except PTreeError UInt32 := lib.get lib.uint32 t ["<xmlattr>", "id"]

def mappedReceiver (rcvr : PTree) : Except PTreeError MappedReceiver := do
  let id ← mappedId lib rcvr
  let senderIds ← (rcvr.tagged "MappedSender").mapM (mappedId lib)
  pure { id, senderIds }

def mapElement (map : PTree) : Except PTreeError MapElement := do
  let inputInterface ← lib.getString map ["<xmlattr>", "inputInterface"]
  let outputInterface ← lib.getString map ["<xmlattr>", "outputInterface"]
  let mapped ← (map.tagged "MappedReceiver").mapM (mappedReceiver lib)
  pure { inputInterface, outputInterface, mapped := mapped }

def mapElements (tree : PTree) : Except PTreeError (List MapElement) := do
  let mapping ← lib.getChild tree ["Mapping"]
  (mapping.tagged "Map").mapM (mapElement lib)

def firstReceiver (rs : List InputAddressT) (id : UInt32) : Option InputAddressT :=
  rs.find? fun r => r.id = id

def firstSender (ss : List OutputAddressT) (id : UInt32) : Option OutputAddressT :=
  ss.find? fun s => s.id = id

theorem exists_firstReceiver {rs : List InputAddressT} {id : UInt32} :
    (∃ e, firstReceiver rs id = some e) ↔ ∃ r ∈ rs, r.id = id :=
  exists_find?_eq_some (fun r : InputAddressT => r.id) rs id

theorem exists_firstSender {ss : List OutputAddressT} {id : UInt32} :
    (∃ e, firstSender ss id = some e) ↔ ∃ s ∈ ss, s.id = id :=
  exists_find?_eq_some (fun s : OutputAddressT => s.id) ss id

def MappedReceiver.resolve (rs : List InputAddressT) (ss : List OutputAddressT)
    (m : MappedReceiver) : ReceiverSendersT where
  inputAddress := firstReceiver rs m.id
  outputAddresses := m.senderIds.filterMap (firstSender ss)

def MapElement.resolve (rs : List InputAddressT) (ss : List OutputAddressT) (m : MapElement) :
    InterfaceConfigT where
  inputInterface := m.inputInterface
  outputInterface := m.outputInterface
  rcvrSenders := m.mapped.map (MappedReceiver.resolve rs ss)

namespace MddFeedConfig

theorem getChild_nil (t : PTree) : lib.getChild t [] = pure t := rfl

theorem loadReceivers_eq (tree : PTree) : loadReceivers lib tree =
    (fun rs => rs.foldl (fun m r => insert m r.id r) []) <$> receiverElements lib tree := by
  simp only [loadReceivers, receiverElements, PTree.foldlM_tagged, map_bind]

theorem loadSenders_eq (tree : PTree) : loadSenders lib tree =
    (fun ss => ss.foldl (fun m s => insert m s.id s) []) <$> senderElements lib tree := by
  simp only [loadSenders, senderElements, PTree.foldlM_tagged, map_bind]

theorem lookup_receivers (rs : List InputAddressT) (id : UInt32) :
    (rs.foldl (fun m r => insert m r.id r) ([] : ReceiversById)).lookup id =
      firstReceiver rs id := by
  simp [lookup_foldl_insert (fun r : InputAddressT => r.id), firstReceiver]

theorem lookup_senders (ss : List OutputAddressT) (id : UInt32) :
    (ss.foldl (fun m s => insert m s.id s) ([] : SendersById)).lookup id = firstSender ss id := by
  simp [lookup_foldl_insert (fun s : OutputAddressT => s.id), firstSender]

theorem loadMappedSenders_eq (senders : SendersById) (rcvr : PTree) :
    loadMappedSenders lib senders rcvr = (fun ids => ids.filterMap fun id => senders.lookup id) <$>
      (rcvr.tagged "MappedSender").mapM (mappedId lib) := by
  have hpush : ∀ (acc : List OutputAddressT) found, pushFound acc found = acc ++ found.toList := by
    intro acc found
    cases found <;> simp [pushFound]
  simp only [loadMappedSenders, getChild_nil, pure_bind, hpush]
  refine (PTree.foldlM_tagged rcvr "MappedSender" (mappedId lib)
    (fun acc id => acc ++ (senders.lookup id).toList) []).trans ?_
  congr 1
  funext ids
  exact foldl_toList _ ids []

theorem loadMappedReceivers_eq (receivers : ReceiversById) (senders : SendersById) (map : PTree) :
    loadMappedReceivers lib receivers senders map =
      List.map (fun m : MappedReceiver =>
        { inputAddress := receivers.lookup m.id
          outputAddresses := m.senderIds.filterMap fun id => senders.lookup id }) <$>
      (map.tagged "MappedReceiver").mapM (mappedReceiver lib) := by
  rw [← mapM_map_comm, ← PTree.foldlM_push]
  simp only [loadMappedReceivers, getChild_nil, pure_bind, loadMappedSenders_eq, mappedReceiver,
    mappedId, bind_pure_comp, map_bind, Functor.map_map]

theorem loadMappedFeeds_eq (receivers : ReceiversById) (senders : SendersById) (tree : PTree) :
    loadMappedFeeds lib receivers senders tree =
      List.map (fun m : MapElement =>
        { inputInterface := m.inputInterface
          outputInterface := m.outputInterface
          rcvrSenders := m.mapped.map fun r =>
            { inputAddress := receivers.lookup r.id
              outputAddresses := r.senderIds.filterMap fun id => senders.lookup id } }) <$>
      mapElements lib tree := by
  simp only [loadMappedFeeds, mapElements, map_bind]
  congr 1
  funext mapping
  rw [← mapM_map_comm, ← PTree.foldlM_push]
  simp only [loadMappedReceivers_eq, mapElement, bind_pure_comp, map_bind, Functor.map_map]

/-- **Loading computes the declarative reading**, with the same failures. -/
theorem load_eq (tree : PTree) : load lib tree = (do
    let rs ← receiverElements lib tree
    let ss ← senderElements lib tree
    let ms ← mapElements lib tree
    pure (ms.map (MapElement.resolve rs ss))) := by
  simp only [load, loadReceivers_eq, loadSenders_eq, loadMappedFeeds_eq, bind_map_left,
    lookup_receivers, lookup_senders, bind_pure_comp]
  rfl

end MddFeedConfig
end MddProxy
