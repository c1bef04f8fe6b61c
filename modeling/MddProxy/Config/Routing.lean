import MddProxy.Config.Construct
import MddProxy.Config.Elements
import Mathlib.Data.List.Forall2
import Mathlib.Data.List.Nodup

/-!
# The routing table is the one configured

`AddReceiversFromConfig` builds one receiver for each mapped receiver of each map,
in document order, and one sender of its own for each mapped sender. Every
descriptor it opens is used once.
-/
namespace MddProxy

open PropertyTree Collections

/-- A mapped receiver together with the map it stands in. -/
abbrev Item := InterfaceConfigT × ReceiverSendersT

/-- The mapped receivers of all maps, in the order in which they are built. -/
def items (mappedFeeds : List InterfaceConfigT) : List Item :=
  mappedFeeds.flatMap fun mappedFeed => mappedFeed.rcvrSenders.map fun r => (mappedFeed, r)

def addItem (host : Host) (p : Proxy) (item : Item) : Except Failure Proxy :=
  addReceiver host item.1 p item.2

theorem addReceiversFromConfig_eq (host : Host) (mappedFeeds : List InterfaceConfigT) (p : Proxy) :
    addReceiversFromConfig host mappedFeeds p = (items mappedFeeds).foldlM (addItem host) p := by
  rw [items, foldlM_flatMap]
  simp only [addReceiversFromConfig, List.foldlM_map]
  rfl

/-- The descriptors that an entry of `receivers` owns: its senders' and its own. `Create` has
set the socket of each. -/
def entryDescriptors (entry : Fd × ReceiverSocket) : List Fd :=
  entry.2.senderSocketList.filterMap (fun s => s.socketObj.socket) ++ [entry.1]

def Proxy.descriptors (p : Proxy) : List Fd := p.receivers.flatMap entryDescriptors

/-- An entry built for an item from `socket()` call number `n` on. -/
def Built (host : Host) (n : ℕ) (item : Item) (entry : Fd × ReceiverSocket) : Prop :=
  ∃ inputAddress, item.2.inputAddress = some inputAddress ∧
    entry = (host.socket (n + item.2.outputAddresses.length),
      builtReceiver host item.1 (n + item.2.outputAddresses.length)
        (builtSenders host item.1 n item.2.outputAddresses) inputAddress)

variable {host : Host} {p p' : Proxy} {item : Item} {entry : Fd × ReceiverSocket} {n : ℕ}

theorem descriptors_builtSenders (mappedFeed : InterfaceConfigT) (n : ℕ)
    (outputs : List OutputAddressT) :
    (builtSenders host mappedFeed n outputs).filterMap (fun s => s.socketObj.socket) =
      (List.range' n outputs.length).map host.socket := by
  induction outputs generalizing n with
  | nil => rfl
  | cons output outputs ih =>
    have hsocket : (builtSender host mappedFeed n output).socketObj.socket =
        some (host.socket n) := rfl
    simp only [builtSenders, List.zipIdx_cons, List.map_cons, List.length_cons, List.range'_succ,
      List.filterMap_cons, hsocket]
    exact congrArg _ (ih (n + 1))

theorem Built.descriptors (hb : Built host n item entry) : entryDescriptors entry =
    (List.range' n (item.2.outputAddresses.length + 1)).map host.socket := by
  obtain ⟨inputAddress, -, rfl⟩ := hb
  rw [List.range'_concat, List.map_append]
  simp only [entryDescriptors]
  congr 1
  · exact descriptors_builtSenders item.1 n _
  · simp

def AllOwned (host : Host) (p : Proxy) : Prop :=
  p.descriptors = (List.range p.sockets).map host.socket

theorem socket_not_mem (hinj : Function.Injective host.socket) {m : ℕ} (hn : m ≤ n) :
    host.socket n ∉ (List.range m).map host.socket := by
  intro hmem
  obtain ⟨i, hi, heq⟩ := List.mem_map.mp hmem
  have hlt := List.mem_range.mp hi
  rw [hinj heq] at hlt
  omega

theorem AllOwned.fresh (hinj : Function.Injective host.socket) (ho : AllOwned host p)
    (hn : p.sockets ≤ n) : p.receivers.lookup (host.socket n) = none := by
  rw [List.lookup_eq_none_iff]
  intro entry hentry
  have hmem : entry.1 ∈ p.descriptors :=
    List.mem_flatMap.mpr ⟨entry, hentry, by simp [entryDescriptors]⟩
  rw [ho] at hmem
  rw [bne_iff_ne]
  intro h
  exact socket_not_mem hinj hn (h ▸ hmem)

theorem allOwned_empty : AllOwned host .empty := rfl

/-- One item adds one entry, which owns what the item opens. -/
theorem addItem_built (hinj : Function.Injective host.socket) (ho : AllOwned host p)
    (h : addItem host p item = .ok p') :
    AllOwned host p' ∧ ∃ entry, Built host p.sockets item entry ∧
      p'.receivers = p.receivers ++ [entry] := by
  obtain ⟨inputAddress, hacc, rfl⟩ := (addReceiver_eq_ok host item.1).mp h
  set outputs := item.2.outputAddresses with houtputs
  set entry := (host.socket (p.sockets + outputs.length),
    builtReceiver host item.1 (p.sockets + outputs.length)
      (builtSenders host item.1 p.sockets outputs) inputAddress) with hentry
  have hbuilt : Built host p.sockets item entry := ⟨inputAddress, hacc.assigned, rfl⟩
  have hfresh := ho.fresh hinj (Nat.le_add_right p.sockets outputs.length)
  have hreceivers : ((p.withSenders host item.1 outputs).withReceiver host item.1
      (builtSenders host item.1 p.sockets outputs) inputAddress).receivers =
      p.receivers ++ [entry] := by
    simp only [Proxy.withReceiver, sockets_withSenders, receivers_withSenders]
    exact insert_of_lookup_eq_none hfresh
  have hsockets : ((p.withSenders host item.1 outputs).withReceiver host item.1
      (builtSenders host item.1 p.sockets outputs) inputAddress).sockets =
      p.sockets + (outputs.length + 1) := by
    simp only [Proxy.withReceiver, Proxy.getStatsCollector, Proxy.opened, sockets_withSenders]
    omega
  refine ⟨?_, entry, hbuilt, hreceivers⟩
  unfold AllOwned Proxy.descriptors at *
  rw [hreceivers, hsockets, List.flatMap_append, ho, List.flatMap_singleton, hbuilt.descriptors,
    List.range_add, List.map_append, List.range'_eq_map_range]

/-- All items together: one entry each, in order, and nothing opened is shared. -/
theorem addItems_built (hinj : Function.Injective host.socket) {todo : List Item}
    (ho : AllOwned host p) (h : todo.foldlM (addItem host) p = .ok p') :
    AllOwned host p' ∧ ∃ entries, p'.receivers = p.receivers ++ entries ∧
      List.Forall₂ (fun item entry => ∃ n, Built host n item entry) todo entries := by
  induction todo generalizing p with
  | nil =>
    obtain rfl := pure_eq_ok.mp h
    exact ⟨ho, [], by simp, .nil⟩
  | cons item todo ih =>
    rw [List.foldlM_cons, bind_eq_ok] at h
    obtain ⟨p₁, hitem, hrest⟩ := h
    obtain ⟨ho₁, entry, hbuilt, hreceivers⟩ := addItem_built hinj ho hitem
    obtain ⟨ho', entries, hentries, hall⟩ := ih ho₁ hrest
    refine ⟨ho', entry :: entries, ?_, .cons ⟨_, hbuilt⟩ hall⟩
    rw [hentries, hreceivers, List.append_assoc, List.singleton_append]

/-- A mapped receiver of the configuration together with its map. -/
abbrev Route := MapElement × MappedReceiver

def routes (ms : List MapElement) : List Route :=
  ms.flatMap fun m => m.mapped.map fun r => (m, r)

/-- Every id used in the mapping is the id of an element. -/
def Declared (rs : List InputAddressT) (ss : List OutputAddressT) (ms : List MapElement) : Prop :=
  ∀ route ∈ routes ms, (∃ r ∈ rs, r.id = route.2.id) ∧
    ∀ id ∈ route.2.senderIds, ∃ s ∈ ss, s.id = id

instance (rs : List InputAddressT) (ss : List OutputAddressT) (ms : List MapElement) :
    Decidable (Declared rs ss ms) :=
  decidable_of_iff ((routes ms).all (fun route => rs.any (fun r => r.id = route.2.id) &&
    route.2.senderIds.all fun id => ss.any fun s => s.id = id) = true) (by simp [Declared])

/-- The part of an address that comes from a `Receiver` or `Sender` element. -/
structure AddressFrom (host : Host) (e : MulticastGroupT) (addr : AddrT) : Prop where
  sinAddr : addr.addr.sinAddr = host.inetAton e.address
  sinPort : addr.addr.sinPort = some e.port.toUInt16
  protocol : addr.protocol = some (match e.protocol with | .udp => .dgram | .tcp => .stream)
  type : addr.type = some e.broadcastType

/-- A sender of one map built from one `Sender` element. -/
structure SenderFrom (host : Host) (m : MapElement) (e : OutputAddressT) (s : SenderSocket) :
    Prop where
  socket : s.socketObj.socket.isSome = true
  address : AddressFrom host e.toMulticastGroupT s.socketObj
  interface : s.socketObj.interface.sinAddr = some (host.inetAddr m.outputInterface)
  multicastIf : s.options.map (·.multicastIf) = some (some (host.inetAddr m.outputInterface))

/-- A receiver of one map built from one `Receiver` element. -/
structure ReceiverFrom (host : Host) (m : MapElement) (e : InputAddressT) (r : ReceiverSocket) :
    Prop where
  address : AddressFrom host e.toMulticastGroupT r.socketObj
  interface : r.socketObj.interface.sinAddr = some
    (if m.inputInterface = "0.0.0.0" then INADDR_ANY else host.inetAddr m.inputInterface)

/-- The entry of `receivers` that a route asks for. -/
structure RouteBuilt (host : Host) (rs : List InputAddressT) (ss : List OutputAddressT)
    (route : Route) (entry : Fd × ReceiverSocket) : Prop where
  socket : entry.2.socketObj.socket = some entry.1
  receiver : ∃ e, firstReceiver rs route.2.id = some e ∧ ReceiverFrom host route.1 e entry.2
  senders : List.Forall₂ (fun id s => ∃ e, firstSender ss id = some e ∧
    SenderFrom host route.1 e s) route.2.senderIds entry.2.senderSocketList

variable {rs : List InputAddressT} {ss : List OutputAddressT} {ms : List MapElement}

/-- What one route becomes when its ids are looked up. -/
def resolveRoute (rs : List InputAddressT) (ss : List OutputAddressT) (route : Route) : Item :=
  (route.1.resolve rs ss, route.2.resolve rs ss)

theorem items_resolve : items (ms.map (MapElement.resolve rs ss)) =
    (routes ms).map (resolveRoute rs ss) := by
  simp only [items, routes, List.flatMap_map, List.map_flatMap, List.map_map, MapElement.resolve]
  rfl

theorem senderFrom_built (m : MapElement) (e : OutputAddressT) :
    SenderFrom host m e (builtSender host (m.resolve rs ss) n e) where
  socket := rfl
  address := ⟨Option.or_none, rfl, rfl, rfl⟩
  interface := rfl
  multicastIf := rfl

theorem receiverFrom_built (m : MapElement) (e : InputAddressT) (senderList : List SenderSocket) :
    ReceiverFrom host m e (builtReceiver host (m.resolve rs ss) n senderList e) where
  address := ⟨Option.or_none, rfl, rfl, rfl⟩
  interface := rfl

theorem builtSenders_from (m : MapElement) {ids : List UInt32} (n : ℕ)
    (hdecl : ∀ id ∈ ids, ∃ s ∈ ss, s.id = id) :
    List.Forall₂ (fun id s => ∃ e, firstSender ss id = some e ∧ SenderFrom host m e s) ids
      (builtSenders host (m.resolve rs ss) n (ids.filterMap (firstSender ss))) := by
  induction ids generalizing n with
  | nil => exact .nil
  | cons id ids ih =>
    obtain ⟨hhead, htail⟩ := List.forall_mem_cons.mp hdecl
    obtain ⟨e, he⟩ := exists_firstSender.mpr hhead
    rw [List.filterMap_cons_some he]
    exact .cons ⟨e, he, senderFrom_built m e⟩ (ih (n + 1) htail)

theorem Built.route {route : Route} (hdecl : ∀ id ∈ route.2.senderIds, ∃ s ∈ ss, s.id = id)
    (hb : Built host n (resolveRoute rs ss route) entry) : RouteBuilt host rs ss route entry := by
  obtain ⟨e, he, rfl⟩ := hb
  exact ⟨rfl, ⟨e, he, receiverFrom_built route.1 e _⟩, builtSenders_from route.1 n hdecl⟩

/-- Once the configuration is loaded the constructor is one loop over its items. -/
theorem construct_of_load {lib : Boost} {tree : PTree} {feeds : List InterfaceConfigT}
    (hload : MddFeedConfig.load lib tree = .ok feeds) :
    construct host lib tree = (items feeds).foldlM (addItem host) .empty := by
  rw [← addReceiversFromConfig_eq, construct, hload]
  rfl

theorem construct_eq_ok {lib : Boost} {tree : PTree} (h : construct host lib tree = .ok p) :
    ∃ feeds, MddFeedConfig.load lib tree = .ok feeds ∧
      (items feeds).foldlM (addItem host) .empty = .ok p := by
  cases hload : MddFeedConfig.load lib tree with
  | ok feeds =>
    rw [construct_of_load hload] at h
    exact ⟨feeds, rfl, h⟩
  | error e =>
    rw [construct, hload] at h
    cases h

theorem construct_invariant {lib : Boost} {tree : PTree} {I : Proxy → Prop}
    (hinj : Function.Injective host.socket) (hempty : I .empty)
    (hstep : ∀ p item p', AllOwned host p → I p → addItem host p item = .ok p' → I p')
    (h : construct host lib tree = .ok p) : AllOwned host p ∧ I p := by
  obtain ⟨feeds, -, hitems⟩ := construct_eq_ok h
  refine foldlM_invariant (I := fun p => AllOwned host p ∧ I p) ?_ ⟨allOwned_empty, hempty⟩ hitems
  rintro p item p' ⟨ho, hi⟩ hitem
  exact ⟨(addItem_built hinj ho hitem).1, hstep p item p' ho hi hitem⟩

theorem construct_built {lib : Boost} {tree : PTree} {feeds : List InterfaceConfigT}
    (hinj : Function.Injective host.socket) (hload : MddFeedConfig.load lib tree = .ok feeds)
    (h : construct host lib tree = .ok p) : AllOwned host p ∧
      List.Forall₂ (fun item entry => ∃ n, Built host n item entry) (items feeds) p.receivers := by
  rw [construct_of_load hload] at h
  obtain ⟨ho, entries, hentries, hall⟩ := addItems_built hinj allOwned_empty h
  obtain rfl : p.receivers = entries := hentries
  exact ⟨ho, hall⟩

theorem load_of_sections {lib : Boost} {tree : PTree}
    (hrs : receiverElements lib tree = .ok rs) (hss : senderElements lib tree = .ok ss)
    (hms : mapElements lib tree = .ok ms) :
    MddFeedConfig.load lib tree = .ok (ms.map (MapElement.resolve rs ss)) := by
  rw [MddFeedConfig.load_eq, hrs, hss, hms]
  rfl

/-- **Routing table fidelity.** A construction that does not throw ends with exactly
one receiver for each mapped receiver, with the senders mapped to it in document
order, and no two sockets share a descriptor. -/
theorem receivers_are_routes {lib : Boost} {tree : PTree} (hinj : Function.Injective host.socket)
    (hrs : receiverElements lib tree = .ok rs) (hss : senderElements lib tree = .ok ss)
    (hms : mapElements lib tree = .ok ms) (hdecl : Declared rs ss ms)
    (h : construct host lib tree = .ok p) :
    List.Forall₂ (RouteBuilt host rs ss) (routes ms) p.receivers ∧ p.descriptors.Nodup := by
  obtain ⟨ho, hall⟩ := construct_built hinj (load_of_sections hrs hss hms) h
  constructor
  · rw [items_resolve, List.forall₂_map_left_iff] at hall
    refine ((List.forall₂_and_left _ _).mpr ⟨hdecl, hall⟩).imp ?_
    rintro route entry ⟨hroute, n, hb⟩
    exact hb.route hroute.2
  · rw [ho]
    exact List.nodup_range.map hinj

def addressElement (tag id ip port : String) : String × PTree :=
  (tag, .element [("name", "TOB"), ("id", id), ("protocol", "UDP"), ("type", "Unicast"),
    ("ip", ip), ("port", port)] [])

def mappedElement (id : String) (senderIds : List String) : String × PTree :=
  ("MappedReceiver", .element [("id", id)]
    (senderIds.map fun s => ("MappedSender", .element [("id", s)] [])))

def configuration (receivers senders mappedReceivers : List (String × PTree)) : PTree :=
  .node "" [("Receivers", .node "" receivers), ("Senders", .node "" senders),
    ("Mapping", .node "" [("Map", .element
      [("inputInterface", "127.0.0.1"), ("outputInterface", "127.0.0.1")] mappedReceivers)])]

/-- A host with the loopback interface up, on which every call succeeds. -/
def localHost (bigEndian : Bool) : Host where
  bigEndian
  inetAton cp :=
    if cp = "127.0.0.1" then some (if bigEndian then 0x7f000001 else 0x0100007f) else none
  interfaces := [⟨true, if bigEndian then 0x7f000001 else 0x0100007f, true⟩]
  socket n := n + 3
  bufferSize _ := 212992
  succeeds _ _ := true

theorem localHost_socket_injective (bigEndian : Bool) :
    Function.Injective (localHost bigEndian).socket :=
  fun _ _ => Nat.add_right_cancel

/-- A second `Receiver` with the same id, an element in the wrong section, a comment
between the mapped receivers, and a destination mapped twice. -/
def twoRoutes : PTree :=
  configuration [addressElement "Receiver" "1" "127.0.0.1" "18576",
      addressElement "Sender" "1" "" "", addressElement "Receiver" "1" "127.0.0.1" "18577"]
    [addressElement "Sender" "101" "127.0.0.1" "2347",
      addressElement "Sender" "102" "127.0.0.1" "2348"]
    [mappedElement "1" ["101", "102"], ("<xmlcomment>", .node "" []),
      mappedElement "1" ["102", "102"]]

theorem receivers_are_routes_two_routes :
    ∃ rs ss ms p, construct (localHost false) .plain twoRoutes = .ok p ∧
      p.receivers.map (fun e => (e.1, e.2.senderSocketList.length)) = [(5, 2), (8, 2)] ∧
      List.Forall₂ (RouteBuilt (localHost false) rs ss) (routes ms) p.receivers ∧
      p.descriptors.Nodup := by
  have hinj := localHost_socket_injective false
  obtain ⟨p, hp, hshape⟩ : ∃ p, construct (localHost false) .plain twoRoutes = .ok p ∧
      p.receivers.map (fun e => (e.1, e.2.senderSocketList.length)) = [(5, 2), (8, 2)] :=
    ⟨_, rfl, rfl⟩
  refine ⟨_, _, _, p, hp, hshape, receivers_are_routes hinj rfl rfl rfl ?_ hp⟩
  decide

end MddProxy
