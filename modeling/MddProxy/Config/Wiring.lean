import MddProxy.Config.SenderOptions

/-!
# Statistics wiring

`GetStatsCollector` is called for each socket that is created, and what it returns is stored
both in the map of the `StatsWriter` and in the socket. Its label comes from the arguments:
for a receiver, too, the first of them is the output interface of the map.
-/
namespace MddProxy

open PropertyTree Collections

/-- The map entry that belongs to a socket: its descriptor and the collector it updates. -/
def ownEntry (socketId : Option Fd) (statsCollector : Option StatsCollector) :
    Option (Fd × StatsCollector) :=
  socketId.bind fun fd => statsCollector.map fun c => (fd, c)

def entryCollectors (entry : Fd × ReceiverSocket) : List (Option (Fd × StatsCollector)) :=
  entry.2.senderSocketList.map (fun s => ownEntry s.socketObj.socket s.statsCollector) ++
    [ownEntry entry.2.socketObj.socket entry.2.statsCollector]

structure Labelled (addr : String) (port : UInt32) (statsCollector : Option StatsCollector) :
    Prop where
  addr : statsCollector.map (·.addr) = some addr
  port : (statsCollector.bind (·.port)).map (·.toNat) = some port.toNat

/-- The collectors of a route carry the interface and the port that their sockets use. -/
structure RouteLabelled (rs : List InputAddressT) (ss : List OutputAddressT) (route : Route)
    (entry : Fd × ReceiverSocket) : Prop where
  receiver : ∃ r, firstReceiver rs route.2.id = some r ∧
    Labelled route.1.inputInterface r.port entry.2.statsCollector
  senders : List.Forall₂ (fun e s => Labelled route.1.outputInterface e.port s.statsCollector)
    (referenced ss route) entry.2.senderSocketList

/-- Every socket has one collector in the map, under its descriptor, which is the object it
updates, and the collectors are labelled as configured. -/
structure StatsWired (rs : List InputAddressT) (ss : List OutputAddressT) (ms : List MapElement)
    (p : Proxy) : Prop where
  oneEach : (p.statsCollectors.map Prod.fst).Perm p.descriptors ∧ p.descriptors.Nodup
  objects : (p.statsCollectors.map (·.2.object)).Nodup
  own : ∀ e ∈ p.receivers, ∀ c ∈ entryCollectors e, ∃ entry ∈ p.statsCollectors, c = some entry
  labelled : List.Forall₂ (RouteLabelled rs ss) (routes ms) p.receivers

/-- The interfaces of the map agree, and the ports fit into 16 bits. -/
structure RoutePlain (rs : List InputAddressT) (ss : List OutputAddressT) (route : Route) :
    Prop where
  interface : route.1.inputInterface = route.1.outputInterface
  receiver : ∀ r, firstReceiver rs route.2.id = some r → r.port.toNat < 65536
  senders : ∀ e ∈ referenced ss route, e.port.toNat < 65536

variable {host : Host} {p p' : Proxy} {n : ℕ} {rs : List InputAddressT} {ss : List OutputAddressT}
  {ms : List MapElement} {lib : Boost} {tree : PTree}

/-- The map has one entry for each call of `socket()`, and nothing else. -/
structure Collected (host : Host) (p : Proxy) : Prop where
  keys : p.statsCollectors.map Prod.fst = (List.range p.sockets).map host.socket
  objects : p.statsCollectors.map (·.2.object) = List.range' 1 p.sockets

theorem collected_empty : Collected host .empty := ⟨rfl, rfl⟩

theorem Collected.fresh (hinj : Function.Injective host.socket) (hc : Collected host p) :
    p.statsCollectors.lookup (host.socket p.sockets) = none := by
  rw [List.lookup_eq_none_iff]
  intro entry hentry
  have hmem : entry.1 ∈ p.statsCollectors.map Prod.fst := List.mem_map_of_mem hentry
  rw [hc.keys] at hmem
  rw [bne_iff_ne]
  intro h
  exact socket_not_mem hinj (Nat.le_refl _) (h ▸ hmem)

section
variable (addr : String) (port : Option UInt16)

theorem Collected.statsCollectors (hinj : Function.Injective host.socket)
    (hc : Collected host p) :
    (p.opened.getStatsCollector (host.socket p.sockets) addr port).2.statsCollectors =
      p.statsCollectors ++ [(host.socket p.sockets, ⟨p.sockets + 1, addr, port⟩)] :=
  insert_of_lookup_eq_none (hc.fresh hinj)

theorem Collected.getStatsCollector (hinj : Function.Injective host.socket)
    (hc : Collected host p) :
    Collected host (p.opened.getStatsCollector (host.socket p.sockets) addr port).2 := by
  have hsockets : (p.opened.getStatsCollector (host.socket p.sockets) addr port).2.sockets =
      p.sockets + 1 := rfl
  constructor
  · rw [hc.statsCollectors addr port hinj, hsockets, List.map_append, hc.keys,
      List.range_succ, List.map_append]
    rfl
  · rw [hc.statsCollectors addr port hinj, hsockets, List.map_append, hc.objects,
      List.range'_concat, Nat.one_mul, Nat.add_comm 1 p.sockets]
    rfl

end

theorem Collected.withSenders (hinj : Function.Injective host.socket) (hc : Collected host p)
    (mappedFeed : InterfaceConfigT) (outputs : List OutputAddressT) :
    Collected host (p.withSenders host mappedFeed outputs) ∧
      (p.withSenders host mappedFeed outputs).statsCollectors.map some =
        p.statsCollectors.map some ++ (builtSenders host mappedFeed p.sockets outputs).map
          fun s => ownEntry s.socketObj.socket s.statsCollector := by
  induction outputs generalizing p with
  | nil => exact ⟨hc, (List.append_nil _).symm⟩
  | cons output outputs ih =>
    have hmap := hc.statsCollectors mappedFeed.outputInterface (some output.port.toUInt16) hinj
    obtain ⟨hc', hrest⟩ := ih (hc.getStatsCollector mappedFeed.outputInterface
      (some output.port.toUInt16) hinj)
    refine ⟨hc', hrest.trans ?_⟩
    rw [hmap, List.map_append, List.append_assoc]
    congr 1

def AllCollected (p : Proxy) : Prop :=
  p.statsCollectors.map some = p.receivers.flatMap entryCollectors

theorem addItem_collected (hinj : Function.Injective host.socket) {item : Item}
    (ho : AllOwned host p) (hc : Collected host p) (hall : AllCollected p)
    (h : addItem host p item = .ok p') : Collected host p' ∧ AllCollected p' := by
  obtain ⟨-, entry, ⟨inputAddress, hassigned, hentry⟩, hreceivers⟩ := addItem_built hinj ho h
  obtain ⟨inputAddress', hacc, rfl⟩ := (addReceiver_eq_ok host item.1).mp h
  obtain rfl : inputAddress' = inputAddress :=
    Option.some.inj (hacc.assigned.symm.trans hassigned)
  obtain ⟨hcs, hsenders⟩ := hc.withSenders hinj item.1 item.2.outputAddresses
  have hmap := hcs.statsCollectors item.1.outputInterface
    (some inputAddress'.port.toUInt16) hinj
  have hnew := hcs.getStatsCollector item.1.outputInterface
    (some inputAddress'.port.toUInt16) hinj
  refine ⟨⟨hnew.keys, hnew.objects⟩, ?_⟩
  unfold AllCollected
  rw [hreceivers, List.flatMap_append, ← hall, List.flatMap_singleton, hentry]
  refine (congrArg (List.map some) hmap).trans ?_
  rw [List.map_append, hsenders, List.append_assoc, sockets_withSenders]
  rfl

theorem construct_collected (hinj : Function.Injective host.socket)
    (h : construct host lib tree = .ok p) :
    AllOwned host p ∧ Collected host p ∧ AllCollected p := by
  apply construct_invariant hinj ⟨collected_empty, rfl⟩ ?_ h
  rintro p item p' ho ⟨hc, hall⟩ hitem
  exact addItem_collected hinj ho hc hall hitem

theorem labelled_iff {object : ℕ} {addr addr' : String} {port port' : UInt32} :
    Labelled addr port (some ⟨object, addr', some port'.toUInt16⟩) ↔
      addr' = addr ∧ port'.toUInt16.toNat = port.toNat := by
  constructor
  · rintro ⟨haddr, hport⟩
    exact ⟨Option.some.inj haddr, Option.some.inj hport⟩
  · rintro ⟨haddr, hport⟩
    exact ⟨congrArg some haddr, congrArg some hport⟩

theorem toUInt16_eq_iff (port : UInt32) :
    port.toUInt16.toNat = port.toNat ↔ port.toNat < 65536 := by
  rw [UInt32.toNat_toUInt16]
  omega

theorem routeLabelled_iff {route : Route} {entry : Fd × ReceiverSocket}
    (hb : Built host n (resolveRoute rs ss route) entry) :
    RouteLabelled rs ss route entry ↔ RoutePlain rs ss route := by
  obtain ⟨r, hr, rfl⟩ := hb
  have hfirst : firstReceiver rs route.2.id = some r := hr
  have hsenders : List.Forall₂ (fun e s => Labelled route.1.outputInterface e.port
      s.statsCollector) (referenced ss route) (builtSenders host (route.1.resolve rs ss) n
        (referenced ss route)) ↔ ∀ e ∈ referenced ss route, e.port.toNat < 65536 := by
    apply forall₂_iff_forall_left (builtSenders_forall₂ (route.1.resolve rs ss) _)
    rintro e s ⟨k, rfl⟩
    refine labelled_iff.trans ?_
    rw [toUInt16_eq_iff]
    exact and_iff_right rfl
  constructor
  · rintro ⟨⟨r', hr', hlabel⟩, hlabels⟩
    obtain rfl : r = r' := Option.some.inj (hfirst.symm.trans hr')
    obtain ⟨haddr, hport⟩ := labelled_iff.mp hlabel
    refine ⟨haddr.symm, fun r' hr' => ?_, hsenders.mp hlabels⟩
    rw [← Option.some.inj (hfirst.symm.trans hr')]
    exact (toUInt16_eq_iff r.port).mp hport
  · rintro ⟨hinterface, hreceiver, hports⟩
    refine ⟨⟨r, hfirst, labelled_iff.mpr ⟨hinterface.symm, ?_⟩⟩, hsenders.mpr hports⟩
    exact (toUInt16_eq_iff r.port).mpr (hreceiver r hfirst)

/-- **Statistics wiring**: the collectors are wired and labelled as required exactly when the
two interfaces of every map that is used agree and the ports used fit into 16 bits. -/
theorem stats_wired_iff (hinj : Function.Injective host.socket)
    (hrs : receiverElements lib tree = .ok rs) (hss : senderElements lib tree = .ok ss)
    (hms : mapElements lib tree = .ok ms) (h : construct host lib tree = .ok p) :
    StatsWired rs ss ms p ↔ ∀ route ∈ routes ms, RoutePlain rs ss route := by
  have hall := (construct_built hinj (load_of_sections hrs hss hms) h).2
  rw [items_resolve, List.forall₂_map_left_iff] at hall
  obtain ⟨ho, hc, hcollected⟩ := construct_collected hinj h
  have hlabelled : List.Forall₂ (RouteLabelled rs ss) (routes ms) p.receivers ↔
      ∀ route ∈ routes ms, RoutePlain rs ss route := by
    apply forall₂_iff_forall_left hall
    rintro route entry ⟨n, hb⟩
    exact routeLabelled_iff hb
  constructor
  · intro hw
    exact hlabelled.mp hw.labelled
  · intro hplain
    refine ⟨⟨?_, ?_⟩, ?_, ?_, hlabelled.mpr hplain⟩
    · rw [hc.keys, ho]
    · rw [ho]
      exact List.nodup_range.map hinj
    · rw [hc.objects]
      exact List.nodup_range'
    · intro e he c hmem
      have hown : c ∈ p.statsCollectors.map some := by
        rw [hcollected]
        exact List.mem_flatMap.mpr ⟨e, he, hmem⟩
      obtain ⟨entry, hentry, rfl⟩ := List.mem_map.mp hown
      exact ⟨entry, hentry, rfl⟩

/-- A receiver on `inputInterface` and its sender on the loopback interface. -/
def oneMap (inputInterface : String) : PTree :=
  .node "" [("Receivers", .node "" [addressElement "Receiver" "1" "127.0.0.1" "18576"]),
    ("Senders", .node "" [addressElement "Sender" "101" "127.0.0.1" "2347"]),
    ("Mapping", .node "" [("Map", .element
      [("inputInterface", inputInterface), ("outputInterface", "127.0.0.1")]
      [mappedElement "1" ["101"]])])]

theorem stats_wired_same_interface : ∃ rs ss ms p,
    construct (localHost false) .plain (oneMap "127.0.0.1") = .ok p ∧
    p.statsCollectors = [(3, ⟨1, "127.0.0.1", some 2347⟩), (4, ⟨2, "127.0.0.1", some 18576⟩)] ∧
    StatsWired rs ss ms p := by
  have hinj := localHost_socket_injective false
  obtain ⟨p, hp, hcollectors⟩ : ∃ p,
      construct (localHost false) .plain (oneMap "127.0.0.1") = .ok p ∧
      p.statsCollectors =
        [(3, ⟨1, "127.0.0.1", some 2347⟩), (4, ⟨2, "127.0.0.1", some 18576⟩)] := ⟨_, rfl, rfl⟩
  refine ⟨_, _, _, p, hp, hcollectors, (stats_wired_iff hinj rfl rfl rfl hp).mpr ?_⟩
  intro route hroute
  obtain rfl := List.mem_singleton.mp hroute
  refine ⟨rfl, fun r hr => ?_, fun e he => ?_⟩
  · obtain rfl := Option.some.inj hr
    decide
  · obtain rfl := List.mem_singleton.mp he
    decide

/-- A receiver on all interfaces is reported under the output interface. -/
theorem receiver_mislabelled : ¬ ∀ rs ss ms p,
    receiverElements .plain (oneMap "0.0.0.0") = .ok rs →
    senderElements .plain (oneMap "0.0.0.0") = .ok ss →
    mapElements .plain (oneMap "0.0.0.0") = .ok ms →
    construct (localHost false) .plain (oneMap "0.0.0.0") = .ok p → StatsWired rs ss ms p := by
  intro hstated
  have hlabelled := (hstated _ _ _ _ rfl rfl rfl rfl).labelled
  cases hlabelled with
  | cons hroute _ =>
    obtain ⟨r, -, hlabel⟩ := hroute.receiver
    exact absurd hlabel.addr (by decide)

end MddProxy
