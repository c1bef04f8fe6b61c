import MddProxy.Config.Readiness
import MddProxy.Dispatch.Delivery

/-!
# From the configuration to the wire

The routing table that is built and the relay that each receiver is make one statement: what
leaves for the address of a mapped sender is what came in on the address of its receiver.
-/
namespace MddProxy

open PropertyTree Collections Interleaving

variable {host : Host} {p : Proxy} {rs : List InputAddressT} {ss : List OutputAddressT}
  {ms : List MapElement} {route : Route} {entry : Fd × ReceiverSocket} {t : Polled}
  {count : ℕ} {junk : Junk}

/-- The poller on the receivers of `p`, with `count` free workers. -/
def Polled.of (p : Proxy) (count : ℕ) (junk : Junk) : Polled :=
  .start count (fun fd => (p.receivers.lookup fd).map fun r => r.senderSocketList.length) junk

/-- Each destination of a route has a sender with its address, and what that sender has
transmitted is to what arrived at the receiver as `passed` says. -/
def Forwarded (host : Host) (ss : List OutputAddressT)
    (passed : List Datagram → List Datagram → Prop) (route : Route)
    (entry : Fd × ReceiverSocket) (t : Polled) : Prop :=
  ∃ f, t.system.receivers entry.1 = some f ∧
    List.Forall₂ (fun id out => (∃ e, firstSender ss id = some e ∧
        SenderFrom host route.1 e out.1) ∧ passed out.2 f.arrived)
      route.2.senderIds (entry.2.senderSocketList.zip f.transmitted)

/-- The entry is what the route asks for. As long as its receiver is served by one call at a
time, each destination has had a front part of what arrived, and all of it at rest. -/
structure RouteServed (host : Host) (rs : List InputAddressT) (ss : List OutputAddressT)
    (p : Proxy) (count : ℕ) (junk : Junk) (route : Route)
    (entry : Fd × ReceiverSocket) : Prop where
  built : RouteBuilt host rs ss route entry
  prefixes : ∀ t, Reaches Polled.step (Polled.Under (System.ServedAlone entry.1))
    (.of p count junk) t → Forwarded host ss (fun sent arrived => sent <+: arrived) route entry t
  complete : ∀ t, Reaches Polled.step (Polled.Under (System.Delivers entry.1))
    (.of p count junk) t → t.AtRest →
      Forwarded host ss (fun sent arrived => sent = arrived) route entry t

theorem Registered.lookup_mem (hr : Registered p) (h : entry ∈ p.receivers) :
    p.receivers.lookup entry.1 = some entry.2 := by
  have hfd : entry.1 ∈ p.epoller.registered := by
    rw [hr.registered]
    exact List.mem_map_of_mem h
  obtain ⟨r, hlookup, -⟩ := hr.lookup hfd
  obtain ⟨front, back, hsplit, -⟩ := List.lookup_eq_some_iff.mp hlookup
  have hmem : (entry.1, r) ∈ p.receivers := by simp [hsplit]
  -- two entries under one key are the same
  have hsame := List.inj_on_of_nodup_map hr.nodup hmem h rfl
  rw [hlookup, ← hsame]

theorem routes_built {lib : Boost} {tree : PTree} (hinj : Function.Injective host.socket)
    (hrs : receiverElements lib tree = .ok rs) (hss : senderElements lib tree = .ok ss)
    (hms : mapElements lib tree = .ok ms) (hdecl : Declared rs ss ms)
    (h : construct host lib tree = .ok p) :
    List.Forall₂ (RouteBuilt host rs ss) (routes ms) p.receivers := by
  obtain ⟨-, hall⟩ := construct_built hinj (load_of_sections hrs hss hms) h
  rw [items_resolve, List.forall₂_map_left_iff] at hall
  apply ((List.forall₂_and_left _ _).mpr ⟨hdecl, hall⟩).imp
  rintro route entry ⟨hroute, n, hb⟩
  exact hb.route hroute.2

theorem Registered.senders (hr : Registered p) (hentry : entry ∈ p.receivers) :
    (p.receivers.lookup entry.1).map (fun r => r.senderSocketList.length) =
      some entry.2.senderSocketList.length := by
  rw [hr.lookup_mem hentry]
  rfl

theorem RouteBuilt.prefixes (hb : RouteBuilt host rs ss route entry) (hr : Registered p)
    (hentry : entry ∈ p.receivers)
    (h : Reaches Polled.step (Polled.Under (System.ServedAlone entry.1)) (.of p count junk) t) :
    Forwarded host ss (fun sent arrived => sent <+: arrived) route entry t := by
  have hsys := Polled.reaches_system h
  obtain ⟨f, hf, ho, hrelay⟩ := System.feed_refines_relay (hr.senders hentry) hsys
  have hout := ho.frontParts.outputs
  have hlen := Relay.length_outputs hrelay
  rw [hout] at hlen
  refine ⟨f, hf, forall₂_zip (q := fun sent => sent <+: f.arrived) hb.senders hlen ?_⟩
  intro sent hsent
  exact f.toRelay.outputs_prefix sent (hout ▸ hsent)

theorem RouteBuilt.complete (hb : RouteBuilt host rs ss route entry) (hr : Registered p)
    (hentry : entry ∈ p.receivers) (hcount : 0 < count)
    (h : Reaches Polled.step (Polled.Under (System.Delivers entry.1)) (.of p count junk) t)
    (hrest : t.AtRest) : Forwarded host ss (fun sent arrived => sent = arrived) route entry t := by
  obtain ⟨f, hf, -, hlen, hall⟩ := hrest.all_sent hcount (hr.senders hentry) h
  exact ⟨f, hf, forall₂_zip (q := fun sent => sent = f.arrived) hb.senders hlen hall⟩

/-- **Configured traffic is forwarded**: an accepted configuration has one receiver for each
mapped receiver, in document order, and what comes in on it goes out to its destinations. -/
theorem configured_traffic_forwarded {lib : Boost} {tree : PTree}
    (hinj : Function.Injective host.socket) (hrs : receiverElements lib tree = .ok rs)
    (hss : senderElements lib tree = .ok ss) (hms : mapElements lib tree = .ok ms)
    (hdecl : Declared rs ss ms) (h : construct host lib tree = .ok p) (hcount : 0 < count) :
    List.Forall₂ (RouteServed host rs ss p count junk) (routes ms) p.receivers := by
  have hr := registered_construct hinj h
  have hbuilt := routes_built hinj hrs hss hms hdecl h
  rw [List.forall₂_iff_get] at hbuilt ⊢
  obtain ⟨hlen, hbuilt⟩ := hbuilt
  refine ⟨hlen, fun i hi hi' => ?_⟩
  have hb := hbuilt i hi hi'
  have hentry := List.get_mem p.receivers ⟨i, hi'⟩
  exact ⟨hb, fun t ht => hb.prefixes hr hentry ht,
    fun t ht hrest => hb.complete hr hentry hcount ht hrest⟩

theorem configured_traffic_forwarded_two_routes : ∃ rs ss ms p,
    construct (localHost false) .plain twoRoutes = .ok p ∧ (routes ms).length = 2 ∧
      List.Forall₂ (RouteServed (localHost false) rs ss p 5 .zeroed) (routes ms)
        p.receivers := by
  obtain ⟨p, hp⟩ : ∃ p, construct (localHost false) .plain twoRoutes = .ok p := ⟨_, rfl⟩
  have hinj := localHost_socket_injective false
  refine ⟨_, _, _, p, hp, ?_, configured_traffic_forwarded hinj rfl rfl rfl ?_ hp (by decide)⟩
  all_goals decide

end MddProxy
