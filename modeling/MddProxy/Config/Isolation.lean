import MddProxy.Config.Routing
import MddProxy.Dispatch.FanOut

/-!
# Two groups on one port

Every receiver binds its port on `INADDR_ANY`, and `ReceiveData` forwards whatever it
reads. The kernel delivers a multicast datagram to every such socket on its port as soon
as one socket of the host has joined its group.
-/
namespace MddProxy

open PropertyTree Collections Interleaving

structure Packet where
  group : UInt32
  port : UInt16
  payload : Datagram
  deriving DecidableEq, Repr

/-- Some receiver has joined the group. -/
def Proxy.joined (p : Proxy) (group : UInt32) : Bool :=
  p.receivers.any fun entry =>
    (entry.2.options.bind (·.membership)).any fun m => m.1 = some group

/-- The receiver is a UDP socket bound to the port. -/
def listensOn (entry : Fd × ReceiverSocket) (port : UInt16) : Bool :=
  entry.2.socketObj.protocol = some .dgram && entry.2.options.bind (·.boundPort) = some port

def Proxy.delivers (p : Proxy) (d : Packet) (entry : Fd × ReceiverSocket) : Bool :=
  p.joined d.group && listensOn entry d.port

/-- The receivers of a proxy at run time, in the order of its map, and the datagrams that
have been sent to the host. -/
structure Forwarding where
  calls : List ReceiveCall
  sent : List Packet

namespace Forwarding

/-- Nothing has arrived; `junk` is what the buffers were allocated over. -/
def start (p : Proxy) (junk : Fd → List UInt8) : Forwarding where
  calls := p.receivers.map fun entry =>
    { feed := .fresh entry.2.senderSocketList.length (junk entry.1)
      sockLen := 0
      receiverBytes := 0
      senderBytes := fun _ => 0
      recvs := 0 }
  sent := []

inductive Event where
  /-- A datagram is sent to the host. -/
  | send (d : Packet)
  /-- A worker calls `ReceiveData` on receiver number `i`, and finds a length in `sockLen`. -/
  | receiveData (i : ℕ) (sockLen : UInt32) (sendtoFails : ℕ → ℕ → Bool)

/-- The kernel queues a datagram on the receivers that it is delivered to. -/
def deliver (p : Proxy) (d : Packet) (calls : List ReceiveCall) : List ReceiveCall :=
  List.zipWith (fun entry c =>
    if p.delivers d entry then { c with feed := c.feed.arrive d.payload } else c) p.receivers calls

def step (p : Proxy) (s : Forwarding) : Event → Option Forwarding
  | .send d => some { calls := deliver p d s.calls, sent := s.sent ++ [d] }
  | .receiveData i sockLen sendtoFails => (s.calls[i]?).map fun c =>
    { s with calls := s.calls.set i ((c.called sockLen).receiveData sendtoFails).1 }

def OnlySends (traffic : Packet → Prop) (_ : Forwarding) : Event → Prop
  | .send d => traffic d
  | .receiveData _ _ _ => True

end Forwarding

variable {host : Host} {feeds : List InterfaceConfigT} {p : Proxy} {item : Item}
  {entry : Fd × ReceiverSocket} {n : ℕ}

/-- The mapped receiver is a Multicast UDP receiver of the group. -/
def ConfiguredWith (host : Host) (item : Item) (group : UInt32) : Prop :=
  ∃ e ∈ item.2.inputAddress, e.protocol = .udp ∧ e.broadcastType = .multicast ∧
    host.inetAton e.address = some group

instance (host : Host) (item : Item) (group : UInt32) :
    Decidable (ConfiguredWith host item group) :=
  inferInstanceAs (Decidable (∃ e ∈ item.2.inputAddress, e.protocol = .udp ∧
    e.broadcastType = .multicast ∧ host.inetAton e.address = some group))

/-- The sender is mapped to a receiver of the group. -/
def MappedTo (host : Host) (feeds : List InterfaceConfigT) (group : UInt32)
    (output : OutputAddressT) : Prop :=
  ∃ item ∈ items feeds, ConfiguredWith host item group ∧ output ∈ item.2.outputAddresses

instance (host : Host) (feeds : List InterfaceConfigT) (group : UInt32)
    (output : OutputAddressT) : Decidable (MappedTo host feeds group output) :=
  inferInstanceAs (Decidable (∃ item ∈ items feeds, ConfiguredWith host item group ∧
    output ∈ item.2.outputAddresses))

/-- What a sender has transmitted are datagrams of groups that it is mapped to. -/
def ForwardsOwn (host : Host) (feeds : List InterfaceConfigT) (s : Forwarding) : Prop :=
  ∀ (i k : ℕ) (item : Item) (c : ReceiveCall) (output : OutputAddressT) (t : List Datagram),
    (items feeds)[i]? = some item → s.calls[i]? = some c →
    item.2.outputAddresses[k]? = some output → c.feed.transmitted[k]? = some t →
    ∃ own : List Packet, own.Sublist s.sent ∧
      t = own.map (fun d => d.payload.take MAX_PACKET_SIZE) ∧
      ∀ d ∈ own, MappedTo host feeds d.group output

/-- Whatever of the traffic is sent, and whenever the receivers are read. -/
def Isolated (host : Host) (feeds : List InterfaceConfigT) (p : Proxy) (junk : Fd → List UInt8)
    (traffic : Packet → Prop) : Prop :=
  ∀ s, Reaches (Forwarding.step p) (Forwarding.OnlySends traffic) (.start p junk) s →
    ForwardsOwn host feeds s

/-- The destinations of every UDP receiver on the port of a non-empty datagram are also
mapped to a receiver of its group. -/
def NoCrossTalk (host : Host) (feeds : List InterfaceConfigT) (d : Packet) : Prop :=
  d.payload ≠ [] → ∀ item ∈ items feeds, ∀ e ∈ item.2.inputAddress,
    e.protocol = .udp → host.htons e.port.toUInt16 = d.port →
      ∀ output ∈ item.2.outputAddresses, MappedTo host feeds d.group output

instance (host : Host) (feeds : List InterfaceConfigT) (d : Packet) :
    Decidable (NoCrossTalk host feeds d) :=
  inferInstanceAs (Decidable (d.payload ≠ [] → ∀ item ∈ items feeds, ∀ e ∈ item.2.inputAddress,
    e.protocol = .udp → host.htons e.port.toUInt16 = d.port →
      ∀ output ∈ item.2.outputAddresses, MappedTo host feeds d.group output))

theorem Built.listensOn (hb : Built host n item entry) (port : UInt16) :
    listensOn entry port = true ↔ ∃ e ∈ item.2.inputAddress, e.protocol = .udp ∧
      host.htons e.port.toUInt16 = port := by
  obtain ⟨e, he, rfl⟩ := hb
  cases hprotocol : e.protocol <;>
    simp [MddProxy.listensOn, builtReceiver, ReceiverSocket.created, ReceiverSocket.new,
      receiverAddr, fillAddr, he, hprotocol]

theorem Built.membership (hb : Built host n item entry) {group : UInt32}
    (hg : ConfiguredWith host item group) :
    ((entry.2.options.bind (·.membership)).any fun m => m.1 = some group) = true := by
  obtain ⟨e, he, rfl⟩ := hb
  obtain ⟨e', he', -, hmulticast, haton⟩ := hg
  obtain rfl := Option.some.inj (he.symm.trans he')
  simp [builtReceiver, ReceiverSocket.created, ReceiverSocket.new, receiverAddr, fillAddr,
    hmulticast, haton]

theorem Built.senders_length (hb : Built host n item entry) :
    entry.2.senderSocketList.length = item.2.outputAddresses.length := by
  obtain ⟨_, -, rfl⟩ := hb
  simp [builtReceiver, ReceiverSocket.created, ReceiverSocket.new, builtSenders]

theorem getElem?_of_forall₂ {α β : Type*} {r : α → β → Prop} {l : List α} {u : List β} {i : ℕ}
    {a : α} (h : List.Forall₂ r l u) (ha : l[i]? = some a) : ∃ b, u[i]? = some b ∧ r a b := by
  induction h generalizing i with
  | nil => simp at ha
  | @cons a' b l u hab _ ih =>
    cases i with
    | zero =>
      obtain rfl : a' = a := by simpa using ha
      exact ⟨b, rfl, hab⟩
    | succ i => exact ih (by simpa using ha)

theorem delivers_iff (hbuilt : List.Forall₂ (fun item entry => ∃ n, Built host n item entry)
      (items feeds) p.receivers) (hb : Built host n item entry) {d : Packet}
    (hd : ∃ item ∈ items feeds, ConfiguredWith host item d.group) :
    p.delivers d entry = true ↔ ∃ e ∈ item.2.inputAddress, e.protocol = .udp ∧
      host.htons e.port.toUInt16 = d.port := by
  obtain ⟨item', hitem', hgroup⟩ := hd
  obtain ⟨i, hi⟩ := List.getElem?_of_mem hitem'
  obtain ⟨entry', hentry', m, hb'⟩ := getElem?_of_forall₂ hbuilt hi
  have hjoined : p.joined d.group = true :=
    List.any_eq_true.mpr ⟨entry', List.mem_of_getElem? hentry', hb'.membership hgroup⟩
  rw [Proxy.delivers, hjoined, Bool.true_and, hb.listensOn]

namespace Forwarding

variable {s s' : Forwarding} {traffic : Packet → Prop} {junk : Fd → List UInt8}

/-- Every receiver has been given the datagrams delivered to it, and its senders have
transmitted only what was read of them. -/
structure Tracks (p : Proxy) (traffic : Packet → Prop) (s : Forwarding) : Prop where
  sent : ∀ d ∈ s.sent, traffic d
  arrived : ∀ (i : ℕ) (entry : Fd × ReceiverSocket) (c : ReceiveCall),
    p.receivers[i]? = some entry → s.calls[i]? = some c →
    c.feed.arrived = (s.sent.filter fun d => p.delivers d entry).map Packet.payload
  traced : ∀ c ∈ s.calls, c.Traced

theorem traced_arrive {c : ReceiveCall} (ht : c.Traced) (d : Datagram) :
    ReceiveCall.Traced { c with feed := c.feed.arrive d } := by
  intro j t hj
  have hle : (c.feed.arrived.take c.feed.taken).Sublist
      ((c.feed.arrived ++ [d]).take c.feed.taken) := by
    rw [List.take_append]
    exact List.sublist_append_left _ _
  exact (ht j t hj).trans ((hle.filter _).map _)

theorem tracks_start : Tracks p traffic (start p junk) where
  sent := by simp [start]
  arrived := by
    intro i entry c hentry hc
    simp only [start, List.getElem?_map, hentry, Option.map_some, Option.some.injEq] at hc
    subst hc
    rfl
  traced := by
    intro c hc j t hj
    obtain ⟨entry, -, rfl⟩ := List.mem_map.mp hc
    obtain rfl : t = [] := List.eq_of_mem_replicate (List.mem_of_getElem? hj)
    exact List.nil_sublist _

theorem Tracks.send {d : Packet} (ht : Tracks p traffic s) (hd : traffic d)
    (hs : step p s (.send d) = some s') : Tracks p traffic s' := by
  obtain rfl := Option.some.inj hs
  refine ⟨?_, ?_, ?_⟩
  · intro d' hd'
    rcases List.mem_append.mp hd' with hd' | hd'
    · exact ht.sent d' hd'
    · obtain rfl := List.mem_singleton.mp hd'
      exact hd
  · intro i entry c hentry hc
    obtain ⟨entry', c₀, hentry', hc₀, rfl⟩ := List.getElem?_zipWith_eq_some.mp hc
    obtain rfl := Option.some.inj (hentry.symm.trans hentry')
    have harrived := ht.arrived i entry c₀ hentry hc₀
    rw [List.filter_append, List.map_append, ← harrived]
    by_cases hdel : p.delivers d entry = true
    · simp [hdel, Feed.arrive]
    · simp [hdel]
  · intro c hc
    obtain ⟨i, hi⟩ := List.getElem?_of_mem hc
    obtain ⟨entry, c₀, -, hc₀, rfl⟩ := List.getElem?_zipWith_eq_some.mp hi
    have htraced := ht.traced c₀ (List.mem_of_getElem? hc₀)
    split
    · exact traced_arrive htraced _
    · exact htraced

theorem Tracks.receiveData {i : ℕ} {sockLen : UInt32} {fails : ℕ → ℕ → Bool}
    (ht : Tracks p traffic s) (hs : step p s (.receiveData i sockLen fails) = some s') :
    Tracks p traffic s' := by
  obtain ⟨c, hc, rfl⟩ := Option.map_eq_some_iff.mp hs
  have hlen := (List.getElem?_eq_some_iff.mp hc).1
  refine ⟨ht.sent, ?_, ?_⟩
  · intro j entry c' hentry hc'
    by_cases hij : i = j
    · subst hij
      obtain rfl : ((c.called sockLen).receiveData fails).1 = c' := by
        simpa [List.getElem?_set_self hlen] using hc'
      rw [ReceiveCall.receiveData_arrived]
      exact ht.arrived i entry c hentry hc
    · rw [List.getElem?_set_ne hij] at hc'
      exact ht.arrived j entry c' hentry hc'
  · intro c' hc'
    rcases List.mem_or_eq_of_mem_set hc' with hc' | rfl
    · exact ht.traced c' hc'
    · apply ReceiveCall.receiveData_traced
      exact ht.traced c (List.mem_of_getElem? hc)

theorem Tracks.step {a : Event} (ht : Tracks p traffic s) (hg : OnlySends traffic s a)
    (hs : step p s a = some s') : Tracks p traffic s' := by
  cases a with
  | send d => exact ht.send hg hs
  | receiveData i sockLen fails => exact ht.receiveData hs

theorem Tracks.own (ht : Tracks p traffic s) {i k : ℕ} {c : ReceiveCall} {t : List Datagram}
    (hentry : p.receivers[i]? = some entry) (hc : s.calls[i]? = some c)
    (hk : c.feed.transmitted[k]? = some t) :
    ∃ own : List Packet, own.Sublist s.sent ∧
      t = own.map (fun d => d.payload.take MAX_PACKET_SIZE) ∧
      ∀ d ∈ own, traffic d ∧ p.delivers d entry = true ∧ d.payload ≠ [] := by
  have hread : c.read.Sublist ((c.feed.arrived.filter fun d => !d.isEmpty).map
      (List.take MAX_PACKET_SIZE)) := ((List.take_sublist _ _).filter _).map _
  have hsub := (ht.traced c (List.mem_of_getElem? hc) k t hk).trans hread
  rw [ht.arrived i entry c hentry hc, List.filter_map, List.filter_filter, List.map_map] at hsub
  obtain ⟨own, hown, rfl⟩ := List.sublist_map_iff.mp hsub
  refine ⟨own, hown.trans List.filter_sublist, rfl, ?_⟩
  intro d hd
  obtain ⟨hsent, htest⟩ := List.mem_filter.mp (hown.subset hd)
  simp only [Function.comp_apply, Bool.and_eq_true, Bool.not_eq_true', List.isEmpty_eq_false_iff]
    at htest
  exact ⟨ht.sent d hsent, htest.2, htest.1⟩

end Forwarding

open Forwarding

section
variable {traffic : Packet → Prop} {junk : Fd → List UInt8}
  (hbuilt : List.Forall₂ (fun item entry => ∃ n, Built host n item entry) (items feeds) p.receivers)
  (htraffic : ∀ d, traffic d → ∃ item ∈ items feeds, ConfiguredWith host item d.group)
include hbuilt htraffic

theorem isolated_of_noCrossTalk (hno : ∀ d, traffic d → NoCrossTalk host feeds d) :
    Isolated host feeds p junk traffic := by
  intro s hs i k item c output t hitem hc houtput hk
  have htracks : Tracks p traffic s := by
    apply hs.invariant (I := Tracks p traffic) tracks_start
    intro s a s' ht hg hstep
    exact ht.step hg hstep
  obtain ⟨entry, hentry, n, hb⟩ := getElem?_of_forall₂ hbuilt hitem
  obtain ⟨own, hown, rfl, hall⟩ := htracks.own hentry hc hk
  refine ⟨own, hown, rfl, fun d hd => ?_⟩
  obtain ⟨hd, hdelivers, hne⟩ := hall d hd
  obtain ⟨e, he, hudp, hport⟩ := (delivers_iff hbuilt hb (htraffic d hd)).mp hdelivers
  exact hno d hd hne item (List.mem_of_getElem? hitem) e he hudp hport output
    (List.mem_of_getElem? houtput)

theorem noCrossTalk_of_isolated (hi : Isolated host feeds p junk traffic) {d : Packet}
    (hd : traffic d) : NoCrossTalk host feeds d := by
  intro hne item hitem e he hudp hport output houtput
  obtain ⟨i, hitem⟩ := List.getElem?_of_mem hitem
  obtain ⟨k, houtput⟩ := List.getElem?_of_mem houtput
  obtain ⟨entry, hentry, n, hb⟩ := getElem?_of_forall₂ hbuilt hitem
  have hdelivers : p.delivers d entry = true :=
    (delivers_iff hbuilt hb (htraffic d hd)).mpr ⟨e, he, hudp, hport⟩
  obtain ⟨c, hc, hfeed⟩ : ∃ c, (start p junk).calls[i]? = some c ∧
      c.feed = .fresh entry.2.senderSocketList.length (junk entry.1) := by
    simp [start, hentry]
  set c₁ : ReceiveCall := { c with feed := c.feed.arrive d.payload } with hc₁
  set calls := deliver p d (start p junk).calls with hcalls
  have hcall : calls[i]? = some c₁ :=
    List.getElem?_zipWith_eq_some.mpr ⟨entry, c, hentry, hc, by simp [hdelivers, hc₁]⟩
  have hsend : (start p junk).step p (.send d) = some ⟨calls, [d]⟩ := rfl
  have hreceive : Forwarding.step p ⟨calls, [d]⟩ (.receiveData i 0 fun _ _ => false) =
      some ⟨calls.set i ((c₁.called 0).receiveData fun _ _ => false).1, [d]⟩ := by
    simp [Forwarding.step, hcall]
  have hreach : Reaches (Forwarding.step p) (OnlySends traffic) (start p junk) _ :=
    .tail (a := Event.receiveData i 0 _) (.tail (a := Event.send d) .refl hd hsend) trivial hreceive
  have hlen := (List.getElem?_eq_some_iff.mp hcall).1
  have hfeed₁ : (c₁.called 0).feed =
      (Feed.fresh entry.2.senderSocketList.length (junk entry.1)).arrive d.payload := by
    rw [hc₁, ReceiveCall.called, hfeed]
  have htransmitted := ReceiveCall.transmitted_fresh (c := c₁.called 0) rfl hfeed₁ hne
  have hk : k < entry.2.senderSocketList.length := by
    rw [hb.senders_length]
    exact (List.getElem?_eq_some_iff.mp houtput).1
  obtain ⟨own, hown, hpayload, hmapped⟩ := hi _ hreach i k item _ output
    [d.payload.take MAX_PACKET_SIZE] hitem (List.getElem?_set_self hlen) houtput
    (by simp [htransmitted, hk])
  obtain rfl : own = [d] := by
    rcases List.sublist_singleton.mp hown with rfl | rfl
    · simp at hpayload
    · rfl
  exact hmapped d (List.mem_singleton_self d)

end

def multicastElement (id ip port : String) : String × PTree :=
  ("Receiver", .element [("name", "TOB"), ("id", id), ("protocol", "UDP"), ("type", "Multicast"),
    ("ip", ip), ("port", port)] [])

def twoGroups (port₁ port₂ : String) : PTree :=
  configuration [multicastElement "1" "239.0.0.1" port₁, multicastElement "2" "239.0.0.2" port₂]
    [addressElement "Sender" "101" "127.0.0.1" "2347",
      addressElement "Sender" "102" "127.0.0.1" "2348"]
    [mappedElement "1" ["101"], mappedElement "2" ["102"]]

def groupHost : Host :=
  { localHost false with
    inetAton := fun cp =>
      if cp = "239.0.0.1" then some 0x010000ef
      else if cp = "239.0.0.2" then some 0x020000ef
      else (localHost false).inetAton cp }

def packet (group : UInt32) (port : UInt16) : Packet := ⟨group, groupHost.htons port, [1]⟩

end MddProxy
