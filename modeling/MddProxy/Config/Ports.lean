import MddProxy.Config.Routing

/-!
# Ports on the wire

A configured port goes through the 16-bit `sin_port`. `ReceiverSocket::Create` converts
it with `htons` before `bind`; `SenderSocket::SendData` passes it to `sendto` as it is.
-/
namespace MddProxy

open PropertyTree Collections

theorem toNat_swapBytes (x : UInt16) :
    (Host.swapBytes x).toNat = x.toNat % 256 * 256 + x.toNat / 256 := by
  have hx : x.toNat < 65536 := x.toNat_lt
  have hlow : x.toNat <<< 8 % 65536 = (x.toNat % 256) <<< 8 := by
    simp only [Nat.shiftLeft_eq]
    omega
  have hhigh : x.toNat >>> 8 < 2 ^ 8 := by
    rw [Nat.shiftRight_eq_div_pow]
    omega
  have hor : (Host.swapBytes x).toNat = x.toNat <<< 8 % 65536 ||| x.toNat >>> 8 := by
    simp [Host.swapBytes]
  rw [hor, hlow, ← Nat.shiftLeft_add_eq_or_of_lt hhigh, Nat.shiftLeft_eq,
    Nat.shiftRight_eq_div_pow]

theorem swapBytes_swapBytes (x : UInt16) : Host.swapBytes (Host.swapBytes x) = x := by
  apply UInt16.toNat_inj.mp
  rw [toNat_swapBytes, toNat_swapBytes]
  have hx : x.toNat < 65536 := x.toNat_lt
  omega

theorem ntohs_htons (host : Host) (x : UInt16) : host.ntohs (host.htons x) = x := by
  unfold Host.ntohs Host.htons
  cases host.bigEndian
  · simp [swapBytes_swapBytes]
  · rfl

theorem toNat_toUInt16 (port : UInt32) : port.toUInt16.toNat = port.toNat % 65536 := by
  simp

theorem toUInt16_fits (port : UInt32) :
    port.toUInt16.toNat = port.toNat ↔ port.toNat < 65536 := by
  rw [toNat_toUInt16]
  omega

/-- A port sent without conversion is read as the configured one when the host is big
endian or swapping its bytes changes nothing. -/
theorem ntohs_toUInt16 (host : Host) (port : UInt32) :
    (host.ntohs port.toUInt16).toNat = port.toNat ↔ port.toNat < 65536 ∧
      (host.bigEndian = true ∨ port.toNat / 256 = port.toNat % 256) := by
  unfold Host.ntohs
  cases host.bigEndian
  · simp only [Bool.false_eq_true, if_false, false_or, toNat_swapBytes, toNat_toUInt16]
    by_cases hfits : port.toNat < 65536
    · rw [Nat.mod_eq_of_lt hfits]
      omega
    · have hlt : port.toNat % 65536 < 65536 := Nat.mod_lt _ (by decide)
      omega
  · simp

/-- The port of `bind`, read in network order. -/
def boundWirePort (host : Host) (r : ReceiverSocket) : Option ℕ :=
  (r.options.bind (·.boundPort)).map fun x => (host.ntohs x).toNat

/-- The port of the address given to `sendto`, read in network order. -/
def sentWirePort (host : Host) (s : SenderSocket) : Option ℕ :=
  s.socketObj.addr.sinPort.map fun x => (host.ntohs x).toNat

/-- The sockets of one entry have the ports of the elements they were built from. -/
structure EntryPorts (host : Host) (item : Item) (entry : Fd × ReceiverSocket) : Prop where
  receiver : ∀ e, item.2.inputAddress = some e → boundWirePort host entry.2 = some e.port.toNat
  senders : List.Forall₂ (fun (e : OutputAddressT) s => sentWirePort host s = some e.port.toNat)
    item.2.outputAddresses entry.2.senderSocketList

def PortsOnWire (host : Host) (feeds : List InterfaceConfigT) (p : Proxy) : Prop :=
  List.Forall₂ (EntryPorts host) (items feeds) p.receivers

/-- What a sender of the first proxy sends reaches the port that a receiver of the second
is bound to, when both are configured with the same address and port. -/
def Arrives (host host' : Host) (feeds feeds' : List InterfaceConfigT) (p p' : Proxy) : Prop :=
  ∀ item entry, (item, entry) ∈ (items feeds).zip p.receivers →
    ∀ e s, (e, s) ∈ item.2.outputAddresses.zip entry.2.senderSocketList →
      ∀ item' entry', (item', entry') ∈ (items feeds').zip p'.receivers →
        ∀ e', item'.2.inputAddress = some e' → e'.address = e.address → e'.port = e.port →
          sentWirePort host s = boundWirePort host' entry'.2

/-- The ports that come through: below 65536, and for a sender on a little-endian host
made of two equal bytes. -/
structure ItemFits (host : Host) (item : Item) : Prop where
  receiver : ∀ e, item.2.inputAddress = some e → e.port.toNat < 65536
  senders : ∀ e ∈ item.2.outputAddresses, e.port.toNat < 65536 ∧
    (host.bigEndian = true ∨ e.port.toNat / 256 = e.port.toNat % 256)

instance (host : Host) (item : Item) : Decidable (ItemFits host item) :=
  decidable_of_iff ((∀ e ∈ item.2.inputAddress, e.port.toNat < 65536) ∧
    ∀ e ∈ item.2.outputAddresses, e.port.toNat < 65536 ∧
      (host.bigEndian = true ∨ e.port.toNat / 256 = e.port.toNat % 256))
    ⟨fun h => ⟨h.1, h.2⟩, fun h => ⟨h.receiver, h.senders⟩⟩

def PortsFit (host : Host) (feeds : List InterfaceConfigT) : Prop :=
  ∀ item ∈ items feeds, ItemFits host item

instance (host : Host) (feeds : List InterfaceConfigT) : Decidable (PortsFit host feeds) :=
  inferInstanceAs (Decidable (∀ item ∈ items feeds, ItemFits host item))

variable {host host' : Host} {n : ℕ} {item : Item} {entry : Fd × ReceiverSocket}

theorem builtSenders_ports (mappedFeed : InterfaceConfigT) (outputs : List OutputAddressT) :
    List.Forall₂ (fun (e : OutputAddressT) s => sentWirePort host s = some e.port.toNat) outputs
      (builtSenders host mappedFeed n outputs) ↔
    ∀ e ∈ outputs, e.port.toNat < 65536 ∧
      (host.bigEndian = true ∨ e.port.toNat / 256 = e.port.toNat % 256) := by
  induction outputs generalizing n with
  | nil => simp [builtSenders]
  | cons output outputs ih =>
    have hport : sentWirePort host (builtSender host mappedFeed n output) =
        some (host.ntohs output.port.toUInt16).toNat := rfl
    simp only [builtSenders] at ih
    simp only [builtSenders, List.zipIdx_cons, List.map_cons, List.forall₂_cons, hport,
      Option.some.injEq, ntohs_toUInt16, ih, List.forall_mem_cons]

theorem Built.ports (hb : Built host n item entry) : EntryPorts host item entry ↔
    ItemFits host item := by
  obtain ⟨e, he, rfl⟩ := hb
  have hbound : ∀ m senderList,
      boundWirePort host (builtReceiver host item.1 m senderList e) =
        some e.port.toUInt16.toNat := by
    intro m senderList
    exact congrArg (fun x : UInt16 => some x.toNat) (ntohs_htons host e.port.toUInt16)
  constructor
  · intro h
    refine ⟨fun e' he' => ?_, (builtSenders_ports item.1 _).mp h.senders⟩
    have := h.receiver e' he'
    obtain rfl := Option.some.inj (he.symm.trans he')
    rwa [hbound, Option.some.injEq, toUInt16_fits] at this
  · intro h
    refine ⟨fun e' he' => ?_, (builtSenders_ports item.1 _).mpr h.senders⟩
    have := h.receiver e' he'
    obtain rfl := Option.some.inj (he.symm.trans he')
    rwa [hbound, Option.some.injEq, toUInt16_fits]

theorem portsOnWire_iff {lib : Boost} {tree : PTree} {feeds : List InterfaceConfigT} {p : Proxy}
    (hinj : Function.Injective host.socket) (hload : MddFeedConfig.load lib tree = .ok feeds)
    (h : construct host lib tree = .ok p) : PortsOnWire host feeds p ↔ PortsFit host feeds :=
  forall₂_iff_forall_left (construct_built hinj hload h).2 fun _ _ ⟨_, hb⟩ => hb.ports

theorem PortsOnWire.arrives {feeds feeds' : List InterfaceConfigT} {p p' : Proxy}
    (h : PortsOnWire host feeds p) (h' : PortsOnWire host' feeds' p') :
    Arrives host host' feeds feeds' p p' := by
  intro item entry hentry e s hs item' entry' hentry' e' he' _ hport
  have hsent := List.forall₂_zip (List.forall₂_zip h hentry).senders hs
  have hbound := (List.forall₂_zip h' hentry').receiver e' he'
  rw [hsent, hbound, hport]

/-- **Configured ports on the wire**: two accepted configurations have their ports on the
wire, and their proxies reach each other, exactly when both have only ports that come
through. -/
theorem configured_ports_on_wire_iff {lib : Boost} {tree tree' : PTree}
    {feeds feeds' : List InterfaceConfigT} {p p' : Proxy}
    (hinj : Function.Injective host.socket) (hinj' : Function.Injective host'.socket)
    (hload : MddFeedConfig.load lib tree = .ok feeds)
    (hload' : MddFeedConfig.load lib tree' = .ok feeds')
    (h : construct host lib tree = .ok p) (h' : construct host' lib tree' = .ok p') :
    (PortsOnWire host feeds p ∧ PortsOnWire host' feeds' p' ∧
      Arrives host host' feeds feeds' p p') ↔ PortsFit host feeds ∧ PortsFit host' feeds' := by
  rw [← portsOnWire_iff hinj hload h, ← portsOnWire_iff hinj' hload' h', ← and_assoc]
  exact and_iff_left_of_imp fun hports => hports.1.arrives hports.2

/-- A sender on port 257, whose two bytes are equal. -/
def palindromicPort : PTree :=
  configuration [addressElement "Receiver" "1" "127.0.0.1" "18576"]
    [addressElement "Sender" "101" "127.0.0.1" "257"] [mappedElement "1" ["101"]]

/-- A receiver on that port, and a sender on port 2347. -/
def palindromicInput : PTree :=
  configuration [addressElement "Receiver" "1" "127.0.0.1" "257"]
    [addressElement "Sender" "101" "127.0.0.1" "2347"] [mappedElement "1" ["101"]]

/-- A little-endian proxy with the sender, and a big-endian one with the receiver. -/
theorem configured_ports_on_wire_two_proxies :
    ∃ feeds feeds' p p', MddFeedConfig.load .plain palindromicPort = .ok feeds ∧
      MddFeedConfig.load .plain palindromicInput = .ok feeds' ∧
      construct (localHost false) .plain palindromicPort = .ok p ∧
      construct (localHost true) .plain palindromicInput = .ok p' ∧
      p.receivers.map (fun e => e.2.senderSocketList.map (sentWirePort (localHost false))) =
        [[some 257]] ∧
      p'.receivers.map (fun e => boundWirePort (localHost true) e.2) = [some 257] ∧
      PortsOnWire (localHost false) feeds p ∧ PortsOnWire (localHost true) feeds' p' ∧
      Arrives (localHost false) (localHost true) feeds feeds' p p' := by
  obtain ⟨feeds, hload, hfit⟩ : ∃ feeds, MddFeedConfig.load .plain palindromicPort = .ok feeds ∧
      PortsFit (localHost false) feeds := ⟨_, rfl, by decide⟩
  obtain ⟨feeds', hload', hfit'⟩ : ∃ feeds, MddFeedConfig.load .plain palindromicInput = .ok feeds ∧
      PortsFit (localHost true) feeds := ⟨_, rfl, by decide⟩
  obtain ⟨p, h, hsent⟩ : ∃ p, construct (localHost false) .plain palindromicPort = .ok p ∧
      p.receivers.map (fun e => e.2.senderSocketList.map (sentWirePort (localHost false))) =
        [[some 257]] := ⟨_, rfl, rfl⟩
  obtain ⟨p', h', hbound⟩ : ∃ p, construct (localHost true) .plain palindromicInput = .ok p ∧
      p.receivers.map (fun e => boundWirePort (localHost true) e.2) = [some 257] := ⟨_, rfl, rfl⟩
  exact ⟨feeds, feeds', p, p', hload, hload', h, h', hsent, hbound, (configured_ports_on_wire_iff
    (localHost_socket_injective false) (localHost_socket_injective true) hload hload' h h').mpr
    ⟨hfit, hfit'⟩⟩

/-- On a little-endian host a sender configured with 2347 sends to 11017. -/
theorem sender_port_swapped :
    ¬ ∀ host lib tree feeds p, Function.Injective host.socket →
      MddFeedConfig.load lib tree = .ok feeds → construct host lib tree = .ok p →
      PortsOnWire host feeds p := by
  intro hstated
  obtain ⟨feeds, hload, hfit⟩ : ∃ feeds, MddFeedConfig.load .plain twoRoutes = .ok feeds ∧
      ¬ PortsFit (localHost false) feeds := ⟨_, rfl, by decide⟩
  obtain ⟨p, h⟩ : ∃ p, construct (localHost false) .plain twoRoutes = .ok p := ⟨_, rfl⟩
  have hinj := localHost_socket_injective false
  exact hfit ((portsOnWire_iff hinj hload h).mp (hstated _ _ _ _ _ hinj hload h))

end MddProxy
