import MddProxy.Config.Routing

/-!
# Sender options follow the configuration

What a `Sender` element says about its destination has to reach the socket that is created
for each reference to the element: the address, the kind of socket and of destination, and
whether multicast is looped back. `EnableLoopback` is not called on the way.
-/
namespace MddProxy

open PropertyTree Collections

structure OptionsFollow (host : Host) (e : OutputAddressT) (s : SenderSocket) : Prop where
  address : ∃ a, host.inetAton e.address = some a ∧ s.socketObj.addr.sinAddr = some a
  protocol : s.socketObj.protocol =
    some (match e.protocol with | .udp => .dgram | .tcp => .stream)
  type : s.socketObj.type = some e.broadcastType
  loopback : s.options.map (·.multicastLoop) = some (if e.isLoopBack then 1 else 0)

/-- The elements that a route refers to, in document order. -/
def referenced (ss : List OutputAddressT) (route : Route) : List OutputAddressT :=
  route.2.senderIds.filterMap (firstSender ss)

/-- `R` holds between each element referred to and the socket created for the reference. -/
def ForReferences (R : OutputAddressT → SenderSocket → Prop) (ss : List OutputAddressT)
    (ms : List MapElement) (p : Proxy) : Prop :=
  List.Forall₂ (fun route entry =>
    List.Forall₂ R (referenced ss route) entry.2.senderSocketList) (routes ms) p.receivers

variable {host : Host} {p : Proxy} {n : ℕ} {ss : List OutputAddressT}
  {ms : List MapElement} {lib : Boost} {tree : PTree}

theorem ForReferences.mono {R S : OutputAddressT → SenderSocket → Prop}
    (h : ForReferences R ss ms p) (himp : ∀ e s, R e s → S e s) : ForReferences S ss ms p := by
  refine List.Forall₂.imp ?_ h
  intro route entry hsenders
  exact hsenders.imp himp

def SenderSocket.enableLoopback (s : SenderSocket) : SenderSocket :=
  { s with isLoopBackEnabled := true }

def SenderSocket.disableLoopback (s : SenderSocket) : SenderSocket :=
  { s with isLoopBackEnabled := false }

theorem SenderSocket.create_loopback {s s' : SenderSocket} (h : s.create host n = .ok s') :
    s'.options.map (·.multicastLoop) = some (if s.isLoopBackEnabled then 1 else 0) := by
  rw [(SenderSocket.create_eq_ok.mp h).2]
  rfl

theorem SenderSocket.create_switched {s s' : SenderSocket} :
    (s.enableLoopback.create host n = .ok s' →
      s'.options.map (·.multicastLoop) = some 1) ∧
    (s.disableLoopback.create host n = .ok s' →
      s'.options.map (·.multicastLoop) = some 0) :=
  ⟨create_loopback, create_loopback⟩

section
variable (mappedFeed : InterfaceConfigT) (output : OutputAddressT)

theorem sinAddr_builtSender :
    (builtSender host mappedFeed n output).socketObj.addr.sinAddr =
      host.inetAton output.address := Option.or_none

theorem loopback_builtSender :
    (builtSender host mappedFeed n output).options.map (·.multicastLoop) = some 0 := rfl

theorem optionsFollow_builtSender :
    OptionsFollow host output (builtSender host mappedFeed n output) ↔
      (host.inetAton output.address).isSome ∧ output.isLoopBack = false := by
  constructor
  · rintro ⟨⟨a, ha, -⟩, -, -, hloop⟩
    rw [loopback_builtSender] at hloop
    refine ⟨by rw [ha]; rfl, ?_⟩
    cases hback : output.isLoopBack with
    | false => rfl
    | true => simp [hback] at hloop
  · rintro ⟨haddr, hback⟩
    obtain ⟨a, ha⟩ := Option.isSome_iff_exists.mp haddr
    refine ⟨⟨a, ha, ?_⟩, rfl, rfl, ?_⟩
    · rw [sinAddr_builtSender, ha]
    · rw [loopback_builtSender, hback]
      rfl

end

theorem builtSenders_forall₂ (mappedFeed : InterfaceConfigT) (outputs : List OutputAddressT) :
    List.Forall₂ (fun output s => ∃ k, s = builtSender host mappedFeed k output) outputs
      (builtSenders host mappedFeed n outputs) := by
  induction outputs generalizing n with
  | nil => exact .nil
  | cons output outputs ih => exact .cons ⟨n, rfl⟩ ih

/-- Each reference to a `Sender` element has a socket of its own, built from that element. -/
theorem references_built (hinj : Function.Injective host.socket)
    (hss : senderElements lib tree = .ok ss) (hms : mapElements lib tree = .ok ms)
    (h : construct host lib tree = .ok p) :
    ForReferences (fun e s => ∃ mappedFeed k, s = builtSender host mappedFeed k e) ss ms p := by
  obtain ⟨feeds, hload, -⟩ := construct_eq_ok h
  rw [MddFeedConfig.load_eq] at hload
  obtain ⟨rs, hrs, -⟩ := bind_eq_ok.mp hload
  have hall := (construct_built hinj (load_of_sections hrs hss hms) h).2
  rw [items_resolve, List.forall₂_map_left_iff] at hall
  refine hall.imp ?_
  rintro route entry ⟨n, inputAddress, -, rfl⟩
  refine (builtSenders_forall₂ (n := n) (route.1.resolve rs ss) (referenced ss route)).imp ?_
  rintro output s ⟨k, hs⟩
  exact ⟨_, k, hs⟩

/-- **Sender options**: the socket created for a reference does what the `Sender` element says
exactly when the element has a readable address and does not ask for a loopback, whatever the
other elements say. -/
theorem sender_options_iff (hinj : Function.Injective host.socket)
    (hss : senderElements lib tree = .ok ss) (hms : mapElements lib tree = .ok ms)
    (h : construct host lib tree = .ok p) :
    ForReferences (fun e s => OptionsFollow host e s ↔
      (host.inetAton e.address).isSome ∧ e.isLoopBack = false) ss ms p := by
  apply (references_built hinj hss hms h).mono
  rintro e s ⟨mappedFeed, k, rfl⟩
  exact optionsFollow_builtSender mappedFeed e

/-- `Sender` 101 asks for a loopback and 102 does not. -/
def loopbackRoute : PTree :=
  configuration [addressElement "Receiver" "1" "127.0.0.1" "18576"]
    [("Sender", .element [("id", "101"), ("protocol", "UDP"), ("type", "Multicast"),
        ("isLoopback", "true"), ("ip", "127.0.0.1"), ("port", "2347")] []),
      addressElement "Sender" "102" "127.0.0.1" "2348"]
    [mappedElement "1" ["101", "102"]]

theorem sender_options_mixed : ∃ ss ms p,
    construct (localHost false) .plain loopbackRoute = .ok p ∧
    (routes ms).map (fun route => (referenced ss route).map (·.isLoopBack)) = [[true, false]] ∧
    ForReferences (fun e s => OptionsFollow (localHost false) e s ↔
      ((localHost false).inetAton e.address).isSome ∧ e.isLoopBack = false) ss ms p := by
  have hinj := localHost_socket_injective false
  obtain ⟨p, hp⟩ : ∃ p, construct (localHost false) .plain loopbackRoute = .ok p := ⟨_, rfl⟩
  exact ⟨_, _, p, hp, rfl, sender_options_iff hinj rfl rfl hp⟩

theorem loopback_not_set : ¬ ∀ ss ms p,
    senderElements .plain loopbackRoute = .ok ss → mapElements .plain loopbackRoute = .ok ms →
    construct (localHost false) .plain loopbackRoute = .ok p →
      ForReferences (OptionsFollow (localHost false)) ss ms p := by
  intro hstated
  have hall := hstated _ _ _ rfl rfl rfl
  cases hall with
  | cons hroute _ =>
    cases hroute with
    | cons hfirst _ => exact absurd hfirst.loopback (by decide)

end MddProxy
