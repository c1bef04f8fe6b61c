import MddProxy.Config.Routing

/-!
# What the configuration refers to is not checked

`LoadMappedFeeds` skips an id that it does not find and `FillAddr` ignores the answer
of `inet_aton`; of all texts in a configuration only the two interface addresses of a
map are checked. A construction therefore avoids a bad reference only when it throws
for another reason first.
-/
namespace MddProxy

open PropertyTree Collections

variable {host : Host} {rs : List InputAddressT} {ss : List OutputAddressT}

/-- A computation that does not throw: it returns, or it has read through an
unassigned pointer. -/
def DoesNotThrow {α : Type} (x : Except Failure α) : Prop := ∀ e, x = .error e → e = .undefined

theorem doesNotThrow_foldlM_cons {σ β : Type} {f : σ → β → Except Failure σ} {s : σ} {b : β}
    {l : List β} : DoesNotThrow ((b :: l).foldlM f s) ↔
      f s b = .error .undefined ∨ ∃ s', f s b = .ok s' ∧ DoesNotThrow (l.foldlM f s') := by
  rw [List.foldlM_cons]
  cases h : f s b with
  | error e => simp [DoesNotThrow, bind, Except.bind]
  | ok s' => simp [bind, Except.bind]

theorem throwIf_ne_undefined {cond : Prop} [Decidable cond] {exceptionStr : String} :
    throwIf cond exceptionStr ≠ .error .undefined := by
  unfold throwIf
  split <;> simp [throw, throwThe, MonadExceptOf.throw, pure, Except.pure]

theorem addSender_ne_undefined {mappedFeed : InterfaceConfigT} {acc : List SenderSocket × Proxy}
    {output : OutputAddressT} : addSender host mappedFeed acc output ≠ .error .undefined := by
  simp only [addSender, SenderSocket.create, ne_eq, bind_eq_error, throwIf_ne_undefined,
    pure_ne_error, and_false, exists_false, or_self, not_false_eq_true]

theorem ReceiverSocket.create_ne_undefined {n : ℕ} {r : ReceiverSocket} :
    r.create host n ≠ .error .undefined := by
  simp only [ReceiverSocket.create, ne_eq, bind_eq_error, throwIf_ne_undefined, pure_ne_error,
    and_false, exists_false, or_self, not_false_eq_true]

theorem Epoller.registerSocket_ne_undefined {e : Epoller} {n : ℕ} :
    e.registerSocket host n ≠ .error .undefined := by
  simp only [Epoller.registerSocket, ne_eq, bind_eq_error, throwIf_ne_undefined, pure_ne_error,
    and_false, exists_false, or_self, not_false_eq_true]

theorem addReceiver_eq_undefined {mappedFeed : InterfaceConfigT} {p : Proxy}
    {rcvrSenders : ReceiverSendersT} :
    addReceiver host mappedFeed p rcvrSenders = .error .undefined ↔
      (∀ o ∈ rcvrSenders.outputAddresses.zipIdx p.sockets,
        SenderAccepted host mappedFeed o.2 o.1) ∧
      receiverInterface host mappedFeed ≠ INADDR_NONE ∧ rcvrSenders.inputAddress = none := by
  have hfold : rcvrSenders.outputAddresses.foldlM (addSender host mappedFeed) ([], p) ≠
      .error .undefined := foldlM_ne_error fun _ _ => addSender_ne_undefined
  simp only [addReceiver, bind_eq_error, hfold, addSenders_eq_ok, throwIf_eq_ok,
    throwIf_ne_undefined, false_or, exists_const]
  cases hin : rcvrSenders.inputAddress with
  | none => simp [throw, throwThe, MonadExceptOf.throw]
  | some inputAddress =>
    simp only [bind_eq_error, ReceiverSocket.create_ne_undefined,
      Epoller.registerSocket_ne_undefined, pure_ne_error, and_false, exists_false, or_self,
      reduceCtorEq]

structure Loaded (lib : Boost) (tree : PTree) (rs : List InputAddressT)
    (ss : List OutputAddressT) (ms : List MapElement) : Prop where
  receivers : receiverElements lib tree = .ok rs
  senders : senderElements lib tree = .ok ss
  mapping : mapElements lib tree = .ok ms

/-- A mapped receiver whose ids are declared, with addresses that `inet_aton` accepts. -/
structure RouteSound (inetAton : String → Option UInt32) (rs : List InputAddressT)
    (ss : List OutputAddressT) (route : Route) : Prop where
  receiver : ∃ e, firstReceiver rs route.2.id = some e ∧ (inetAton e.address).isSome = true
  senders : ∀ id ∈ route.2.senderIds, ∃ e, firstSender ss id = some e ∧
    (inetAton e.address).isSome = true

/-- Every socket is built for a route and has an address stored. -/
def AddressesStored (host : Host) (rs : List InputAddressT) (ss : List OutputAddressT)
    (ms : List MapElement) (p : Proxy) : Prop :=
  ∀ entry ∈ p.receivers, ∃ route ∈ routes ms, RouteBuilt host rs ss route entry ∧
    entry.2.socketObj.addr.sinAddr.isSome = true ∧
    ∀ s ∈ entry.2.senderSocketList, s.socketObj.addr.sinAddr.isSome = true

/-- On no host with this `inet_aton` does the configuration get through with a bad
reference or address. -/
def BadReferencesRejected (lib : Boost) (tree : PTree) (inetAton : String → Option UInt32) : Prop :=
  ∀ host : Host, host.inetAton = inetAton → DoesNotThrow (construct host lib tree) →
    ∀ rs ss ms, Loaded lib tree rs ss ms →
      (∀ route ∈ routes ms, RouteSound inetAton rs ss route) ∧
      ∀ p, construct host lib tree = .ok p → AddressesStored host rs ss ms p

def NotAnAddress (inetAton : String → Option UInt32) (cp : String) : Prop :=
  (inetAton cp).getD INADDR_NONE = INADDR_NONE

/-- One of the two checks of interface addresses stops the loop at this route. The output
interface is looked at only for a destination that was found. -/
def InterfaceRejected (inetAton : String → Option UInt32) (ss : List OutputAddressT)
    (route : Route) : Prop :=
  (NotAnAddress inetAton route.1.outputInterface ∧ ∃ id ∈ route.2.senderIds, ∃ s ∈ ss, s.id = id) ∨
  (route.1.inputInterface ≠ "0.0.0.0" ∧ NotAnAddress inetAton route.1.inputInterface)

/-- A route whose interface is rejected comes before every mapped receiver without a
declared receiver. -/
def RejectedFirst (inetAton : String → Option UInt32) (rs : List InputAddressT)
    (ss : List OutputAddressT) : List Route → Prop
  | [] => False
  | route :: rest => InterfaceRejected inetAton ss route ∨
      (∃ r ∈ rs, r.id = route.2.id) ∧ RejectedFirst inetAton rs ss rest

variable {inetAton : String → Option UInt32} {route : Route} {p p' : Proxy}

theorem receiverInterface_eq_none (mappedFeed : InterfaceConfigT) :
    receiverInterface host mappedFeed = INADDR_NONE ↔
      mappedFeed.inputInterface ≠ "0.0.0.0" ∧
        NotAnAddress host.inetAton mappedFeed.inputInterface := by
  unfold receiverInterface
  by_cases h : mappedFeed.inputInterface = "0.0.0.0"
  · simp [h, INADDR_ANY, INADDR_NONE]
  · simp [h, NotAnAddress, Host.inetAddr]

/-- An item that is let through, or runs into the unassigned pointer, has no rejected
interface. -/
theorem not_interfaceRejected
    (hsenders : ∀ o ∈ (route.2.resolve rs ss).outputAddresses.zipIdx p.sockets,
      SenderAccepted host (route.1.resolve rs ss) o.2 o.1)
    (hinterface : receiverInterface host (route.1.resolve rs ss) ≠ INADDR_NONE) :
    ¬ InterfaceRejected host.inetAton ss route := by
  rintro (⟨hout, id, hid, hs⟩ | hin)
  · obtain ⟨e, he⟩ := exists_firstSender.mpr hs
    have hmem : e ∈ (route.2.resolve rs ss).outputAddresses :=
      List.mem_filterMap.mpr ⟨id, hid, he⟩
    obtain ⟨i, hi⟩ := List.getElem?_of_mem hmem
    exact (hsenders _ (List.mk_add_mem_zipIdx_iff_getElem?.mpr hi)).1 hout
  · exact hinterface ((receiverInterface_eq_none _).mpr hin)

theorem not_rejectedFirst {todo : List Route}
    (h : DoesNotThrow ((todo.map (resolveRoute rs ss)).foldlM (addItem host) p)) :
    ¬ RejectedFirst host.inetAton rs ss todo := by
  induction todo generalizing p with
  | nil => exact id
  | cons route todo ih =>
    rw [List.map_cons, doesNotThrow_foldlM_cons] at h
    rcases h with hundef | ⟨p', hok, hrest⟩
    · obtain ⟨hsenders, hinterface, hin⟩ := addReceiver_eq_undefined.mp hundef
      rintro (hrej | ⟨hdecl, -⟩)
      · exact not_interfaceRejected hsenders hinterface hrej
      · obtain ⟨e, he⟩ := exists_firstReceiver.mpr hdecl
        exact nomatch hin.symm.trans he
    · obtain ⟨_, hacc, -⟩ := (addReceiver_eq_ok host _).mp hok
      rintro (hrej | ⟨-, hlater⟩)
      · exact not_interfaceRejected hacc.senders hacc.interface hrej
      · exact ih hrest hlater

/-- Every call succeeds, and every interface address of the routes is there and up. -/
def permissive (inetAton : String → Option UInt32) (used : List Route) : Host where
  bigEndian := false
  inetAton := inetAton
  interfaces := used.flatMap fun route =>
    [route.1.outputInterface, route.1.inputInterface].map fun cp =>
      ⟨true, (inetAton cp).getD INADDR_NONE, true⟩
  socket n := n + 3
  bufferSize _ := 0
  succeeds _ _ := true

theorem interfaceUp_of_all_up {a : UInt32}
    (hall : ∀ i ∈ host.interfaces, i.inet = true ∧ i.up = true)
    (ha : ∃ i ∈ host.interfaces, i.addr = a) : host.interfaceUp (some a) = true := by
  obtain ⟨i, hi, rfl⟩ := ha
  unfold Host.interfaceUp
  cases hfind : host.interfaces.find? fun j => j.inet && some j.addr = some i.addr with
  | none =>
    rw [List.find?_eq_none] at hfind
    exact absurd (hfind i hi) (by simp [(hall i hi).1])
  | some j => exact (hall j (List.mem_of_find?_eq_some hfind)).2

theorem interfaceUp_permissive {used : List Route} (hused : route ∈ used) {cp : String}
    (hcp : cp = route.1.outputInterface ∨ cp = route.1.inputInterface) :
    (permissive inetAton used).interfaceUp
      (some ((permissive inetAton used).inetAddr cp)) = true := by
  refine interfaceUp_of_all_up ?_ ⟨⟨true, (inetAton cp).getD INADDR_NONE, true⟩, ?_, rfl⟩
  · intro i hi
    obtain ⟨route', -, hi⟩ := List.mem_flatMap.mp hi
    obtain ⟨cp', -, rfl⟩ := List.mem_map.mp hi
    exact ⟨rfl, rfl⟩
  · refine List.mem_flatMap.mpr ⟨route, hused, List.mem_map.mpr ⟨cp, ?_, rfl⟩⟩
    simpa using hcp

/-- The permissive host stops a route only for a rejected interface. -/
theorem permissive_accepts (rs : List InputAddressT) (p : Proxy) {used : List Route}
    (hused : route ∈ used) (hrej : ¬ InterfaceRejected inetAton ss route) :
    (∀ o ∈ (route.2.resolve rs ss).outputAddresses.zipIdx p.sockets,
      SenderAccepted (permissive inetAton used) (route.1.resolve rs ss) o.2 o.1) ∧
    receiverInterface (permissive inetAton used) (route.1.resolve rs ss) ≠ INADDR_NONE := by
  constructor
  · intro o ho
    refine ⟨fun hout => hrej (.inl ⟨hout, ?_⟩),
      interfaceUp_permissive hused (.inl rfl), rfl, rfl, rfl⟩
    obtain ⟨id, hid, he⟩ := List.mem_filterMap.mp (List.fst_mem_of_mem_zipIdx ho)
    exact ⟨id, hid, exists_firstSender.mp ⟨o.1, he⟩⟩
  · exact fun hin => hrej (.inr ((receiverInterface_eq_none _).mp hin))

theorem permissive_creatable {used : List Route} (hused : route ∈ used) (e : InputAddressT)
    {n : ℕ} : ReceiverSocket.Creatable (permissive inetAton used) n
      (receiverAddr (permissive inetAton used) (route.1.resolve rs ss) e) := by
  refine ⟨?_, rfl, rfl, fun _ => rfl, rfl⟩
  by_cases hany : route.1.inputInterface = "0.0.0.0"
  · left
    simp [receiverAddr, receiverInterface, fillAddr, MapElement.resolve, hany]
  · right
    simp only [receiverAddr, receiverInterface, fillAddr, MapElement.resolve, hany, if_false]
    exact interfaceUp_permissive hused (.inr rfl)

theorem doesNotThrow_permissive {used todo : List Route} (hused : ∀ route ∈ todo, route ∈ used)
    (hrej : ¬ RejectedFirst inetAton rs ss todo) :
    DoesNotThrow ((todo.map (resolveRoute rs ss)).foldlM
      (addItem (permissive inetAton used)) p) := by
  induction todo generalizing p with
  | nil => exact nofun
  | cons route todo ih =>
    obtain ⟨hhead, htail⟩ := List.forall_mem_cons.mp hused
    obtain ⟨hroute, hlater⟩ := not_or.mp hrej
    obtain ⟨hsenders, hinterface⟩ := permissive_accepts rs p hhead hroute
    rw [List.map_cons, doesNotThrow_foldlM_cons]
    cases hin : firstReceiver rs route.2.id with
    | none => exact .inl (addReceiver_eq_undefined.mpr ⟨hsenders, hinterface, hin⟩)
    | some e =>
      have hdecl := exists_firstReceiver.mp ⟨e, hin⟩
      have hacc := (addReceiver_eq_ok _ _).mpr
        ⟨e, ⟨hin, hsenders, hinterface, permissive_creatable hhead e, rfl⟩, rfl⟩
      exact .inr ⟨_, hacc, ih htail fun h => hlater ⟨hdecl, h⟩⟩

theorem addItems_mem {todo : List Item} (h : todo.foldlM (addItem host) p = .ok p') :
    ∀ entry ∈ p'.receivers, entry ∈ p.receivers ∨ ∃ item ∈ todo, ∃ n, Built host n item entry := by
  induction todo generalizing p with
  | nil =>
    obtain rfl := pure_eq_ok.mp h
    exact fun entry hentry => .inl hentry
  | cons item todo ih =>
    rw [List.foldlM_cons, bind_eq_ok] at h
    obtain ⟨p₁, hitem, hrest⟩ := h
    obtain ⟨inputAddress, hacc, rfl⟩ := (addReceiver_eq_ok host item.1).mp hitem
    intro entry hentry
    rcases ih hrest entry hentry with h | ⟨item', hitem', hb⟩
    · simp only [Proxy.withReceiver, receivers_withSenders, sockets_withSenders] at h
      rcases mem_of_mem_insert h with h | rfl
      · exact .inl h
      · exact .inr ⟨item, List.mem_cons_self, p.sockets, inputAddress, hacc.assigned, rfl⟩
    · exact .inr ⟨item', List.mem_cons_of_mem item hitem', hb⟩

theorem RouteSound.addressesStored {entry : Fd × ReceiverSocket}
    (hs : RouteSound host.inetAton rs ss route) (hb : RouteBuilt host rs ss route entry) :
    entry.2.socketObj.addr.sinAddr.isSome = true ∧
      ∀ s ∈ entry.2.senderSocketList, s.socketObj.addr.sinAddr.isSome = true := by
  constructor
  · obtain ⟨e, he, hsome⟩ := hs.receiver
    obtain ⟨e', he', hfrom⟩ := hb.receiver
    obtain rfl := Option.some.inj (he.symm.trans he')
    rw [hfrom.address.sinAddr]
    exact hsome
  · intro s hsmem
    obtain ⟨id, hid, e', he', hfrom⟩ := exists_left_of_forall₂ hb.senders hsmem
    obtain ⟨e, he, hsome⟩ := hs.senders id hid
    obtain rfl := Option.some.inj (he.symm.trans he')
    rw [hfrom.address.sinAddr]
    exact hsome

theorem RouteSound.declared (hs : RouteSound inetAton rs ss route) :
    ∀ id ∈ route.2.senderIds, ∃ s ∈ ss, s.id = id := by
  intro id hid
  obtain ⟨e, he, -⟩ := hs.senders id hid
  exact exists_firstSender.mp ⟨e, he⟩

theorem Loaded.construct {lib : Boost} {tree : PTree} {ms : List MapElement}
    (hl : Loaded lib tree rs ss ms) : construct host lib tree =
      ((routes ms).map (resolveRoute rs ss)).foldlM (addItem host) .empty := by
  rw [construct_of_load (load_of_sections hl.receivers hl.senders hl.mapping), items_resolve]

theorem addressesStored {lib : Boost} {tree : PTree} {ms : List MapElement}
    (hl : Loaded lib tree rs ss ms) (hs : ∀ route ∈ routes ms, RouteSound host.inetAton rs ss route)
    (h : construct host lib tree = .ok p) : AddressesStored host rs ss ms p := by
  rw [hl.construct] at h
  intro entry hentry
  rcases addItems_mem h entry hentry with hmem | ⟨item, hitem, n, hb⟩
  · cases hmem
  · obtain ⟨route, hroute, rfl⟩ := List.mem_map.mp hitem
    have hbuilt := hb.route (hs route hroute).declared
    exact ⟨route, hroute, hbuilt, (hs route hroute).addressesStored hbuilt⟩

/-- **Bad references are rejected** on every host exactly for the configurations that
have none, do not load, or have an interface address that is rejected first. -/
theorem bad_references_rejected_iff (lib : Boost) (tree : PTree)
    (inetAton : String → Option UInt32) : BadReferencesRejected lib tree inetAton ↔
      ∀ rs ss ms, Loaded lib tree rs ss ms →
        (∀ route ∈ routes ms, RouteSound inetAton rs ss route) ∨
        RejectedFirst inetAton rs ss (routes ms) := by
  constructor
  · intro h rs ss ms hl
    by_cases hrej : RejectedFirst inetAton rs ss (routes ms)
    · exact .inr hrej
    · have hdone : DoesNotThrow (construct (permissive inetAton (routes ms)) lib tree) := by
        rw [hl.construct]
        exact doesNotThrow_permissive (fun _ => id) hrej
      exact .inl (h (permissive inetAton (routes ms)) rfl hdone rs ss ms hl).1
  · rintro h host rfl hdone rs ss ms hl
    have hnrej : ¬ RejectedFirst host.inetAton rs ss (routes ms) := by
      rw [hl.construct] at hdone
      exact not_rejectedFirst hdone
    have hs := (h rs ss ms hl).resolve_right hnrej
    exact ⟨hs, fun p hp => addressesStored hl hs hp⟩

def undeclaredSender : PTree :=
  configuration [addressElement "Receiver" "1" "127.0.0.1" "18576"]
    [addressElement "Sender" "101" "127.0.0.1" "2347"] [mappedElement "1" ["101", "102"]]

/-- The construction returns and the destination is missing. -/
theorem undeclared_sender_dropped :
    ¬ ∀ lib tree inetAton, BadReferencesRejected lib tree inetAton := by
  intro hstated
  obtain ⟨p, hp⟩ : ∃ p, construct (localHost false) .plain undeclaredSender = .ok p := ⟨_, rfl⟩
  have hdone : DoesNotThrow (construct (localHost false) .plain undeclaredSender) := by
    rw [hp]
    exact nofun
  have hs := (hstated _ _ _ (localHost false) rfl hdone _ _ _ ⟨rfl, rfl, rfl⟩).1 _
    List.mem_cons_self
  obtain ⟨e, he, -⟩ := hs.senders 102 (by decide)
  have hnone : none = some e := he
  exact nomatch hnone

end MddProxy
