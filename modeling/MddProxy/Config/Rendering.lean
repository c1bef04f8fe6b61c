import MddProxy.Boost.Attributes
import MddProxy.Config.Elements

/-!
# Writing a configuration down

The file format read backwards: a tree says a configuration when its elements say
the receivers, senders and maps in document order, in any attribute order and with
anything else between them. Loading such a tree gives what the configuration means,
and every configuration has a rendering that says it.
-/
namespace MddProxy

open PropertyTree Collections

structure Configuration where
  receivers : List InputAddressT
  senders : List OutputAddressT
  maps : List MapElement
  deriving DecidableEq, Repr

def Configuration.feeds (c : Configuration) : List InterfaceConfigT :=
  c.maps.map (MapElement.resolve c.receivers c.senders)

section Format

variable (lib : Boost)

/-- A `Receiver` element: every attribute is required. -/
structure ReceiverWritten (t : PTree) (r : InputAddressT) : Prop where
  name : t.Attr "name" r.feedName
  id : t.Says lib.uint32 "id" r.id
  ip : t.Attr "ip" r.address
  port : t.Says lib.uint32 "port" r.port
  bcastType : ∃ text, t.Attr "type" text ∧ MddFeedConfig.broadcastOf text = r.broadcastType
  protocol : ∃ text, t.Attr "protocol" text ∧ MddFeedConfig.protocolOf text = r.protocol

/-- A `Sender` element: `isLoopback` is optional. -/
structure SenderWritten (t : PTree) (s : OutputAddressT) : Prop where
  id : t.Says lib.uint32 "id" s.id
  ip : t.Attr "ip" s.address
  port : t.Says lib.uint32 "port" s.port
  isLoopBack : t.SaysOr lib.bool "isLoopback" false s.isLoopBack
  bcastType : ∃ text, t.Attr "type" text ∧ MddFeedConfig.broadcastOf text = s.broadcastType
  protocol : ∃ text, t.Attr "protocol" text ∧ MddFeedConfig.protocolOf text = s.protocol

def IdWritten (t : PTree) (id : UInt32) : Prop := t.Says lib.uint32 "id" id

structure MappedWritten (t : PTree) (m : MappedReceiver) : Prop where
  id : IdWritten lib t m.id
  senderIds : List.Forall₂ (IdWritten lib) (t.tagged "MappedSender") m.senderIds

structure MapWritten (t : PTree) (m : MapElement) : Prop where
  inputInterface : t.Attr "inputInterface" m.inputInterface
  outputInterface : t.Attr "outputInterface" m.outputInterface
  mapped : List.Forall₂ (MappedWritten lib) (t.tagged "MappedReceiver") m.mapped

/-- A section that occurs once, with its elements in document order. -/
def SectionWritten {α : Type} (element : PTree → α → Prop) (heading key : String) (tree : PTree)
    (as : List α) : Prop :=
  ∃ t, tree.Only heading t ∧ List.Forall₂ element (t.tagged key) as

structure Written (tree : PTree) (c : Configuration) : Prop where
  receivers : SectionWritten (ReceiverWritten lib) "Receivers" "Receiver" tree c.receivers
  senders : SectionWritten (SenderWritten lib) "Senders" "Sender" tree c.senders
  maps : SectionWritten (MapWritten lib) "Mapping" "Map" tree c.maps

theorem ReceiverWritten.read {lib : Boost} {t : PTree} {r : InputAddressT}
    (h : ReceiverWritten lib t r) : MddFeedConfig.readReceiver lib t = .ok r := by
  obtain ⟨bcastType, hbcast, hbroadcast⟩ := h.bcastType
  obtain ⟨protocol, hproto, hprotocol⟩ := h.protocol
  simp only [MddFeedConfig.readReceiver, h.name.getString lib, h.id.get lib, h.ip.getString lib,
    h.port.get lib, hbcast.getString lib, hproto.getString lib]
  change Except.ok _ = Except.ok r
  rw [hbroadcast, hprotocol]

theorem SenderWritten.read {lib : Boost} {t : PTree} {s : OutputAddressT}
    (h : SenderWritten lib t s) : MddFeedConfig.readSender lib t = .ok s := by
  obtain ⟨bcastType, hbcast, hbroadcast⟩ := h.bcastType
  obtain ⟨protocol, hproto, hprotocol⟩ := h.protocol
  simp only [MddFeedConfig.readSender, h.id.get lib, h.ip.getString lib, h.port.get lib,
    h.isLoopBack.getD lib, hbcast.getString lib, hproto.getString lib]
  change Except.ok _ = Except.ok s
  rw [hbroadcast, hprotocol]

theorem MappedWritten.read {lib : Boost} {t : PTree} {m : MappedReceiver}
    (h : MappedWritten lib t m) : mappedReceiver lib t = .ok m := by
  have hid : mappedId lib t = .ok m.id := h.id.get lib
  have hsenders := mapM_of_forall₂ (f := mappedId lib) (fun _ _ hw => hw.get lib) h.senderIds
  rw [mappedReceiver, hid, hsenders]
  rfl

theorem MapWritten.read {lib : Boost} {t : PTree} {m : MapElement} (h : MapWritten lib t m) :
    mapElement lib t = .ok m := by
  have hmapped := mapM_of_forall₂ (fun _ _ hw => MappedWritten.read hw) h.mapped
  simp only [mapElement, h.inputInterface.getString lib, h.outputInterface.getString lib, hmapped]
  rfl

theorem SectionWritten.read {α : Type} {element : PTree → α → Prop} {heading key : String}
    {tree : PTree} {as : List α} {f : PTree → Except PTreeError α}
    (hf : ∀ t a, element t a → f t = .ok a) (h : SectionWritten element heading key tree as) :
    (do let elements ← lib.getChild tree [heading]; (elements.tagged key).mapM f) = .ok as := by
  obtain ⟨t, honly, helements⟩ := h
  rw [honly.getChild lib]
  exact mapM_of_forall₂ hf helements

def readConfiguration (tree : PTree) : Except PTreeError Configuration := do
  let receivers ← receiverElements lib tree
  let senders ← senderElements lib tree
  let maps ← mapElements lib tree
  pure { receivers, senders, maps }

theorem load_eq_feeds (tree : PTree) :
    MddFeedConfig.load lib tree = Configuration.feeds <$> readConfiguration lib tree := by
  simp only [MddFeedConfig.load_eq, readConfiguration, map_bind, map_pure, Configuration.feeds]

theorem Written.read {lib : Boost} {tree : PTree} {c : Configuration} (h : Written lib tree c) :
    readConfiguration lib tree = .ok c := by
  have hreceivers : receiverElements lib tree = .ok c.receivers :=
    h.receivers.read lib fun _ _ => ReceiverWritten.read
  have hsenders : senderElements lib tree = .ok c.senders :=
    h.senders.read lib fun _ _ => SenderWritten.read
  have hmaps : mapElements lib tree = .ok c.maps := h.maps.read lib fun _ _ => MapWritten.read
  rw [readConfiguration, hreceivers, hsenders, hmaps]
  rfl

theorem Written.load {lib : Boost} {tree : PTree} {c : Configuration} (h : Written lib tree c) :
    MddFeedConfig.load lib tree = .ok c.feeds := by
  rw [load_eq_feeds, h.read]
  rfl

end Format

structure Spelling where
  number : UInt32 → String
  flag : Bool → String

def Spelling.ReadBy (sp : Spelling) (lib : Boost) : Prop :=
  (∀ n, lib.uint32 (sp.number n) = some n) ∧ ∀ b, lib.bool (sp.flag b) = some b

def typeText : BroadcastT → String
  | .unicast => "Unicast"
  | .multicast => "Multicast"

def protocolText : ProtocolT → String
  | .udp => "UDP"
  | .tcp => "TCP"

theorem broadcastOf_typeText (b : BroadcastT) : MddFeedConfig.broadcastOf (typeText b) = b := by
  cases b <;> decide

theorem protocolOf_protocolText (p : ProtocolT) :
    MddFeedConfig.protocolOf (protocolText p) = p := by
  cases p <;> decide

section Render

variable (sp : Spelling)

def renderReceiver (r : InputAddressT) : PTree :=
  .element [("name", r.feedName), ("id", sp.number r.id), ("protocol", protocolText r.protocol),
    ("type", typeText r.broadcastType), ("ip", r.address), ("port", sp.number r.port)] []

def renderSender (s : OutputAddressT) : PTree :=
  .element [("id", sp.number s.id), ("protocol", protocolText s.protocol),
    ("type", typeText s.broadcastType), ("ip", s.address), ("port", sp.number s.port),
    ("isLoopback", sp.flag s.isLoopBack)] []

def renderId (id : UInt32) : PTree := .element [("id", sp.number id)] []

def renderMapped (m : MappedReceiver) : PTree :=
  .element [("id", sp.number m.id)] (m.senderIds.map fun id => ("MappedSender", renderId sp id))

def renderMap (m : MapElement) : PTree :=
  .element [("inputInterface", m.inputInterface), ("outputInterface", m.outputInterface)]
    (m.mapped.map fun r => ("MappedReceiver", renderMapped sp r))

def renderSection {α : Type} (key : String) (element : α → PTree) (as : List α) : PTree :=
  .node "" (as.map fun a => (key, element a))

def render (c : Configuration) : PTree :=
  .node "" [("Receivers", renderSection "Receiver" (renderReceiver sp) c.receivers),
    ("Senders", renderSection "Sender" (renderSender sp) c.senders),
    ("Mapping", renderSection "Map" (renderMap sp) c.maps)]

end Render

section Rendered

variable {lib : Boost} {sp : Spelling}

theorem renderReceiver_written (hsp : sp.ReadBy lib) (r : InputAddressT) :
    ReceiverWritten lib (renderReceiver sp r) r := by
  have hattr : ∀ {key text}, (key, text) ∈ [("name", r.feedName), ("id", sp.number r.id),
      ("protocol", protocolText r.protocol), ("type", typeText r.broadcastType),
      ("ip", r.address), ("port", sp.number r.port)] → (renderReceiver sp r).Attr key text :=
    PTree.element_attr (by simp) (by simp)
  constructor
  · exact hattr (by simp)
  · exact (hattr (by simp)).means (hsp.1 r.id)
  · exact hattr (by simp)
  · exact (hattr (by simp)).means (hsp.1 r.port)
  · exact ⟨_, hattr (by simp), broadcastOf_typeText r.broadcastType⟩
  · exact ⟨_, hattr (by simp), protocolOf_protocolText r.protocol⟩

theorem renderSender_written (hsp : sp.ReadBy lib) (s : OutputAddressT) :
    SenderWritten lib (renderSender sp s) s := by
  have hattr : ∀ {key text}, (key, text) ∈ [("id", sp.number s.id),
      ("protocol", protocolText s.protocol), ("type", typeText s.broadcastType),
      ("ip", s.address), ("port", sp.number s.port), ("isLoopback", sp.flag s.isLoopBack)] →
      (renderSender sp s).Attr key text :=
    PTree.element_attr (by simp) (by simp)
  constructor
  · exact (hattr (by simp)).means (hsp.1 s.id)
  · exact hattr (by simp)
  · exact (hattr (by simp)).means (hsp.1 s.port)
  · exact .inl ((hattr (by simp)).means (hsp.2 s.isLoopBack))
  · exact ⟨_, hattr (by simp), broadcastOf_typeText s.broadcastType⟩
  · exact ⟨_, hattr (by simp), protocolOf_protocolText s.protocol⟩

theorem renderId_written (hsp : sp.ReadBy lib) (id : UInt32) :
    IdWritten lib (renderId sp id) id := by
  have hattr : (renderId sp id).Attr "id" (sp.number id) :=
    PTree.element_attr (by simp) (by simp) (by simp)
  exact hattr.means (hsp.1 id)

theorem rendered_forall₂ {α : Type} {element : PTree → α → Prop} {f : α → PTree} {key : String}
    {t : PTree} {as : List α} (htagged : t.tagged key = as.map f) (hf : ∀ a, element (f a) a) :
    List.Forall₂ element (t.tagged key) as := by
  rw [htagged]
  clear htagged
  induction as with
  | nil => exact .nil
  | cons a as ih => exact .cons (hf a) ih

theorem renderMapped_written (hsp : sp.ReadBy lib) (m : MappedReceiver) :
    MappedWritten lib (renderMapped sp m) m := by
  constructor
  · have hattr : (renderMapped sp m).Attr "id" (sp.number m.id) :=
      PTree.element_attr (by simp) (by simp) (by simp)
    exact hattr.means (hsp.1 m.id)
  · have htagged : (renderMapped sp m).tagged "MappedSender" = m.senderIds.map (renderId sp) := by
      rw [renderMapped, PTree.tagged_element _ _ (by decide), PTree.tagged_map]
    exact rendered_forall₂ htagged (renderId_written hsp)

theorem renderMap_written (hsp : sp.ReadBy lib) (m : MapElement) :
    MapWritten lib (renderMap sp m) m := by
  have hattr : ∀ {key text}, (key, text) ∈ [("inputInterface", m.inputInterface),
      ("outputInterface", m.outputInterface)] → (renderMap sp m).Attr key text :=
    PTree.element_attr (by simp) (by simp)
  constructor
  · exact hattr (by simp)
  · exact hattr (by simp)
  · have htagged : (renderMap sp m).tagged "MappedReceiver" = m.mapped.map (renderMapped sp) := by
      rw [renderMap, PTree.tagged_element _ _ (by decide), PTree.tagged_map]
    exact rendered_forall₂ htagged (renderMapped_written hsp)

theorem renderSection_written {α : Type} {element : PTree → α → Prop} {f : α → PTree}
    {heading key : String} {tree : PTree} {as : List α}
    (honly : tree.Only heading (renderSection key f as)) (hf : ∀ a, element (f a) a) :
    SectionWritten element heading key tree as :=
  ⟨renderSection key f as, honly, rendered_forall₂ (PTree.tagged_map "" as f) hf⟩

theorem render_written (hsp : sp.ReadBy lib) (c : Configuration) :
    Written lib (render sp c) c := by
  constructor
  · exact renderSection_written (by simp [PTree.Only, render, PTree.children])
      (renderReceiver_written hsp)
  · exact renderSection_written (by simp [PTree.Only, render, PTree.children])
      (renderSender_written hsp)
  · exact renderSection_written (by simp [PTree.Only, render, PTree.children])
      (renderMap_written hsp)

end Rendered

/-- **The configuration format round-trips.** A rendered configuration says it; a tree
that says a configuration says no other and loads to what it means; and whatever loads
was the meaning of a configuration that could be rendered and loaded again. -/
theorem configuration_round_trip (lib : Boost) (sp : Spelling) (hsp : sp.ReadBy lib) :
    (∀ c, Written lib (render sp c) c) ∧
    (∀ tree c, Written lib tree c →
      MddFeedConfig.load lib tree = .ok c.feeds ∧ ∀ c', Written lib tree c' → c' = c) ∧
    ∀ tree feeds, MddFeedConfig.load lib tree = .ok feeds →
      ∃ c : Configuration, c.feeds = feeds ∧ MddFeedConfig.load lib (render sp c) = .ok feeds := by
  refine ⟨render_written hsp, ?_, ?_⟩
  · intro tree c hc
    refine ⟨hc.load, ?_⟩
    intro c' hc'
    have hsame : (.ok c' : Except PTreeError Configuration) = .ok c :=
      hc'.read.symm.trans hc.read
    exact Except.ok.inj hsame
  · intro tree feeds hload
    rw [load_eq_feeds] at hload
    cases hread : readConfiguration lib tree with
    | error e =>
      rw [hread] at hload
      cases hload
    | ok c =>
      have hfeeds : c.feeds = feeds := by
        rw [hread] at hload
        exact Except.ok.inj hload
      refine ⟨c, hfeeds, ?_⟩
      rw [(render_written hsp c).load, hfeeds]

def plainSpelling : Spelling where
  number n := n.toNat.repr
  flag b := if b = true then "true" else "false"

theorem configuration_round_trip_plain :
    plainSpelling.ReadBy Boost.plain ∧ ∀ tree feeds,
      MddFeedConfig.load Boost.plain tree = .ok feeds → ∃ c : Configuration, c.feeds = feeds ∧
        MddFeedConfig.load Boost.plain (render plainSpelling c) = .ok feeds := by
  have hsp : plainSpelling.ReadBy Boost.plain := by
    constructor
    · exact Boost.plain_uint32
    · intro b
      cases b <;> decide
  exact ⟨hsp, (configuration_round_trip Boost.plain plainSpelling hsp).2.2⟩

end MddProxy
