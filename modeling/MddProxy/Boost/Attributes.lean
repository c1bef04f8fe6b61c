import MddProxy.Boost.PropertyTree
import Mathlib.Data.List.Nodup

/-!
# What the attributes of an element say

An attribute that occurs once has one text, whichever of several children under
one key `find` returns. An element says a value under a key when the translator
makes that value of the text; every library then reads it. Numbers are spelled in
decimal.
-/
namespace PropertyTree

variable {α β : Type} {translate : String → Option α} {t : PTree} {key text : String}

def PTree.Only (t : PTree) (key : String) (child : PTree) : Prop :=
  (key, child) ∈ t.children ∧ ∀ other, (key, other) ∈ t.children → other = child

def PTree.Attr (t : PTree) (key text : String) : Prop :=
  ∃ attrs child, t.Only "<xmlattr>" attrs ∧ attrs.Only key child ∧ child.data = text

/-- The value that the text of an attribute stands for. -/
def PTree.Says (translate : String → Option α) (t : PTree) (key : String) (a : α) : Prop :=
  ∃ text, t.Attr key text ∧ translate text = some a

def PTree.Lacks (t : PTree) (key : String) : Prop :=
  ∀ attrs child, ("<xmlattr>", attrs) ∈ t.children → (key, child) ∉ attrs.children

/-- An optional attribute: the default stands for an absent or unreadable text. -/
def PTree.SaysOr (translate : String → Option α) (t : PTree) (key : String) (default a : α) :
    Prop :=
  t.Says translate key a ∨
    (t.Lacks key ∨ ∃ text, t.Attr key text ∧ translate text = none) ∧ a = default

theorem PTree.Attr.means (h : t.Attr key text) {a : α} (ha : translate text = some a) :
    t.Says translate key a :=
  ⟨text, h, ha⟩

section Reading

variable (lib : Boost)

theorem PTree.Only.getChildOptional {child : PTree} (h : t.Only key child) (path : List String) :
    lib.getChildOptional t (key :: path) = lib.getChildOptional child path := by
  simp [Boost.getChildOptional, lib.find_eq_of_unique h.1 h.2]

theorem PTree.Only.getChild {child : PTree} (h : t.Only key child) :
    lib.getChild t [key] = .ok child := by
  have hfound := h.getChildOptional lib []
  simp only [Boost.getChild, hfound]
  rfl

theorem PTree.Attr.getChildOptional (h : t.Attr key text) :
    ∃ child : PTree, lib.getChildOptional t ["<xmlattr>", key] = some child ∧ child.data = text := by
  obtain ⟨attrs, child, hattrs, hchild, hdata⟩ := h
  refine ⟨child, ?_, hdata⟩
  rw [hattrs.getChildOptional, hchild.getChildOptional, Boost.getChildOptional]

theorem PTree.Says.get {a : α} (h : t.Says translate key a) :
    lib.get translate t ["<xmlattr>", key] = .ok a := by
  obtain ⟨text, hattr, ha⟩ := h
  obtain ⟨child, hchild, hdata⟩ := hattr.getChildOptional lib
  simp only [Boost.get, Boost.getChild, hchild, pure_bind, hdata, ha]
  rfl

theorem PTree.Attr.getString (h : t.Attr key text) :
    lib.getString t ["<xmlattr>", key] = .ok text :=
  PTree.Says.get lib (h.means rfl)

theorem PTree.Attr.getD (h : t.Attr key text) (default : α) :
    lib.getD translate t ["<xmlattr>", key] default = (translate text).getD default := by
  obtain ⟨child, hchild, hdata⟩ := h.getChildOptional lib
  simp [Boost.getD, Boost.getOptional, hchild, hdata]

theorem PTree.Lacks.getD (h : t.Lacks key) (default : α) :
    lib.getD translate t ["<xmlattr>", key] default = default := by
  have hnone : lib.getChildOptional t ["<xmlattr>", key] = none := by
    cases hattrs : lib.find t.children "<xmlattr>" with
    | none => simp [Boost.getChildOptional, hattrs]
    | some attrs =>
      cases hchild : lib.find attrs.children key with
      | none => simp [Boost.getChildOptional, hattrs, hchild]
      | some child => exact absurd (lib.find_mem hchild) (h attrs child (lib.find_mem hattrs))
  simp [Boost.getD, Boost.getOptional, hnone]

theorem PTree.SaysOr.getD {default a : α} (h : t.SaysOr translate key default a) :
    lib.getD translate t ["<xmlattr>", key] default = a := by
  rcases h with ⟨text, hattr, ha⟩ | ⟨hlacks | ⟨text, hattr, hnone⟩, rfl⟩
  · rw [hattr.getD, ha, Option.getD_some]
  · exact hlacks.getD lib _
  · rw [hattr.getD, hnone, Option.getD_none]

end Reading

theorem PTree.element_only (attrs : List (String × String)) {children : List (String × PTree)}
    (hchildren : ∀ child ∈ children, child.1 ≠ "<xmlattr>") :
    (PTree.element attrs children).Only "<xmlattr>"
      (.node "" (attrs.map fun a => (a.1, .node a.2 []))) := by
  constructor
  · exact List.mem_cons_self
  · intro other hother
    rcases List.mem_cons.mp hother with heq | hmem
    · exact (Prod.mk.inj heq).2
    · exact absurd rfl (hchildren _ hmem)

theorem PTree.element_attr {attrs : List (String × String)} {children : List (String × PTree)}
    (hchildren : ∀ child ∈ children, child.1 ≠ "<xmlattr>")
    (hnames : (attrs.map Prod.fst).Nodup) (hmem : (key, text) ∈ attrs) :
    (PTree.element attrs children).Attr key text := by
  refine ⟨_, .node text [], PTree.element_only attrs hchildren, ⟨?_, ?_⟩, rfl⟩
  · exact List.mem_map.mpr ⟨(key, text), hmem, rfl⟩
  · intro other hother
    obtain ⟨⟨key', text'⟩, hmem', heq⟩ := List.mem_map.mp hother
    obtain ⟨rfl, rfl⟩ := Prod.mk.inj heq
    have hsame : (key', text') = (key', text) := List.inj_on_of_nodup_map hnames hmem' hmem rfl
    rw [(Prod.mk.inj hsame).2]

theorem PTree.tagged_map (data : String) (l : List β) (f : β → PTree) :
    (PTree.node data (l.map fun b => (key, f b))).tagged key = l.map f := by
  simp [PTree.tagged, PTree.children, List.filter_map, Function.comp_def]

theorem PTree.tagged_element (attrs : List (String × String)) (children : List (String × PTree))
    (hkey : key ≠ "<xmlattr>") :
    (PTree.element attrs children).tagged key = (PTree.node "" children).tagged key := by
  simp [PTree.tagged, PTree.element, PTree.children, hkey.symm]

theorem decimal_repr (n : ℕ) : decimal n.repr = some n := by
  have hne : n.repr.toList ≠ [] := by
    rw [Nat.toList_repr]
    exact Nat.toDigits_ne_nil
  have hdigits : n.repr.toList.all Char.isDigit = true := by
    rw [Nat.toList_repr, List.all_eq_true]
    intro c hc
    exact Nat.isDigit_of_mem_toDigits (by decide) (by decide) hc
  have hvalue : n.repr.toList.foldl (fun m c => 10 * m + (c.toNat - '0'.toNat)) 0 = n := by
    rw [Nat.toList_repr, ← Nat.ofDigitChars_eq_foldl]
    exact Nat.ofDigitChars_ten_toDigits
  rw [decimal, if_pos ⟨hne, hdigits⟩, hvalue]

theorem Boost.plain_uint32 (n : UInt32) : Boost.plain.uint32 n.toNat.repr = some n := by
  have hn : n.toNat < UInt32.size := n.toNat_lt
  simp [Boost.plain, decimal_repr, hn]

end PropertyTree
