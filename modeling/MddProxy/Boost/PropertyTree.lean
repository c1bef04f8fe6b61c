import MddProxy.Boost.Collections

/-!
# Property trees

The part of Boost.PropertyTree that readers of configurations and commands rely
on: a node has a text and an ordered list of children under possibly repeated
keys; a path is resolved one key at a time; a text is turned into a value by a
translator. Which of several children under one key `find` returns and what the
translators accept is left to the library, with what its documentation promises.
-/
namespace PropertyTree

inductive PTree where
  | node (data : String) (children : List (String × PTree))

def PTree.data : PTree → String
  | .node data _ => data

def PTree.children : PTree → List (String × PTree)
  | .node _ children => children

/-- The children of a node under one key, in document order. -/
def PTree.tagged (t : PTree) (key : String) : List PTree :=
  (t.children.filter fun child => child.1 = key).map Prod.snd

/-- An element with attributes, as `read_xml` represents it. -/
def PTree.element (attrs : List (String × String)) (children : List (String × PTree)) : PTree :=
  .node "" (("<xmlattr>", .node "" (attrs.map fun a => (a.1, .node a.2 []))) :: children)

theorem PTree.foldlM_tagged {ε β σ : Type} (t : PTree) (key : String) (f : PTree → Except ε β)
    (g : σ → β → σ) (acc : σ) :
    t.children.foldlM (fun acc child =>
      if child.1 = key then do let b ← f child.2; pure (g acc b) else pure acc) acc =
      (fun bs => List.foldl g acc bs) <$> (t.tagged key).mapM f := by
  have h := Collections.foldlM_collect (fun child : String × PTree => decide (child.1 = key))
    (fun child => f child.2) g t.children acc
  simp only [decide_eq_true_eq] at h
  simp only [bind_pure_comp]
  rw [h, PTree.tagged, List.mapM_map]
  rfl

theorem PTree.foldlM_push {ε β : Type} (t : PTree) (key : String) (f : PTree → Except ε β) :
    t.children.foldlM (fun acc child =>
      if child.1 = key then do let b ← f child.2; pure (acc ++ [b]) else pure acc) [] =
      (t.tagged key).mapM f := by
  rw [PTree.foldlM_tagged t key f fun acc b => acc ++ [b]]
  simp only [Collections.foldl_push, List.nil_append, id_map']

inductive PTreeError where
  | badPath (path : List String)
  | badData (data : String)
  deriving DecidableEq, Repr

structure Boost where
  find : List (String × PTree) → String → Option PTree
  find_mem : ∀ {children key t}, find children key = some t → (key, t) ∈ children
  find_isSome : ∀ {children key t}, (key, t) ∈ children → (find children key).isSome = true
  uint8 : String → Option UInt8
  uint16 : String → Option UInt16
  uint32 : String → Option UInt32
  bool : String → Option Bool

namespace Boost

variable (lib : Boost) {α : Type} (translate : String → Option α)

/-- `get_child_optional`; the empty path is the node itself. -/
def getChildOptional : PTree → List String → Option PTree
  | t, [] => some t
  | t, key :: path => (lib.find t.children key).bind fun child => getChildOptional child path

def getChild (t : PTree) (path : List String) : Except PTreeError PTree :=
  match lib.getChildOptional t path with
  | some child => pure child
  | none => throw (.badPath path)

def get (t : PTree) (path : List String) : Except PTreeError α := do
  let child ← lib.getChild t path
  match translate child.data with
  | some a => pure a
  | none => throw (.badData child.data)

def getString (t : PTree) (path : List String) : Except PTreeError String := lib.get some t path

def getOptional (t : PTree) (path : List String) : Option α :=
  (lib.getChildOptional t path).bind fun child => translate child.data

def getD (t : PTree) (path : List String) (default : α) : α :=
  (lib.getOptional translate t path).getD default

theorem find_eq_of_unique {children : List (String × PTree)} {key : String} {t : PTree}
    (hmem : (key, t) ∈ children) (hunique : ∀ t', (key, t') ∈ children → t' = t) :
    lib.find children key = some t := by
  obtain ⟨t', ht'⟩ := Option.isSome_iff_exists.mp (lib.find_isSome hmem)
  rw [ht', hunique t' (lib.find_mem ht')]

theorem getChildOptional_single {data key : String} {t : PTree} {children : List (String × PTree)}
    (hmem : (key, t) ∈ children) (hunique : ∀ t', (key, t') ∈ children → t' = t) :
    lib.getChildOptional (.node data children) [key] = some t := by
  simp [getChildOptional, PTree.children, lib.find_eq_of_unique hmem hunique]

end Boost

/-- A run of decimal digits, as the stream extractors read them. -/
def decimal (s : String) : Option ℕ :=
  if s.toList ≠ [] ∧ s.toList.all Char.isDigit = true then
    some (s.toList.foldl (fun n c => 10 * n + (c.toNat - '0'.toNat)) 0)
  else none

/-- A library that returns the first child and reads plain decimal numbers. -/
def Boost.plain : Boost where
  find children key := (children.find? fun c => c.1 = key).map Prod.snd
  find_mem := by
    intro children key t h
    obtain ⟨⟨key', t'⟩, hc, rfl⟩ := Option.map_eq_some_iff.mp h
    obtain rfl : key' = key := by simpa using List.find?_some hc
    exact List.mem_of_find?_eq_some hc
  find_isSome := by
    intro children key t h
    rw [Option.isSome_map, List.find?_isSome]
    exact ⟨(key, t), h, by simp⟩
  uint8 s := (decimal s).bind fun n => if n < UInt8.size then some (.ofNat n) else none
  uint16 s := (decimal s).bind fun n => if n < UInt16.size then some (.ofNat n) else none
  uint32 s := (decimal s).bind fun n => if n < UInt32.size then some (.ofNat n) else none
  bool s := if s = "true" ∨ s = "1" then some true
    else if s = "false" ∨ s = "0" then some false else none

end PropertyTree
