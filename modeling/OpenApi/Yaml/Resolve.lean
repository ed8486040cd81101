/-
  OpenApi.Yaml.Resolve — from the nodes of a document to its value.

  Anchors are numbered where they are met: an anchor gets the count of the names bound so far as its
  number, and an alias means the node that holds its number in the end. A document is refused if an
  alias has no anchor, if a key occurs twice, if collections are nested deeper than 128, or if aliases
  are followed over a hundred times as often as there are events in the document.
-/
import OpenApi.Yaml.Graph
import OpenApi.Yaml.Value

namespace OpenApi.Yaml

/-! ## §1. Anchors. -/

/-- A node whose aliases carry the number of their anchor. -/
inductive Numbered
  | alias (number : Nat)
  | scalar (tag : Option Tag) (text : String) (plain : Bool)
  | sequence (tag : Option Tag) (items : List Numbered)
  | mapping (tag : Option Tag) (entries : List (Numbered × Numbered))
  deriving Inhabited

/-- Anchors met so far. -/
structure Anchors where
  /-- The number of each name. -/
  names : List (String × Nat)
  /-- How many events the nodes met so far take. -/
  events : Nat

namespace Anchors

/-- Binds a name, if there is one; the second part is its number. -/
def bind (a : Anchors) (name : Option String) : Anchors × Option Nat :=
  match name with
  | none => (a, none)
  | some name =>
    -- binding a name again does not raise the count, so the next name gets the same number
    let number := a.names.length
    let names := (name, number) :: a.names.filter fun n => n.1 ≠ name
    ({ a with names }, some number)

/-- The number of a name. -/
def number? (a : Anchors) (name : String) : Option Nat :=
  (a.names.find? fun n => n.1 = name).map (·.2)

/-- The anchors after `count` more events. -/
def tick (a : Anchors) (count : Nat) : Anchors := { a with events := a.events + count }

end Anchors

/-- The nodes that have a number, the latest first. -/
abbrev Targets := List (Nat × Numbered)

/-- Adds a node under its number, if it has one. -/
def Targets.note (targets : Targets) (number : Option Nat) (node : Numbered) : Targets :=
  match number with
  | none => targets
  | some n => (n, node) :: targets

namespace Graph

mutual

/-- Numbers the anchors of a node. The targets in it are listed in the order in which their anchors
stand, the last one first. -/
def numbered : Graph → Anchors → Option (Numbered × Targets × Anchors)
  | .alias name, a => (a.number? name).map fun n => (.alias n, [], a.tick 1)
  | .scalar p text plain, a =>
    let (a, number) := a.bind p.anchor
    let node := Numbered.scalar p.tag text plain
    some (node, Targets.note [] number node, a.tick 1)
  | .sequence p items, a =>
    let (a, number) := a.bind p.anchor
    (numberedItems items a).map fun (items, inner, a) =>
      let node := Numbered.sequence p.tag items
      (node, inner ++ Targets.note [] number node, a.tick 2)
  | .mapping p entries, a =>
    let (a, number) := a.bind p.anchor
    (numberedEntries entries a).map fun (entries, inner, a) =>
      let node := Numbered.mapping p.tag entries
      (node, inner ++ Targets.note [] number node, a.tick 2)

/-- Numbers the anchors of items. -/
def numberedItems : List Graph → Anchors → Option (List Numbered × Targets × Anchors)
  | [], a => some ([], [], a)
  | g :: rest, a =>
    match numbered g a with
    | none => none
    | some (item, first, a) =>
      (numberedItems rest a).map fun (items, later, a) => (item :: items, later ++ first, a)

/-- Numbers the anchors of entries, keys first. -/
def numberedEntries : List (Graph × Graph) → Anchors →
    Option (List (Numbered × Numbered) × Targets × Anchors)
  | [], a => some ([], [], a)
  | (k, v) :: rest, a =>
    match numbered k a with
    | none => none
    | some (key, ofKey, a) =>
      match numbered v a with
      | none => none
      | some (value, ofValue, a) =>
        (numberedEntries rest a).map fun (entries, later, a) =>
          ((key, value) :: entries, later ++ ofValue ++ ofKey, a)

end

end Graph

/-! ## §2. Values. -/

/-- What is fixed while a document is resolved. -/
structure Scope where
  targets : Targets
  /-- How many aliases may be followed. -/
  limit : Nat

/-- A value and how many aliases have been followed, from how many were followed before. -/
abbrev Resolving (α : Type) := StateT Nat Option α

/-- The value with the tag of its node, if that tag is kept. -/
def withTag (tag : Option Tag) (v : Value) : Value :=
  match tag.bind Tag.kept? with
  | some t => .tagged t v
  | none => v

/-- The entries of a mapping, resolved in order; a key that occurs twice is an error. -/
def resolveEntries (resolve : Numbered → Resolving Value) :
    List (Numbered × Numbered) → (soFar : List (Value × Value)) → Resolving (List (Value × Value))
  | [], soFar => pure soFar.reverse
  | (k, v) :: rest, soFar => do
    let key ← resolve k
    if Value.hasKey soFar key then failure
    let value ← resolve v
    resolveEntries resolve rest ((key, value) :: soFar)

/-- The node that an alias means; any other node is itself. -/
def Scope.target (s : Scope) : Numbered → Resolving Numbered
  | .alias n => do
    let followed ← get
    if followed + 1 > s.limit then failure
    set (followed + 1)
    match s.targets.find? fun t => t.1 = n with
    | some t => pure t.2
    | none => failure
  | node => pure node

/-- The value of a node with collections nested at most `depth` deep. -/
def Scope.resolve (s : Scope) : (depth : Nat) → Numbered → Resolving Value
  | 0, node => do
    match ← s.target node with
    | .scalar tag text plain => resolveScalar tag text plain
    | _ => failure
  | depth + 1, node => do
    match ← s.target node with
    | .alias _ => failure
    | .scalar tag text plain => resolveScalar tag text plain
    | .sequence tag items => do
      let items ← items.mapM (s.resolve depth)
      pure (withTag tag (.sequence items))
    | .mapping tag entries => do
      let entries ← resolveEntries (s.resolve depth) entries []
      pure (withTag tag (.mapping entries))
where
  /-- The value of a scalar with its tag. -/
  resolveScalar (tag : Option Tag) (text : String) (plain : Bool) : Resolving Value :=
    match Scalar.resolve? tag text plain with
    | some v => pure (withTag tag (.scalar v))
    | none => failure

/-- The greatest nesting of collections. -/
def maxDepth : Nat := 128

/-- The value of a document. -/
def Graph.value? (g : Graph) : Option Value :=
  match g.numbered ⟨[], 0⟩ with
  | none => none
  | some (node, targets, a) =>
    let scope : Scope := { targets, limit := 100 * a.events }
    ((scope.resolve maxDepth node).run 0).map (·.1)

end OpenApi.Yaml
