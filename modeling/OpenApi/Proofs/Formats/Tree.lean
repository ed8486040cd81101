/-
  OpenApi.Proofs.Formats.Tree — values that both formats write.

  A tree of nulls, booleans, integers, texts, sequences and mappings whose keys are texts can be written in YAML and in
  JSON. Documents make the same nodes of it (`ofYaml_toYaml`), so documents of one tree differ in their texts alone.
-/
import OpenApi.Document.Basic

namespace OpenApi

/-- A value that both formats write. -/
inductive Tree
  | null
  | bool (value : Bool)
  | int (value : Int)
  | string (value : String)
  | sequence (items : List Tree)
  | mapping (entries : List (String × Tree))

namespace Tree

/-! ## §1. The values of the formats. -/

mutual

/-- The YAML value of a tree. -/
def toYaml : Tree → Yaml.Value
  | .null => .scalar .null
  | .bool b => .scalar (.bool b)
  | .int n => .scalar (.int n)
  | .string s => .scalar (.string s)
  | .sequence items => .sequence (toYamlItems items)
  | .mapping entries => .mapping (toYamlEntries entries)

/-- The YAML values of items. -/
def toYamlItems : List Tree → List Yaml.Value
  | [] => []
  | t :: rest => toYaml t :: toYamlItems rest

/-- The YAML entries of a mapping. -/
def toYamlEntries : List (String × Tree) → List (Yaml.Value × Yaml.Value)
  | [] => []
  | (key, t) :: rest => (.scalar (.string key), toYaml t) :: toYamlEntries rest

end

mutual

/-- The JSON value of a tree. -/
def toJson : Tree → Json
  | .null => .null
  | .bool b => .bool b
  | .int n => .number (.int n)
  | .string s => .string s
  | .sequence items => .array (toJsonItems items)
  | .mapping entries => .object (toJsonMembers entries)

/-- The JSON values of items. -/
def toJsonItems : List Tree → List Json
  | [] => []
  | t :: rest => toJson t :: toJsonItems rest

/-- The JSON members of a mapping. -/
def toJsonMembers : List (String × Tree) → List (String × Json)
  | [] => []
  | (key, t) :: rest => (key, toJson t) :: toJsonMembers rest

end

/-! ## §2. The nodes. -/

mutual

/-- **Both formats make the same node of a tree.** -/
theorem ofYaml_toYaml : ∀ t : Tree, Node.ofYaml t.toYaml = Node.ofJson t.toJson
  | .null => rfl
  | .bool _ => rfl
  | .int _ => rfl
  | .string _ => rfl
  | .sequence items => by
    unfold toYaml toJson Node.ofYaml Node.ofJson
    rw [ofYamlItems_toYamlItems items]
  | .mapping entries => by
    unfold toYaml toJson Node.ofYaml Node.ofJson
    rw [ofYamlEntries_toYamlEntries entries]

theorem ofYamlItems_toYamlItems : ∀ items : List Tree,
    Node.ofYamlItems (toYamlItems items) = Node.ofJsonItems (toJsonItems items)
  | [] => rfl
  | t :: rest => by
    unfold toYamlItems toJsonItems Node.ofYamlItems Node.ofJsonItems
    rw [ofYaml_toYaml t, ofYamlItems_toYamlItems rest]

theorem ofYamlEntries_toYamlEntries : ∀ entries : List (String × Tree),
    Node.ofYamlEntries (toYamlEntries entries) = Node.ofJsonMembers (toJsonMembers entries)
  | [] => rfl
  | (key, t) :: rest => by
    unfold toYamlEntries toJsonMembers Node.ofYamlEntries Node.ofJsonMembers
    rw [ofYaml_toYaml t, ofYamlEntries_toYamlEntries rest]
    rfl

end

/-! ## §3. Values that are a tree. -/

mutual

/-- Is the YAML value that of the tree? -/
def isYaml : Tree → Yaml.Value → Bool
  | .null, .scalar .null => true
  | .bool b, .scalar (.bool b') => b = b'
  | .int n, .scalar (.int n') => n = n'
  | .string s, .scalar (.string s') => s = s'
  | .sequence items, .sequence values => areYaml items values
  | .mapping entries, .mapping values => haveYaml entries values
  | _, _ => false

/-- Are the YAML values those of the items? -/
def areYaml : List Tree → List Yaml.Value → Bool
  | [], [] => true
  | t :: rest, v :: values => t.isYaml v && areYaml rest values
  | _, _ => false

/-- Are the YAML entries those of the mapping? -/
def haveYaml : List (String × Tree) → List (Yaml.Value × Yaml.Value) → Bool
  | [], [] => true
  | (key, t) :: rest, (.scalar (.string key'), v) :: values => key = key' && t.isYaml v && haveYaml rest values
  | _, _ => false

end

mutual

theorem eq_toYaml_of_isYaml (t : Tree) (v : Yaml.Value) (h : t.isYaml v = true) : v = t.toYaml := by
  unfold isYaml at h
  split at h
  next => rfl
  next => rw [of_decide_eq_true h, toYaml]
  next => rw [of_decide_eq_true h, toYaml]
  next => rw [of_decide_eq_true h, toYaml]
  next items values => rw [toYaml, eq_toYamlItems_of_areYaml items values h]
  next entries values => rw [toYaml, eq_toYamlEntries_of_haveYaml entries values h]
  next => exact absurd h Bool.false_ne_true

theorem eq_toYamlItems_of_areYaml (items : List Tree) (values : List Yaml.Value) (h : areYaml items values = true) :
    values = toYamlItems items := by
  unfold areYaml at h
  split at h
  next => rfl
  next t rest v values =>
    rw [Bool.and_eq_true] at h
    rw [toYamlItems, ← eq_toYaml_of_isYaml t v h.1, ← eq_toYamlItems_of_areYaml rest values h.2]
  next => exact absurd h Bool.false_ne_true

theorem eq_toYamlEntries_of_haveYaml (entries : List (String × Tree)) (values : List (Yaml.Value × Yaml.Value))
    (h : haveYaml entries values = true) : values = toYamlEntries entries := by
  unfold haveYaml at h
  split at h
  next => rfl
  next key t rest key' v values =>
    rw [Bool.and_eq_true, Bool.and_eq_true] at h
    obtain ⟨⟨hkey, hvalue⟩, hrest⟩ := h
    rw [toYamlEntries, ← eq_toYaml_of_isYaml t v hvalue, ← eq_toYamlEntries_of_haveYaml rest values hrest,
      of_decide_eq_true hkey]
  next => exact absurd h Bool.false_ne_true

end

/-- A value that was found is that of the tree if it is told to be. -/
theorem eq_some_of_any_isYaml {t : Tree} {found : Option Yaml.Value} (h : found.any t.isYaml = true) :
    found = some t.toYaml := by
  cases found with
  | none => cases h
  | some v => rw [eq_toYaml_of_isYaml t v h]

end Tree

/-! ## §4. Documents. -/

namespace Document

/-- Both documents have one name and one tree; their texts may differ, and so may their formats. -/
structure Twin (d d' : Document) : Prop where
  filename : d'.filename = d.filename
  root : d'.root = d.root

/-- The first document holds a tree as a YAML value, the second one as a JSON value. -/
structure OfTree (t : Tree) (d d' : Document) : Prop where
  filename : d'.filename = d.filename
  yaml : d.root = Node.ofYaml t.toYaml
  json : d'.root = Node.ofJson t.toJson

theorem Twin.refl (d : Document) : d.Twin d := ⟨rfl, rfl⟩

theorem OfTree.twin {t : Tree} {d d' : Document} (h : OfTree t d d') : d.Twin d' := by
  refine ⟨h.filename, ?_⟩
  rw [h.yaml, h.json]
  exact (Tree.ofYaml_toYaml t).symm

end Document

end OpenApi
