/-
  OpenApi.Proofs.Strictness.Trim — mappings and sequences of a trimmed document.

  A document is trimmed by a choice of entries that nothing read. A mapping of the document and the mapping at
  the same path of the trimmed one answer alike under every key that stays: the key is there in both or in
  none, and the values below it are alike again.
-/
import Mathlib.Data.List.Forall2
import OpenApi.Proofs.Build.Readings
import OpenApi.Proofs.Document.Trimming
import OpenApi.Proofs.Outcome

namespace OpenApi

/-! ## §1. Trims. -/

/-- The second document is the first one without the keys that the marks leave unused. Its text is another one,
in which only the tree matters. -/
structure Document.Trimmed (d : Document) (u : Usage) (d' : Document) : Prop where
  filename : d'.filename = d.filename
  root : d'.root = d.root.without (u.unused d.root) []

/-- A choice of entries to leave out of a document: by the end of its reading none of them was read, and none
lies below what was read as a whole. -/
structure Trim where
  /-- The name of the document. -/
  file : String
  /-- The marks at the end of the reading. -/
  usage : Usage
  /-- The paths of the entries that are left out. -/
  gone : List Path
  not_read : ∀ p ∈ gone, p ∉ usage.read
  not_inside : ∀ p ∈ usage.sealed, ∀ key rest, p ++ key :: rest ∉ gone

namespace Trim

/-- The trim that leaves the unused keys out. -/
def unused (file : String) (usage : Usage) (root : Node) : Trim where
  file := file
  usage := usage
  gone := usage.unused root
  not_read _ h := (Usage.unread_of_mem_unusedBelow h).not_read
  not_inside _ hp _ _ h := (Usage.unread_of_mem_unusedBelow h).not_sealed rfl hp

variable (T : Trim)

/-! ## §2. What a trim cuts. -/

/-- The second mapping is the first one in the trimmed document. -/
structure Cuts (m m' : Mapping) : Prop where
  node : m'.node = m.node.without T.gone m.path
  path : m'.path = m.path
  file : m.filename = T.file
  file' : m'.filename = T.file
  kind : m.node.kind = .mapping

/-- The second sequence is the first one in the trimmed document. -/
structure CutsSequence (s s' : Sequence) : Prop where
  node : s'.node = s.node.without T.gone s.path
  path : s'.path = s.path
  file : s.document.filename = T.file
  file' : s'.document.filename = T.file

/-- If the key is there, its entry stays. -/
def Keeps (m : Mapping) (key : String) : Prop := m.containsKey key = true → m.child key ∉ T.gone

variable {T}

/-- The root of a document and the root of the trimmed one. -/
theorem cuts_of_ofNode {d d' : Document} (hfile : d.filename = T.file) (hfile' : d'.filename = T.file)
    {n : Node} {path : Path} {m : Mapping} (h : Mapping.ofNode d n path = .ok m) :
    ∃ m', Mapping.ofNode d' (n.without T.gone path) path = .ok m' ∧ T.Cuts m m' := by
  obtain ⟨hkind, rfl⟩ := Mapping.ofNode_eq_ok.1 h
  have hkind' : (n.without T.gone path).kind = .mapping := by rw [Node.kind_without, hkind]
  exact ⟨_, Mapping.ofNode_eq_ok.2 ⟨hkind', rfl⟩, rfl, rfl, hfile, hfile', hkind⟩

theorem cutsSequence_of_ofNode {d d' : Document} (hfile : d.filename = T.file)
    (hfile' : d'.filename = T.file) {n : Node} {path : Path} {s : Sequence}
    (h : Sequence.ofNode d n path = .ok s) :
    ∃ s', Sequence.ofNode d' (n.without T.gone path) path = .ok s' ∧ T.CutsSequence s s' := by
  obtain ⟨hkind, rfl⟩ := Sequence.ofNode_eq_ok.1 h
  have hkind' : (n.without T.gone path).kind = .sequence := by rw [Node.kind_without, hkind]
  exact ⟨_, Sequence.ofNode_eq_ok.2 ⟨hkind', rfl⟩, rfl, rfl, hfile, hfile'⟩

namespace Cuts

variable {m m' : Mapping} {key : String}

theorem child (h : T.Cuts m m') (key : String) : m'.child key = m.child key := by
  unfold Mapping.child
  rw [h.path]

theorem kind' (h : T.Cuts m m') : m'.node.kind = .mapping := by
  rw [h.node, Node.kind_without]
  exact h.kind

theorem height_le (h : T.Cuts m m') : m'.node.height ≤ m.node.height := by
  rw [h.node]
  exact Node.height_without_le m.node

theorem get? (h : T.Cuts m m') (key : String) :
    m'.node.get? key =
      if m.child key ∈ T.gone then none
      else (m.node.get? key).map fun n => n.without T.gone (m.child key) := by
  rw [h.node]
  exact Node.get?_without m.node key

/-- A key of the trimmed mapping is one of the mapping. -/
theorem containsKey_of_cut (h : T.Cuts m m') (hkey : m'.containsKey key = true) :
    m.containsKey key = true := by
  unfold Mapping.containsKey at hkey ⊢
  rw [h.get?] at hkey
  split at hkey
  next => exact absurd hkey (by simp)
  next => simpa using hkey

theorem not_containsKey (h : T.Cuts m m') (hkey : m.containsKey key = false) :
    m'.containsKey key = false := by
  rw [Bool.eq_false_iff] at hkey ⊢
  exact fun hkey' => hkey (h.containsKey_of_cut hkey')

/-- Where none of some keys is there, none is there in the trimmed mapping. -/
theorem find?_eq_none (h : T.Cuts m m') {keys : List String} (hnone : keys.find? m.containsKey = none) :
    keys.find? m'.containsKey = none := by
  rw [List.find?_eq_none] at hnone ⊢
  exact fun key hkey hthere => hnone key hkey (h.containsKey_of_cut hthere)

/-- What a key that stays leads to. -/
theorem get?_kept (h : T.Cuts m m') (hkeep : T.Keeps m key) :
    m'.node.get? key = (m.node.get? key).map fun n => n.without T.gone (m.child key) := by
  rw [h.get?]
  cases hget : m.node.get? key with
  | none => simp
  | some n => rw [if_neg (hkeep (by simp [Mapping.containsKey, hget]))]

theorem containsKey_kept (h : T.Cuts m m') (hkeep : T.Keeps m key) :
    m'.containsKey key = m.containsKey key := by
  unfold Mapping.containsKey
  rw [h.get?_kept hkeep, Option.isSome_map]

theorem kindOf_kept (h : T.Cuts m m') (hkeep : T.Keeps m key) : m'.kindOf key = m.kindOf key := by
  unfold Mapping.kindOf
  rw [h.get?_kept hkeep]
  cases m.node.get? key with
  | none => rfl
  | some n => exact congrArg some (Node.kind_without n)

theorem kindOf_cases (h : T.Cuts m m') (key : String) :
    m'.kindOf key = none ∨ m'.kindOf key = m.kindOf key := by
  by_cases hgone : m.child key ∈ T.gone
  · left
    unfold Mapping.kindOf
    rw [h.get?, if_pos hgone]
    rfl
  · exact .inr (h.kindOf_kept fun _ => hgone)

/-- The keys of the trimmed mapping are those that stay. -/
theorem keys (h : T.Cuts m m') : m'.keys = m.keys.filter fun key => m.child key ∉ T.gone := by
  unfold Mapping.keys
  rw [h.node]
  exact Node.keys_without m.node

theorem all_keys (h : T.Cuts m m') {p : String → Bool} (hall : m.keys.all p = true) : m'.keys.all p = true := by
  rw [h.keys]
  exact List.all_eq_true.2 fun key hkey => List.all_eq_true.1 hall key (List.mem_of_mem_filter hkey)

theorem mem_keys {key : String} : key ∈ m.keys ↔ m.containsKey key = true := Node.mem_keys

theorem isEmpty_of_isEmpty (h : T.Cuts m m') (hempty : m.isEmpty = true) : m'.isEmpty = true := by
  unfold Mapping.isEmpty at hempty ⊢
  rw [h.keys, List.isEmpty_iff.1 hempty]
  rfl

/-- A mapping with a key that stays is not empty when trimmed. -/
theorem isEmpty_eq_false (h : T.Cuts m m') (hkey : m.containsKey key = true) (hkeep : T.Keeps m key) :
    m'.isEmpty = false := by
  have hmem : key ∈ m'.keys := mem_keys.2 ((h.containsKey_kept hkeep).trans hkey)
  unfold Mapping.isEmpty
  cases hkeys : m'.keys with
  | nil => rw [hkeys] at hmem; exact absurd hmem List.not_mem_nil
  | cons => rfl

end Cuts

/-! ## §3. Items. -/

theorem itemsFrom_itemsWithout (path : Path) (items : List Node) (index : Nat) :
    Sequence.itemsFrom path index (Node.itemsWithout T.gone path index items) =
      (Sequence.itemsFrom path index items).map fun item => (item.1, item.2.without T.gone item.1) := by
  induction items generalizing index with
  | nil => simp [Node.itemsWithout, Sequence.itemsFrom]
  | cons n rest ih => simp [Node.itemsWithout, Sequence.itemsFrom, ih]

namespace CutsSequence

variable {s s' : Sequence}

theorem items (h : T.CutsSequence s s') :
    s'.items = s.items.map fun item => (item.1, item.2.without T.gone item.1) := by
  unfold Sequence.items
  rw [h.node, h.path, Node.items_without, itemsFrom_itemsWithout]

theorem texts (h : T.CutsSequence s s') {texts : List String} (hok : s.texts = .ok texts) :
    s'.texts = .ok texts := by
  unfold Sequence.texts at hok ⊢
  rw [Outcome.mapM_eq_ok] at hok ⊢
  rw [h.items, List.forall₂_map_left_iff]
  refine hok.imp fun item text hitem => ?_
  dsimp only
  rw [Node.scalarText_without]
  cases htext : item.2.scalarText with
  | none => rw [htext] at hitem; exact absurd hitem (by simp)
  | some _ => rwa [htext] at hitem

theorem mappings (h : T.CutsSequence s s') {ms : List Mapping} (hok : s.mappings = .ok ms) :
    ∃ ms', s'.mappings = .ok ms' ∧ List.Forall₂ T.Cuts ms ms' := by
  unfold Sequence.mappings at hok ⊢
  rw [Outcome.mapM_eq_ok] at hok
  rw [h.items]
  simp only [Outcome.mapM_eq_ok, List.forall₂_map_left_iff]
  generalize s.items = items at hok ⊢
  induction hok with
  | nil => exact ⟨[], .nil, .nil⟩
  | cons hm _ ih =>
    obtain ⟨m', hm', hcut⟩ := cuts_of_ofNode h.file h.file' hm
    obtain ⟨ms', hms', hcuts⟩ := ih
    exact ⟨m' :: ms', .cons hm' hms', .cons hcut hcuts⟩

end CutsSequence

end Trim

end OpenApi
