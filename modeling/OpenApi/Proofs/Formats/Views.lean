/-
  OpenApi.Proofs.Formats.Views — nodes answer as the values of their format.

  The node that is made of a value answers each question as the view of its format does: the keys of a YAML mapping are
  found by their texts and tags are looked through (`shows_yaml`), the members of a JSON object are found by their names
  (`shows_json`). So what is shown of both formats is alike wherever the nodes are, and those of a tree are
  (`views_of_tree`).
-/
import OpenApi.Document.View
import OpenApi.Proofs.Formats.Tree
import OpenApi.Proofs.Unread.KeyPaths

namespace OpenApi

/-- The node that is made of a value answers as the view of its format. -/
structure View.Shows {α : Type} (V : View α) (node : α → Node) (v : α) : Prop where
  kind : (node v).kind = V.kind v
  get? : ∀ key, (node v).get? key = (V.get? v key).map node
  keys : (node v).keys = V.keys v
  items : (node v).items = (V.items v).map node
  scalarText : (node v).scalarText = V.scalarText v
  boolean? : (node v).boolean? = V.boolean? v
  toJson : (node v).json = V.toJson v

namespace Node

/-! ## §1. YAML values. -/

theorem ofYamlItems_eq_map (items : List Yaml.Value) : ofYamlItems items = items.map ofYaml := by
  induction items with
  | nil => rfl
  | cons v rest ih => rw [ofYamlItems, ih, List.map_cons]

theorem ofYamlEntries_eq_map (entries : List (Yaml.Value × Yaml.Value)) :
    ofYamlEntries entries = entries.map fun e => (keyOf e.1, ofYaml e.2) := by
  induction entries with
  | nil => rfl
  | cons e rest ih => rw [ofYamlEntries, ih, List.map_cons]

/-- A key has the text of its value. -/
theorem text_keyOf : ∀ key : Yaml.Value, (keyOf key).text = key.text?
  | .scalar .null | .scalar (.bool _) | .scalar (.int _) | .scalar (.float _) | .scalar (.string _) => rfl
  | .sequence _ => rfl
  | .mapping _ => rfl
  | .tagged _ key => text_keyOf key

theorem innerJson_ofScalar (s : Yaml.Scalar) : (ofScalar s).innerJson = .ok (Yaml.Value.scalarJson s) := by
  cases s <;> rfl

mutual

/-- A node has the JSON form of its value. -/
theorem innerJson_ofYaml : ∀ v : Yaml.Value, (ofYaml v).innerJson = v.innerJson
  | .scalar s => innerJson_ofScalar s
  | .sequence items => by rw [ofYaml, innerJson, itemsJson_ofYamlItems items, Yaml.Value.innerJson]
  | .mapping entries => by rw [ofYaml, innerJson, entriesJson_ofYamlEntries entries, Yaml.Value.innerJson]
  | .tagged tag v => by rw [ofYaml, innerJson, innerJson_ofYaml v, Yaml.Value.innerJson]

theorem itemsJson_ofYamlItems : ∀ items : List Yaml.Value, itemsJson (ofYamlItems items) = Yaml.Value.itemsJson items
  | [] => rfl
  | v :: rest => by
    rw [ofYamlItems, itemsJson, innerJson_ofYaml v, itemsJson_ofYamlItems rest]
    rfl

theorem entriesJson_ofYamlEntries : ∀ (entries : List (Yaml.Value × Yaml.Value)) (members : List (String × Json)),
    entriesJson (ofYamlEntries entries) members = Yaml.Value.entriesJson entries members
  | [], _ => rfl
  | (key, v) :: rest, members => by
    rw [ofYamlEntries, entriesJson, innerJson_ofYaml v]
    simp only [entriesJson_ofYamlEntries rest]
    rfl

end

theorem get?_ofYaml_mapping (entries : List (Yaml.Value × Yaml.Value)) (key : String) :
    (ofYaml (.mapping entries)).get? key = (View.yaml.get? (.mapping entries) key).map ofYaml := by
  have hentries : (ofYaml (.mapping entries)).entries = entries.map fun e => (keyOf e.1, ofYaml e.2) :=
    ofYamlEntries_eq_map entries
  have hkeys : ((fun e : Key × Node => decide (e.1.text = some key)) ∘ fun e : Yaml.Value × Yaml.Value =>
      (keyOf e.1, ofYaml e.2)) = fun e => decide (e.1.text? = some key) :=
    funext fun e => by rw [Function.comp_apply, text_keyOf]
  rw [get?, hentries, List.find?_map, hkeys, Option.map_map]
  exact (Option.map_map ofYaml Prod.snd _).symm

theorem keys_ofYaml_mapping (entries : List (Yaml.Value × Yaml.Value)) :
    (ofYaml (.mapping entries)).keys = View.yaml.keys (.mapping entries) := by
  have hentries : (ofYaml (.mapping entries)).entries = entries.map fun e => (keyOf e.1, ofYaml e.2) :=
    ofYamlEntries_eq_map entries
  rw [keys, hentries, List.filterMap_map]
  exact List.filterMap_congr fun e _ => text_keyOf e.1

/-- **The node of a YAML value answers as the value does.** -/
theorem shows_yaml : ∀ v : Yaml.Value, View.yaml.Shows ofYaml v
  | .scalar .null | .scalar (.bool _) | .scalar (.int _) | .scalar (.float _) | .scalar (.string _) =>
    ⟨rfl, fun _ => rfl, rfl, rfl, rfl, rfl, rfl⟩
  | .sequence items =>
    ⟨rfl, fun _ => rfl, rfl, ofYamlItems_eq_map items, rfl, rfl, innerJson_ofYaml (.sequence items)⟩
  | .mapping entries =>
    ⟨rfl, get?_ofYaml_mapping entries, keys_ofYaml_mapping entries, rfl, rfl, rfl,
      innerJson_ofYaml (.mapping entries)⟩
  | .tagged _ v => by
    have h := shows_yaml v
    exact ⟨h.kind, h.get?, h.keys, h.items, h.scalarText, h.boolean?, h.toJson⟩

/-! ## §2. JSON values. -/

theorem ofJsonItems_eq_map (items : List Json) : ofJsonItems items = items.map ofJson := by
  induction items with
  | nil => rfl
  | cons v rest ih => rw [ofJsonItems, ih, List.map_cons]

theorem ofJsonMembers_eq_map (members : List (String × Json)) :
    ofJsonMembers members = members.map fun m => (Key.ofText m.1, ofJson m.2) := by
  induction members with
  | nil => rfl
  | cons m rest ih => rw [ofJsonMembers, ih, List.map_cons]

theorem setMember_of_notMem {members : List (String × Json)} {name : String} {v : Json}
    (h : name ∉ members.map (·.1)) : Json.setMember members name v = members ++ [(name, v)] := by
  induction members with
  | nil => rfl
  | cons m rest ih =>
    rw [List.map_cons, List.mem_cons, not_or] at h
    rw [Json.setMember, if_neg (Ne.symm h.1), ih h.2, List.cons_append]

/-- The texts of the keys are the names of the members. -/
theorem keys_ofJson_object (members : List (String × Json)) :
    (ofJson (.object members)).keys = members.map (·.1) := by
  have hentries : (ofJson (.object members)).entries = members.map fun m => (Key.ofText m.1, ofJson m.2) :=
    ofJsonMembers_eq_map members
  rw [keys, hentries, List.filterMap_map]
  exact congrFun List.filterMap_eq_map' members

theorem get?_ofJson_object (members : List (String × Json)) (key : String) :
    (ofJson (.object members)).get? key = (Json.member? members key).map ofJson := by
  have hentries : (ofJson (.object members)).entries = members.map fun m => (Key.ofText m.1, ofJson m.2) :=
    ofJsonMembers_eq_map members
  have hkeys : ((fun e : Key × Node => decide (e.1.text = some key)) ∘ fun m : String × Json =>
      (Key.ofText m.1, ofJson m.2)) = fun m => decide (m.1 = key) :=
    funext fun m => decide_eq_decide.2 Option.some_inj
  rw [get?, hentries, List.find?_map, hkeys, Option.map_map]
  exact (Option.map_map ofJson Prod.snd _).symm

mutual

/-- A node of a JSON value whose members have distinct names has the value as its JSON form. -/
theorem innerJson_ofJson : ∀ v : Json, (ofJson v).keysDistinct = true → (ofJson v).innerJson = .ok v
  | .null, _ | .bool _, _ | .number _, _ | .string _, _ => rfl
  | .array items, h => by
    have hitems := keysDistinct_sequence.1 h
    rw [ofJson, innerJson, itemsJson_ofJsonItems items hitems]
    rfl
  | .object members, h => by
    obtain ⟨hnames, hvalues⟩ := keysDistinct_mapping.1 h
    have hkeys : (members.map (·.1)).Nodup := by rwa [← keys_ofJson_object]
    rw [ofJson, innerJson, entriesJson_ofJsonMembers members [] hvalues hkeys]
    rfl

theorem itemsJson_ofJsonItems : ∀ items : List Json, (∀ n ∈ ofJsonItems items, n.keysDistinct = true) →
    itemsJson (ofJsonItems items) = .ok items
  | [], _ => rfl
  | v :: rest, h => by
    obtain ⟨hv, hrest⟩ := List.forall_mem_cons.1 h
    rw [ofJsonItems, itemsJson, innerJson_ofJson v hv, itemsJson_ofJsonItems rest hrest]
    rfl

theorem entriesJson_ofJsonMembers : ∀ members before : List (String × Json),
    (∀ e ∈ ofJsonMembers members, e.2.keysDistinct = true) → ((before ++ members).map (·.1)).Nodup →
    entriesJson (ofJsonMembers members) before = .ok (before ++ members)
  | [], before, _, _ => by rw [List.append_nil]; rfl
  | (name, v) :: rest, before, h, hnames => by
    obtain ⟨hv, hrest⟩ := List.forall_mem_cons.1 h
    -- the name is new, so the member goes to the end of those so far
    have hnew : name ∉ before.map (·.1) := by
      rw [List.map_append, List.map_cons] at hnames
      exact fun hm => (List.disjoint_of_nodup_append hnames) hm List.mem_cons_self
    have happend : before ++ (name, v) :: rest = before ++ [(name, v)] ++ rest := List.append_cons ..
    rw [happend] at hnames ⊢
    rw [ofJsonMembers, entriesJson, innerJson_ofJson v hv]
    simp only [Key.ofText, setMember_of_notMem hnew]
    exact entriesJson_ofJsonMembers rest (before ++ [(name, v)]) hrest hnames

end

/-- **The node of a JSON value whose members have distinct names answers as the value does.** -/
theorem shows_json (v : Json) (h : (ofJson v).keysDistinct = true) : View.json.Shows ofJson v := by
  cases v with
  | null | bool _ | number _ | string _ => exact ⟨rfl, fun _ => rfl, rfl, rfl, rfl, rfl, rfl⟩
  | array items =>
    exact ⟨rfl, fun _ => rfl, rfl, ofJsonItems_eq_map items, rfl, rfl, innerJson_ofJson (.array items) h⟩
  | object members =>
    exact ⟨rfl, get?_ofJson_object members, keys_ofJson_object members, rfl, rfl, rfl,
      innerJson_ofJson (.object members) h⟩

end Node

/-! ## §3. Values of both formats. -/

/-- Two values of two formats are shown alike: they answer each question alike, or with values of which the nodes are
equal. -/
structure View.Alike {α β : Type} (V : View α) (W : View β) (node : α → Node) (node' : β → Node) (v : α) (w : β) :
    Prop where
  kind : V.kind v = W.kind w
  get? : ∀ key, (V.get? v key).map node = (W.get? w key).map node'
  keys : V.keys v = W.keys w
  items : (V.items v).map node = (W.items w).map node'
  scalarText : V.scalarText v = W.scalarText w
  boolean? : V.boolean? v = W.boolean? w
  toJson : V.toJson v = W.toJson w

/-- Values that have one node are shown alike. -/
theorem View.Shows.alike {α β : Type} {V : View α} {W : View β} {node : α → Node} {node' : β → Node} {v : α} {w : β}
    (hv : V.Shows node v) (hw : W.Shows node' w) (h : node v = node' w) : V.Alike W node node' v w where
  kind := by rw [← hv.kind, h, hw.kind]
  get? key := by rw [← hv.get?, h, hw.get?]
  keys := by rw [← hv.keys, h, hw.keys]
  items := by rw [← hv.items, h, hw.items]
  scalarText := by rw [← hv.scalarText, h, hw.scalarText]
  boolean? := by rw [← hv.boolean?, h, hw.boolean?]
  toJson := by rw [← hv.toJson, h, hw.toJson]

/-- **Both formats show a tree alike.** -/
theorem Tree.views_of_tree (t : Tree) (h : (Node.ofJson t.toJson).keysDistinct = true) :
    View.yaml.Alike View.json Node.ofYaml Node.ofJson t.toYaml t.toJson :=
  (Node.shows_yaml t.toYaml).alike (Node.shows_json t.toJson h) t.ofYaml_toYaml

end OpenApi
