/-
  OpenApi.Proofs.Bodies.Contents — what is kept of the contents of a body.

  Contents are kept under their types without parameters, so several entries may come under one type. Objects that are
  declared in place all have the properties of one model, or they are refused. Other schemas are not compared: of the
  entries with one type the last one is kept, and what the others declare is lost (`body_lost`). Main statement:
  `contents_of_readContents`.
-/
import OpenApi.Proofs.Bodies.Promotion
import OpenApi.Proofs.Build.Validation

namespace OpenApi

/-! ## §1. What an entry is read as. -/

/-- Both are one schema, or schemas that compare as equal. -/
def EqualSchemas (a b : Schema) : Prop := a = b ∨ a.same b = true

/-- What is kept for a content: in place of an object, unless it is a form, a reference to the model of the name. -/
def Content.named (filename modelName : String) (c : Content) : Content :=
  match c.schema with
  | .object _ => if c.isForm then c else { c with schema := .ref (.toModel filename modelName) }
  | _ => c

namespace Content

variable {filename modelName : String} {c : Content}

theorem named_of_isForm (h : c.isForm = true) : c.named filename modelName = c := by
  unfold named
  split
  next => exact if_pos h
  next => rfl

theorem named_of_object {properties : List Property} (hobject : c.schema = .object properties)
    (h : c.isForm = false) : c.named filename modelName = { c with schema := .ref (.toModel filename modelName) } := by
  unfold named
  rw [hobject]
  exact if_neg (by rw [h]; exact Bool.false_ne_true)

theorem named_of_other (h : ∀ properties, c.schema ≠ .object properties) : c.named filename modelName = c := by
  unfold named
  split
  next properties hobject => exact absurd hobject (h properties)
  next => rfl

end Content

namespace Build

open Building (Gives Leaves)
open Spec (Kept)

/-- What an entry of a mapping of contents is read as: nothing without a schema, else a content of its type with its
schema. An object that is no form has the properties of the model of the name. -/
inductive EntryRead (required : Bool) (modelName : String) (e : String × Mapping) (s : Spec) : Option Content → Prop
  | skipped (hnone : e.2.node.value? "schema" = none) : EntryRead required modelName e s none
  | read {m : Mapping} {schema : Schema} (hm : e.2.Holds "schema" ("schema", m))
      (hread : (readSchema (.ofModel modelName) m).outcome = .ok schema)
      (hobject : ∀ properties, schema = .object properties →
        Content.isForm ⟨essence e.1, required, schema⟩ = false →
          ∃ g, s.HasObject modelName g (owned modelName properties)) :
      EntryRead required modelName e s
        (some (Content.named m.filename modelName ⟨essence e.1, required, schema⟩))

variable {required : Bool} {modelName : String}

theorem EntryRead.kept (e : String × Mapping) (found : Option Content) :
    Kept fun s => EntryRead required modelName e s found := by
  intro s t hgrows h
  cases h with
  | skipped hnone => exact .skipped hnone
  | read hm hread hobject =>
    refine .read hm hread fun properties hschema hform => ?_
    obtain ⟨g, hg⟩ := hobject properties hschema hform
    exact ⟨g, Spec.HasObject.kept _ _ _ s t hgrows hg⟩

/-- The mapping that a lookup finds stands under the key. -/
theorem holds_of_ofNode {media m : Mapping} {key : String} {n : Node} (hn : media.node.value? key = some n)
    (hread : Mapping.ofNode media.document n (media.child key) = .ok m) : media.Holds key (key, m) := by
  obtain ⟨hkind, rfl⟩ := Mapping.ofNode_eq_ok.1 hread
  exact ⟨rfl, rfl, rfl, hkind, (Node.value?_eq_some.1 hn).1⟩

theorem readContent_reads (e : String × Mapping) :
    (readContent required modelName e.1 e.2).Leaves fun found s => EntryRead required modelName e s found := by
  unfold readContent
  refine .reading fun _ => Leaves.lookup (fun hnone l hl => ?_) fun n m l hn hfound hl => ?_
  · rw [hl]
    exact .report fun _ => .pure fun s => .skipped hnone
  rw [hl]
  have hm : e.2.Holds "schema" ("schema", m) := holds_of_ofNode hn hfound
  -- what the schema reads to is needed twice: for the record of the entry and for the names of a promoted object
  have hgives : (readSchema (.ofModel modelName) m).Gives fun schema =>
      (readSchema (.ofModel modelName) m).outcome = .ok schema ∧ schema.PropertiesDistinct :=
    fun session schema after hrun => ⟨Building.Steady.gives (readSchemaTo_steady _ m) session schema after hrun,
      readSchemaTo_distinct _ m session schema after hrun⟩
  refine Leaves.known (Q := fun _ _ => True) (fun _ => .const _) hgives
    ((Leaves.of_records (readSchema_records _ m)).mono fun _ _ _ => trivial) fun schema hschema => ?_
  obtain ⟨hread, hdistinct⟩ := hschema
  dsimp only
  split
  -- an object becomes a model unless the entry is a form; every other schema stays in the entry as it is
  next properties =>
    split
    next hform =>
      refine .pure fun s _ => ?_
      rw [← Content.named_of_isForm hform]
      exact .read hm hread fun _ _ hplain => absurd (hform.symm.trans hplain) nofun
    next hplain =>
      refine Leaves.bind (fun r => .and (.const _) (.exists fun g => Spec.HasObject.kept _ g _))
        (nameObject_leaves (hdistinct properties rfl) _) fun r => .pure fun s hnamed _ => ?_
      obtain ⟨rfl, hg⟩ := hnamed
      rw [← Content.named_of_object rfl (Bool.eq_false_iff.2 hplain)]
      refine .read hm hread fun properties' hsame _ => ?_
      rwa [← Schema.object.inj hsame]
  next hother =>
    refine .pure fun s _ => ?_
    rw [← @Content.named_of_other m.filename modelName ⟨essence e.1, required, schema⟩ hother]
    exact .read hm hread fun properties hobject => absurd hobject (hother properties)

/-! ## §2. Which contents are kept. -/

/-- The contents that were read are kept under their types: the types stand in the order in which they first come, and
under each type stands the content of that type that was read last. -/
structure KeepsLast (read : List Content) (contents : Contents) : Prop where
  types : contents.map Prod.fst = (read.map Content.contentType).eraseDups
  last : ∀ type, Keyed.value? type contents = read.reverse.find? fun c => c.contentType = type

theorem keepsLast_putAll (read : List Content) :
    KeepsLast read (Keyed.putAll Prod.fst [] (read.map fun c => (c.contentType, c))) where
  types := by
    rw [Keyed.map_putAll_nil, List.map_map]
    rfl
  last type := by
    unfold Keyed.value?
    rw [Keyed.find?_putAll, ← List.map_reverse]
    unfold Keyed.find?
    rw [List.find?_map, List.find?_nil, Option.or_none, Option.map_map]
    exact Option.map_id'

/-- Under the type of the content one with its schema is kept. -/
def Represents (contents : Contents) (c : Content) : Prop :=
  ∃ kept, Keyed.value? c.contentType contents = some kept ∧ EqualSchemas kept.schema c.schema

/-- All contents that were read are represented just if each has the schema of the last one of its type. -/
theorem KeepsLast.represents_iff {read : List Content} {contents : Contents} (h : KeepsLast read contents) :
    (∀ c ∈ read, Represents contents c) ↔ ∀ c ∈ read, ∀ last,
      (read.reverse.find? fun d => d.contentType = c.contentType) = some last → EqualSchemas last.schema c.schema := by
  constructor
  · intro hall c hc last hlast
    obtain ⟨kept, hkept, hsame⟩ := hall c hc
    rw [h.last, hlast] at hkept
    rwa [← Option.some.inj hkept] at hsame
  · intro hall c hc
    -- the content itself is one of its type, so there is a last one
    have hsome : (read.reverse.find? fun d => d.contentType = c.contentType).isSome :=
      List.find?_isSome.2 ⟨c, List.mem_reverse.2 hc, by simp⟩
    obtain ⟨last, hlast⟩ := Option.isSome_iff_exists.1 hsome
    exact ⟨last, by rw [h.last, hlast], hall c hc last hlast⟩

theorem readContents_reads (content : Mapping) :
    (readContents required modelName content).Leaves fun contents s => ∃ entries found,
      List.Forall₂ content.Holds content.keys entries ∧
      List.Forall₂ (fun e o => EntryRead required modelName e s o) entries found ∧
      KeepsLast (found.filterMap id) contents := by
  have hentries : (liftM content.mappingEntries : Building _).Gives fun entries =>
      List.Forall₂ content.Holds content.keys entries := fun _ _ _ hrun => (Building.run_mappingEntries.1 hrun).1
  unfold readContents
  refine Leaves.given (Leaves.silent (.of_reading _) hentries) fun entries hentries => ?_
  refine Leaves.bind (fun found s t hgrows h => h.imp fun e o => EntryRead.kept e o s t hgrows)
    (Leaves.mapM EntryRead.kept fun e _ => readContent_reads e) fun found => .pure fun s hfound => ?_
  exact ⟨entries, found, hentries, hfound, keepsLast_putAll _⟩

/-- **What is kept of the contents of a body.** Each entry with a schema is read as a content of its type, with that
schema or the reference to the model that was made of it; all objects that are no forms have the properties of one
model. Of the contents of one type only the last is kept, so every entry is represented just if each has the schema of
the last entry of its type. -/
theorem contents_of_readContents {content : Mapping} {contents : Contents} {session after : Session}
    (h : (readContents required modelName content).run.run session = (.ok contents, after)) :
    ∃ entries found, List.Forall₂ content.Holds content.keys entries ∧
      List.Forall₂ (fun e o => EntryRead required modelName e after.spec o) entries found ∧
      KeepsLast (found.filterMap id) contents ∧
      ((∀ c ∈ found.filterMap id, Represents contents c) ↔ ∀ c ∈ found.filterMap id, ∀ last,
        ((found.filterMap id).reverse.find? fun d => d.contentType = c.contentType) = some last →
          EqualSchemas last.schema c.schema) := by
  obtain ⟨-, entries, found, hentries, hfound, hkeeps⟩ := readContents_reads content session contents after h
  exact ⟨entries, found, hentries, hfound, hkeeps, hkeeps.represents_iff⟩

/-! ## §3. Two versions of one type. -/

namespace Versions

open Listing (members)

/-- A body in two versions of JSON, each with a schema, and in plain text. -/
def node (first second : Node) : Node :=
  members [("application/json; v=1", members [("schema", first)]), ("text/plain", members []),
    ("application/json; v=2", members [("schema", second)])]

/-- A schema of a primitive type. -/
def typed (type : String) : Node := members [("type", .string type)]

/-- The document of these contents, which stand at its root. -/
def document (first second : Node) : Document where
  source := ⟨"", "api.yaml"⟩
  format := .yaml
  root := node first second

/-- The contents of the document. -/
def content (first second : Node) : Mapping := ⟨document first second, node first second, []⟩

/-- The entry of the first version. -/
def firstEntry (first second : Node) : Mapping :=
  ⟨document first second, members [("schema", first)], ["application/json; v=1"]⟩

/-- The schema of the first version. -/
def firstSchema (first second : Node) : Mapping :=
  ⟨document first second, first, ["application/json; v=1", "schema"]⟩

/-- The types of contents, with those of the schemas that are primitive. -/
def types (contents : Contents) : List (String × Option String) :=
  contents.map fun e => (e.1, e.2.schema.primitive?.map Primitive.typeName)

/-- Reading the contents from a session in which nothing was declared. -/
def run (first second : Node) : Except Error Contents × Session :=
  (readContents true "PetsGet200Response" (content first second)).run.run ⟨.none, .empty "api.yaml", []⟩

end Versions

open Versions in
/-- Of two versions with one schema the later is kept, and nothing is lost. -/
theorem contents_of_versions :
    ∃ contents after, run (typed "string") (typed "string") = (.ok contents, after) ∧
      types contents = [("application/json", some "string")] ∧
      ∃ entries found, List.Forall₂ (content (typed "string") (typed "string")).Holds
          ["application/json; v=1", "text/plain", "application/json; v=2"] entries ∧
        List.Forall₂ (fun e o => EntryRead true "PetsGet200Response" e after.spec o) entries found ∧
        KeepsLast (found.filterMap id) contents := by
  cases hrun : run (typed "string") (typed "string") with
  | mk result after =>
    have htypes : ((run (typed "string") (typed "string")).1.map types).toOption =
        some [("application/json", some "string")] := by decide +kernel
    rw [hrun] at htypes
    obtain ⟨contents, rfl, hcontents⟩ := Outcome.exists_of_map htypes
    obtain ⟨entries, found, hentries, hfound, hkeeps, -⟩ := contents_of_readContents hrun
    exact ⟨contents, after, rfl, hcontents, entries, found, hentries, hfound, hkeeps⟩

open Versions in
/-- Of two versions with different schemas the first is lost, though both were read. -/
theorem body_lost :
    ∃ contents after, run (typed "string") (typed "integer") = (.ok contents, after) ∧
      (content (typed "string") (typed "integer")).Holds "application/json; v=1"
        ("application/json; v=1", firstEntry (typed "string") (typed "integer")) ∧
      (firstEntry (typed "string") (typed "integer")).Holds "schema"
        ("schema", firstSchema (typed "string") (typed "integer")) ∧
      (readSchema (.ofModel "PetsGet200Response") (firstSchema (typed "string") (typed "integer"))).outcome =
        .ok (.primitive ⟨"string", none⟩) ∧
      ∃ kept, Keyed.value? (essence "application/json; v=1") contents = some kept ∧
        ¬ EqualSchemas kept.schema (.primitive ⟨"string", none⟩) := by
  have hfirst : ((readSchema (.ofModel "PetsGet200Response") (firstSchema (typed "string") (typed "integer"))).outcome.map
      Schema.primitive?).toOption = some (some ⟨"string", none⟩) := by decide +kernel
  have hcontents : ((run (typed "string") (typed "integer")).1.map fun contents =>
      (Keyed.value? (essence "application/json; v=1") contents).bind fun c => c.schema.primitive?).toOption =
      some (some ⟨"integer", none⟩) := by decide +kernel
  -- the two evaluations only tell the primitive types, so the schemas themselves are recovered from them
  obtain ⟨schema, hread, hschema⟩ := Outcome.exists_of_map hfirst
  rw [Schema.primitive?_eq_some.1 hschema] at hread
  cases hrun : run (typed "string") (typed "integer") with
  | mk result after =>
    rw [hrun] at hcontents
    obtain ⟨contents, rfl, hkept⟩ := Outcome.exists_of_map hcontents
    obtain ⟨kept, hvalue, hinteger⟩ := Option.bind_eq_some_iff.1 hkept
    refine ⟨contents, after, rfl, ⟨rfl, rfl, rfl, rfl, rfl⟩, ⟨rfl, rfl, rfl, rfl, rfl⟩, hread, kept, hvalue, ?_⟩
    rw [Schema.primitive?_eq_some.1 hinteger]
    rintro (hsame | hsame)
    · exact absurd hsame (by simp)
    · exact absurd hsame (by decide)

end Build

end OpenApi
