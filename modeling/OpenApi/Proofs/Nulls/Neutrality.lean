/-
  OpenApi.Proofs.Nulls.Neutrality — an explicit null reads as missing.

  Where null does not show, a document with nulls more is built like the one without them. Null shows with the keys
  whose presence decides what a schema is: `properties`, `enum`, `allOf` and `oneOf` of a named schema, `$ref`,
  `properties` and the compositions of a schema without a name, `$ref`, `properties` and `required` of a member of an
  allOf. It also shows with any key in the schema of the values of a map that has no other key, and with any key that is
  not inert in a member with none but inert keys (`null_shows`). Main statement: `build_ok_iff_of_nulls`.
-/
import OpenApi.Proofs.Build.Results
import OpenApi.Proofs.Build.Validation
import OpenApi.Proofs.Nulls.Added
import OpenApi.Proofs.Pairs.Rebuild

namespace OpenApi

namespace Build

/-- **Null reads as missing where it does not show.** Giving mappings of documents further keys with null under them,
where their roles read that as absent, changes neither whether a build without strictness succeeds nor the spec that it
gives. -/
theorem build_ok_iff_of_nulls {loader loader' : Loader} {entry : String}
    (h : Pairing.nulls.Loaders entry loader loader') {options : Options} (hlenient : options.strict = false) (s : Spec) :
    (build loader options entry).2 = .ok s ↔ (build loader' options entry).2 = .ok s := by
  have hunused : options.strict = true → Pairing.nulls.LeavesSame := fun hstrict =>
    absurd (hlenient.symm.trans hstrict) nofun
  exact (build_both h hunused).ok_iff s

/-! ## §1. Nulls that do not show. -/

namespace Nulled

open Listing (members)

/-- The loader for one document. -/
def serving (root : Node) : Loader := .memory [("api", .ok ⟨⟨"", "api"⟩, .yaml, root⟩)]

/-- A document with named schemas. -/
def schemas (entries : List (String × Node)) : Node :=
  members [("components", members [("schemas", members entries)])]

/-- A schema of texts. -/
def text (more : List (String × Node)) : Node := members (("type", .string "string") :: more)

/-- A named schema, one of its properties, and a member of an allOf, each with entries more. -/
def pets (inModel inProperty inMember : List (String × Node)) : Node :=
  schemas [("Pet", members (("properties", members [("name", text inProperty)]) :: inModel)),
    ("Cat", members [("allOf", .sequence [members (("$ref", .string "#/components/schemas/Pet") :: inMember)])])]

theorem nullAdded_last {r : Role} (entries : List (String × Node)) {key : String}
    (hnew : key ∉ (members entries).keys) (hpasses : r.passesNull (members entries).keys key = true) :
    Node.NullAdded r (members entries) (members (entries ++ [(key, .null)])) := by
  have hadded := @Node.NullAdded.here r (entries.map fun e => (Key.ofText e.1, e.2)) [] (.ofText key) key .null rfl rfl
    (by rwa [List.append_nil]) (by rwa [List.append_nil])
  unfold members
  rw [List.append_nil] at hadded
  rwa [List.map_append]

theorem nullAdded_under {r : Role} (before after : List (String × Node)) {key : String} {n n' : Node}
    (h : Node.NullAdded (r.under key) n n') :
    Node.NullAdded r (members (before ++ (key, n) :: after)) (members (before ++ (key, n') :: after)) := by
  unfold members
  rw [List.map_append, List.map_append]
  exact .entry rfl h

theorem nullAdded_schemas (before after : List (String × Node)) {name : String} {n n' : Node}
    (h : Node.NullAdded .model n n') :
    Node.NullAdded .entry (schemas (before ++ (name, n) :: after)) (schemas (before ++ (name, n') :: after)) := by
  have hschemas : Node.NullAdded .components (members [("schemas", members (before ++ (name, n) :: after))])
      (members [("schemas", members (before ++ (name, n') :: after))]) :=
    nullAdded_under [] [] (nullAdded_under before after h)
  exact nullAdded_under [] [] hschemas

/-- The description, the enumeration of the property and the flag of the member are null. -/
theorem nullsAdded_pets : Node.NullsAdded .entry (pets [] [] [])
    (pets [("description", .null)] [("enum", .null)] [("nullable", .null)]) := by
  have hmodel : Node.NullAdded .entry (pets [] [] []) (pets [("description", .null)] [] []) :=
    nullAdded_schemas [] _ (nullAdded_last _ (by decide) (by decide))
  have hproperty : Node.NullAdded .entry (pets [("description", .null)] [] [])
      (pets [("description", .null)] [("enum", .null)] []) := by
    have htext : Node.NullAdded (.schema false) (text []) (text [("enum", .null)]) :=
      nullAdded_last [("type", .string "string")] (by decide) (by decide)
    have hname : Node.NullAdded (.table (.schema false)) (members [("name", text [])])
        (members [("name", text [("enum", .null)])]) := nullAdded_under [] [] htext
    exact nullAdded_schemas [] _ (nullAdded_under [] _ hname)
  have hmember : Node.NullAdded .entry (pets [("description", .null)] [("enum", .null)] [])
      (pets [("description", .null)] [("enum", .null)] [("nullable", .null)]) := by
    have hlink : Node.NullAdded .member (members [("$ref", .string "#/components/schemas/Pet")])
        (members [("$ref", .string "#/components/schemas/Pet"), ("nullable", .null)]) :=
      nullAdded_last [_] (by decide) (by decide)
    have hitems := @Node.NullAdded.item .member [] [] _ _ hlink
    exact nullAdded_schemas [_] [] (nullAdded_under [] [] hitems)
  exact .tail (.tail (.single hmodel) hproperty) hmember

theorem loaders_serving {root root' : Node} (h : Node.NullsAdded .entry root root') :
    Pairing.nulls.Loaders "api" (serving root) (serving root') where
  size := rfl
  first := .ok ⟨rfl, h⟩
  others name hname := by
    have hnone : ∀ root, ((serving root).load name).2 = .error (Loader.readError name) := fun root => by
      simp [serving, Loader.memory, Keyed.value?, Keyed.find?, hname.symm]
    rw [hnone, hnone]
    exact .error rfl

end Nulled

/-- With three nulls more the same spec is built. -/
theorem build_ok_iff_of_pets :
    ∃ s, (build (Nulled.serving (Nulled.pets [] [] [])) {} "api").2 = .ok s ∧
      (build (Nulled.serving (Nulled.pets [("description", .null)] [("enum", .null)] [("nullable", .null)])) {} "api").2 =
        .ok s := by
  obtain ⟨s, hs⟩ := Outcome.isOk_iff.1 (show
    (build (Nulled.serving (Nulled.pets [] [] [])) {} "api").2.isOk = true by decide +kernel)
  exact ⟨s, hs, (build_ok_iff_of_nulls (Nulled.loaders_serving Nulled.nullsAdded_pets) rfl s).1 hs⟩

/-! ## §2. Nulls that show. -/

namespace Nulled

open Listing (members)

/-- The keywords of schemas. -/
def keywords : List String :=
  ["$ref", "enum", "properties", "additionalProperties", "allOf", "oneOf", "anyOf", "not", "type", "format", "items",
   "required", "discriminator", "readOnly", "writeOnly", "nullable", "uniqueItems", "minItems", "maxItems",
   "description", "example"]

/-- A document with a named array, with entries more. -/
def named (more : List (String × Node)) : Node :=
  schemas [("Pets", members (("type", .string "array") :: ("items", text []) :: more))]

/-- A document with a property that is a text, with entries more. -/
def property (more : List (String × Node)) : Node :=
  schemas [("Pet", members [("properties", members [("name", text more)])])]

/-- A document with a map whose values have these entries. -/
def mapped (entries : List (String × Node)) : Node :=
  schemas [("Pet", members [("properties", members [("tags", members [("additionalProperties", members entries)])])])]

/-- A document with a member of an allOf that has one entry, and more. -/
def member (first : String × Node) (more : List (String × Node)) : Node :=
  schemas [("Cat", members [("allOf", .sequence [members (first :: more)])])]

/-- The document is built otherwise, if at all, with null under the keyword than without it. -/
def Shows (document : List (String × Node) → Node) (keyword : String) : Prop :=
  ¬ ∀ s, (build (serving (document [])) {} "api").2 = .ok s ↔
    (build (serving (document [(keyword, .null)])) {} "api").2 = .ok s

/-- The type of a schema that is primitive, or of the values of a map. -/
def primitiveIn : Schema → Option Primitive
  | .record values => values.primitive?
  | c => c.primitive?

/-- What tells models apart: their kinds, the types of the properties of one, and the number of objects in an allOf. -/
def told (s : Spec) : List (ModelKind × List (Option Primitive) × Nat) :=
  s.models.map fun d => match d.model with
    | .generic g => (d.model.kind, g.properties.map fun p => primitiveIn p.schema, 0)
    | .allOf a => (d.model.kind, [], a.inlineSupers.length)
    | _ => (d.model.kind, [], 0)

/-- What is told of the spec of a document, if there is one. -/
def tells (root : Node) : Option (List (ModelKind × List (Option Primitive) × Nat)) :=
  ((build (serving root) {} "api").2.map told).toOption

/-- Is something else told of the document with null under the keyword? -/
def tellsApart (document : List (String × Node) → Node) (keyword : String) : Bool :=
  tells (document []) ≠ tells (document [(keyword, .null)])

theorem shows_of_tellsApart {document : List (String × Node) → Node} {keyword : String}
    (h : tellsApart document keyword = true) : Shows document keyword := by
  intro hsame
  refine of_decide_eq_true h ?_
  unfold tells
  cases hwithout : (build (serving (document [])) {} "api").2 with
  | ok s => rw [(hsame s).1 hwithout]
  | error e =>
    cases hwith : (build (serving (document [(keyword, .null)])) {} "api").2 with
    | ok s => exact absurd (hwithout.symm.trans ((hsame s).2 hwith)) nofun
    | error e' => rfl

theorem all_show {document : List (String × Node) → Node} {keywords : List String}
    (h : keywords.all (tellsApart document) = true) : ∀ keyword ∈ keywords, Shows document keyword :=
  fun keyword hkeyword => shows_of_tellsApart (List.all_eq_true.1 h keyword hkeyword)

end Nulled

open Nulled in
/-- **Null shows** with the keys whose presence decides what a named schema, a schema without a name or a member of an
allOf is, with any keyword in an empty schema of the values of a map, and with any keyword that is not inert in a member
with none but inert keys. -/
theorem null_shows :
    (∀ keyword ∈ ["properties", "enum", "allOf", "oneOf"], Shows named keyword) ∧
    (∀ keyword ∈ ["$ref", "properties", "allOf", "oneOf", "anyOf", "not"], Shows property keyword) ∧
    (∀ keyword ∈ keywords, Shows mapped keyword) ∧
    (∀ keyword ∈ keywords.filter fun key => !("required" :: inertKeys).contains key,
      Shows (member ("title", .string "t")) keyword) ∧
    Shows (member ("nullable", .bool true)) "required" :=
  ⟨all_show (by decide +kernel), all_show (by decide +kernel), all_show (by decide +kernel),
    all_show (by decide +kernel), shows_of_tellsApart (by decide +kernel)⟩

end Build

end OpenApi
