/-
  OpenApi.Proofs.Extensions.Neutrality — vendor extensions are neutral.

  Trees belong together if they are the same without the extensions that do not show. Builds from such documents give
  the same spec, or fail both, in strict mode as well. So extensions may be added to any mapping whose role hides them.
  They show in the tables of paths and responses, in the schema of the values of a map that is empty without them, and
  in a member of an allOf with none but inert keys. Main statement: `build_ok_iff_of_extended`.
-/
import OpenApi.Proofs.Build.Validation
import OpenApi.Proofs.Extensions.Marks
import OpenApi.Proofs.Pairs.Rebuild

namespace OpenApi

/-! ## §1. Trees with the same plain tree. -/

/-- The names that decide what a mapping is are no extensions. -/
theorem Role.isExtension_of_deciding {r : Role} {key : String} (h : key ∈ r.deciding) :
    Usage.isExtension key = false := by
  have hall : (r.deciding.all fun key => !Usage.isExtension key) = true := by
    cases r <;> rfl
  simpa using List.all_eq_true.1 hall key h

/-- Marks on components are the same but on extensions, if the plain mappings are. -/
theorem Usage.Agree.others {m m' : Mapping} {u u' : Usage} (h : u.Agree u') (key : String)
    (hnode : m'.node.plain .components = m.node.plain .components) (hpath : m'.path = m.path) :
    (m.passedOver (m.keys.filter fun k => k != key) u).Agree
      (m'.passedOver (m'.keys.filter fun k => k != key) u') := by
  have hfinds : ∀ k, isExtension k = false → m'.containsKey k = m.containsKey k :=
    fun k hk => Node.isSome_get?_of_plain hnode (.inr hk)
  have hkeys : (m'.keys.filter fun k => k != key).filter (fun k => !isExtension k) =
      (m.keys.filter fun k => k != key).filter (fun k => !isExtension k) := by
    have hplain : m'.keys.filter (fun k => !isExtension k) = m.keys.filter (fun k => !isExtension k) := by
      have hsame := congrArg Node.keys hnode
      rw [Node.keys_plain, Node.keys_plain] at hsame
      exact hsame
    rw [List.filter_comm, hplain, List.filter_comm]
  -- both pass over the same names that are no extensions
  have hleft := passedOver_agree m m rfl (fun _ _ => rfl) (m.keys.filter fun k => k != key) h
  have hright := passedOver_agree m' m hpath.symm (fun k hk => (hfinds k hk).symm)
    (m'.keys.filter fun k => k != key) (.refl u')
  rw [hkeys] at hright
  exact hleft.trans hright.symm

/-- Nodes belong together if they have the same plain tree, and errors if they are of one class. -/
def Pairing.plain : Pairing where
  nodes r n n' := n'.plain r = n.plain r
  marks := Usage.Agree
  errors e e' := e'.errorClass = e.errorClass
  kind h := by rw [← Node.kind_plain, h, Node.kind_plain]
  scalarText h := by rw [← Node.scalarText_plain, h, Node.scalarText_plain]
  boolean? h := by rw [← Node.boolean?_plain, h, Node.boolean?_plain]
  json h := by
    rw [Node.plain_exact, Node.plain_exact] at h
    rw [h]
  items h := by
    have hitems := congrArg Node.items h
    rw [Node.items_plain, Node.items_plain, ← List.forall₂_eq_eq_eq, List.forall₂_map_left_iff,
      List.forall₂_map_right_iff] at hitems
    exact hitems.flip
  get? {r n n' key} h hkey := by
    have hget := congrArg (fun n => n.get? key) h
    rw [Node.get?_plain_of_finds hkey, Node.get?_plain_of_finds hkey] at hget
    cases hn : n.get? key with
    | none =>
      rw [hn, Option.map_none, Option.map_eq_none_iff] at hget
      exact .inr ⟨nofun, by rw [hget]; exact nofun⟩
    | some c =>
      rw [hn, Option.map_some, Option.map_eq_some_iff] at hget
      obtain ⟨c', hn', hc⟩ := hget
      exact .inl ⟨c, c', rfl, hn', hc⟩
  there h hkey := .inl (Node.isSome_get?_of_plain h hkey)
  decided h hkey := Node.isSome_get?_of_plain h (.inr (Role.isExtension_of_deciding hkey))
  listed h hlisted := by rw [← Node.keys_plain_of_listed hlisted, h, Node.keys_plain_of_listed hlisted]
  isEmpty h := by rw [← Node.isEmpty_keys_plain, h, Node.isEmpty_keys_plain]
  inert h := by
    rw [← Node.all_keys_plain (r := .member) (fun _ => rfl), h, Node.all_keys_plain (fun _ => rfl)]
  methods h := by rw [← Node.methods_plain, h, Node.methods_plain]
  unmarked := .refl _
  markRead path h := h.markRead path
  markSealed path h := h.markSealed path
  others key hnode hpath h := h.others key hnode hpath
  alike := Error.Alike.sameClass
  missing path key _ _ := Source.errorClass_missingField path key
  errorClass h := h

/-- The same keys are unused in trees with the same plain tree. -/
theorem Pairing.leavesSame_plain : Pairing.plain.LeavesSame := by
  intro r d d' u u' hd hu
  have hsame : ∀ p, p ∈ u.unused d.root ↔ p ∈ u'.unused d'.root := by
    intro p
    have hroot : d'.root.plain r = d.root.plain r := hd.root
    show p ∈ u.unusedBelow [] d.root ↔ p ∈ u'.unusedBelow [] d'.root
    rw [← Usage.mem_unusedBelow_plain (.refl u) d.root Usage.named_nil (r := r), ← hroot,
      Usage.mem_unusedBelow_plain hu.symm d'.root Usage.named_nil]
  unfold Document.checkUnused
  generalize u.unused d.root = paths at hsame ⊢
  generalize u'.unused d'.root = paths' at hsame ⊢
  cases paths with
  | nil =>
    rw [List.eq_nil_iff_forall_not_mem.2 fun p hp => List.not_mem_nil ((hsame p).2 hp)]
    exact .ok rfl
  | cons path paths =>
    cases paths' with
    | nil => exact absurd ((hsame path).1 List.mem_cons_self) List.not_mem_nil
    | cons path' paths' => exact .error rfl

/-! ## §2. Adding extensions to documents. -/

/-- The second document has the name of the first one, and its tree with any number of extensions added. -/
structure Document.Extended (r : Role) (d d' : Document) : Prop where
  filename : d'.filename = d.filename
  root : Relation.ReflTransGen (Node.Extended r) d.root d'.root

/-- The second result is the document of the first one with extensions added, or both are the same error. -/
inductive Document.ExtendedResult (r : Role) : Except Error Document → Except Error Document → Prop
  | ok {d d' : Document} (h : d.Extended r d') : ExtendedResult r (.ok d) (.ok d')
  | error (e : Error) : ExtendedResult r (.error e) (.error e)

/-- The second loader serves the documents of the first one with extensions added: to the entry document, of which
everything is read, and to the others, of which only the schemas are. -/
structure Loader.Extended (entry : String) (loader loader' : Loader) : Prop where
  size : loader'.size = loader.size
  first : Document.ExtendedResult .entry (loader.load entry).2 (loader'.load entry).2
  others : ∀ name, name ≠ entry → Document.ExtendedResult .foreign (loader.load name).2 (loader'.load name).2

theorem Document.ExtendedResult.served {r : Role} {x x' : Except Error Document} (h : Document.ExtendedResult r x x') :
    Both Pairing.plain.errors (Pairing.plain.Documents r) x x' := by
  cases h with
  | ok h => exact .ok ⟨h.filename, Node.plain_of_extensions h.root⟩
  | error e => exact .error rfl

theorem Loader.Extended.loaders {entry : String} {loader loader' : Loader} (h : loader.Extended entry loader') :
    Pairing.plain.Loaders entry loader loader' where
  size := h.size
  first := h.first.served
  others name hname := (h.others name hname).served

namespace Build

/-- **Vendor extensions are neutral.** Adding extensions to the mappings of documents whose roles hide them changes
neither whether a build succeeds nor the spec that it gives, whatever the options. -/
theorem build_ok_iff_of_extended {loader loader' : Loader} {entry : String} (h : loader.Extended entry loader')
    (options : Options) (s : Spec) :
    (build loader options entry).2 = .ok s ↔ (build loader' options entry).2 = .ok s :=
  (build_both h.loaders fun _ => Pairing.leavesSame_plain).ok_iff s

namespace Noted

open Listing (members)

/-- An extension. -/
def note : String × Node := ("x-note", .string "n")

/-- The loader for one document. -/
def serving (root : Node) : Loader := .memory [("api", .ok ⟨⟨"", "api"⟩, .yaml, root⟩)]

/-- A document with extensions at its root and in its only schema. -/
def pets (atRoot inSchema : List (String × Node)) : Node :=
  members ([("components", members [("schemas", members [("Pet", members
    (("properties", members [("name", members [("type", .string "string")])]) :: inSchema))])])] ++ atRoot)

theorem extended_pets : Relation.ReflTransGen (Node.Extended .entry) (pets [] []) (pets [note] [note]) := by
  have hroot : Node.Extended .entry (pets [] []) (pets [note] []) :=
    @Node.Extended.here .entry [_] [] (.ofText "x-note") _ note.2 rfl rfl rfl
  have hmodel : ∀ entry, Node.Extended .model (.mapping [entry]) (.mapping [entry, (.ofText note.1, note.2)]) :=
    fun entry => @Node.Extended.here .model [entry] [] (.ofText "x-note") _ note.2 rfl rfl rfl
  have hschema : Node.Extended .entry (pets [note] []) (pets [note] [note]) :=
    @Node.Extended.entry .entry [] [_] (.ofText "components") _ _ _ rfl
      (@Node.Extended.entry .components [] [] (.ofText "schemas") _ _ _ rfl
        (@Node.Extended.entry (.table .model) [] [] (.ofText "Pet") _ _ _ rfl (hmodel _)))
  exact .tail (.single hroot) hschema

theorem extended_serving {root root' : Node} (h : Relation.ReflTransGen (Node.Extended .entry) root root') :
    (serving root).Extended "api" (serving root') where
  size := rfl
  first := .ok ⟨rfl, h⟩
  others name hname := by
    have hnone : ∀ root, ((serving root).load name).2 = .error (Loader.readError name) := fun root => by
      simp [serving, Loader.memory, Keyed.value?, Keyed.find?, hname.symm]
    rw [hnone, hnone]
    exact .error _

end Noted

/-- With two extensions more the same spec is built, in strict mode. -/
theorem build_ok_iff_of_noted :
    (Noted.serving (Noted.pets [] [])).Extended "api" (Noted.serving (Noted.pets [Noted.note] [Noted.note])) ∧
      ∃ s, (build (Noted.serving (Noted.pets [] [])) { strict := true } "api").2 = .ok s ∧
        (build (Noted.serving (Noted.pets [Noted.note] [Noted.note])) { strict := true } "api").2 = .ok s := by
  have hextended := Noted.extended_serving Noted.extended_pets
  obtain ⟨s, hs⟩ := Outcome.isOk_iff.1 (show
    (build (Noted.serving (Noted.pets [] [])) { strict := true } "api").2.isOk = true by decide +kernel)
  exact ⟨hextended, s, hs, (build_ok_iff_of_extended hextended _ s).1 hs⟩

/-! ## §3. Where extensions show. -/

namespace Noted

open Listing (members)

/-- A document with one named schema. -/
def schema (entries : List (String × Node)) : Node :=
  members [("components", members [("schemas", members [("Pet", members entries)])])]

/-- A document with entries among its paths. -/
def paths (entries : List (String × Node)) : Node := members [("paths", members entries)]

/-- A document with entries among the responses of an operation. -/
def responses (entries : List (String × Node)) : Node :=
  paths [("/pets", members [("get", members [("responses", members entries)])])]

/-- A document with entries in the schema of the values of a map. -/
def mapped (entries : List (String × Node)) : Node :=
  schema [("properties", members [("tags", members [("additionalProperties", members entries)])])]

/-- A document with entries beside the description of a member of an allOf. -/
def described (entries : List (String × Node)) : Node :=
  schema [("allOf", .sequence [members (("description", .string "d") :: entries)])]

/-- The document gives a spec without the extension, and none or another one with it. -/
def Breaks (document : List (String × Node) → Node) : Prop :=
  ∃ s, (build (serving (document [])) {} "api").2 = .ok s ∧ (build (serving (document [note])) {} "api").2 ≠ .ok s

theorem breaks_of_isOk {document : List (String × Node) → Node}
    (h : (build (serving (document [])) {} "api").2.isOk = true)
    (hnot : (build (serving (document [note])) {} "api").2.isOk = false) : Breaks document := by
  obtain ⟨s, hs⟩ := Outcome.isOk_iff.1 h
  refine ⟨s, hs, fun heq => ?_⟩
  rw [heq] at hnot
  exact absurd hnot (by simp [Except.isOk, Except.toBool])

end Noted

/-- An extension breaks a document among its paths, among responses, in an empty schema of the values of a map, and in a
member of an allOf that has no other key than a description. -/
theorem extension_shows :
    Noted.Breaks Noted.paths ∧ Noted.Breaks Noted.responses ∧ Noted.Breaks Noted.mapped ∧
      Noted.Breaks Noted.described :=
  ⟨Noted.breaks_of_isOk (by decide +kernel) (by decide +kernel),
    Noted.breaks_of_isOk (by decide +kernel) (by decide +kernel),
    Noted.breaks_of_isOk (by decide +kernel) (by decide +kernel),
    Noted.breaks_of_isOk (by decide +kernel) (by decide +kernel)⟩

end Build

end OpenApi
