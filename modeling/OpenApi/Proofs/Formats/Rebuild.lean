/-
  OpenApi.Proofs.Formats.Rebuild — YAML and JSON documents behave alike.

  A build from the one text of a tree looks at the same documents, in the same order, as a build from the other text,
  and reads them alike. So both give the same spec, or errors that differ in lines alone. Nor can the documents be
  told apart by asking about them. Main statement: `alike_of_tree`.
-/
import OpenApi.Proofs.Formats.Queries
import OpenApi.Proofs.Pairs.Rebuild

namespace OpenApi

/-! ## §1. Documents and loaders. -/

/-- The document is the same, or it holds the same tree in the other format. -/
inductive Document.Rewritten (d d' : Document) : Prop
  | same (h : d = d')
  | toJson (t : Tree) (h : OfTree t d d')
  | toYaml (t : Tree) (h : OfTree t d' d)

theorem Document.Rewritten.twin {d d' : Document} (h : d.Rewritten d') : d.Twin d' := by
  cases h with
  | same h => exact h ▸ .refl d
  | toJson t h => exact h.twin
  | toYaml t h => exact ⟨h.twin.filename.symm, h.twin.root.symm⟩

/-- Under each name the loaders serve documents of which the one is the other rewritten, or alike errors. -/
structure Loader.Rewritten (loader loader' : Loader) : Prop where
  size : loader'.size = loader.size
  load : ∀ name, Both Error.Alike Document.Rewritten (loader.load name).2 (loader'.load name).2

/-- Documents in memory that are rewritten one by one. -/
theorem Loader.rewritten_memory {documents documents' : List (String × Except Error Document)}
    (h : List.Forall₂ (fun e e' => e'.1 = e.1 ∧ Both Error.Alike Document.Rewritten e.2 e'.2) documents documents') :
    (Loader.memory documents).Rewritten (Loader.memory documents') where
  size := h.length_eq.symm
  load name := by
    have hvalue := Keyed.value?_rel (R := fun _ => Both Error.Alike Document.Rewritten) h name
    unfold Loader.memory
    dsimp only
    generalize Keyed.value? name documents = found at hvalue ⊢
    generalize Keyed.value? name documents' = found' at hvalue ⊢
    cases hvalue with
    | some hd => exact hd
    | none => exact .error (.refl _)

/-- Documents that are rewritten are read as equal ones in whatever role. -/
theorem Loader.Rewritten.loaders {loader loader' : Loader} (h : loader.Rewritten loader') (entry : String) :
    Pairing.twins.Loaders entry loader loader' where
  size := h.size
  first := (h.load entry).mono fun _ _ hd => hd.twin.documents .entry
  others name _ := (h.load name).mono fun _ _ hd => hd.twin.documents .foreign

/-- Strict checks find the same keys unread. -/
theorem Pairing.leavesSame_twins : Pairing.twins.LeavesSame := by
  intro r d d' u u' hd hu
  have hroot : d'.root = d.root := hd.root
  have hmarks : u' = u := hu
  unfold Document.checkUnused
  rw [hroot, hmarks]
  split
  next => exact .ok rfl
  next => exact .error (Source.unusedKeys_alike hd.filename _)

namespace Build

/-! ## §2. Builds. -/

theorem build_alike {loader loader' : Loader} (hloader : loader.Rewritten loader') (options : Options)
    (entry : String) : Both Error.Alike Eq (build loader options entry).2 (build loader' options entry).2 :=
  build_both (hloader.loaders entry) fun _ => Pairing.leavesSame_twins

/-- **YAML and JSON documents behave alike.** Two documents of one tree and one name answer all questions in the
same way, whatever was asked before, and leave the same keys unread. Builds from documents that were rewritten in
the other format give the same spec, or errors of the same class that point at the same places and tell the same but
for lines. -/
theorem alike_of_tree :
    (∀ {t : Tree} {d d' : Document}, Document.OfTree t d d' →
      ∀ queries, d'.interview queries = d.interview queries) ∧
    ∀ {loader loader' : Loader}, loader.Rewritten loader' → ∀ options entry,
      (∃ spec, (build loader options entry).2 = .ok spec ∧ (build loader' options entry).2 = .ok spec) ∨
        ∃ e e', (build loader options entry).2 = .error e ∧ (build loader' options entry).2 = .error e' ∧
          e.errorClass = e'.errorClass ∧ e.pointers = e'.pointers ∧ e.Alike e' := by
  refine ⟨fun h queries => h.twin.interview queries, fun {loader loader'} hloader options entry => ?_⟩
  have halike := build_alike hloader options entry
  generalize (build loader options entry).2 = result at halike ⊢
  generalize (build loader' options entry).2 = result' at halike ⊢
  cases halike with
  | ok hspec => exact .inl ⟨_, rfl, congrArg Except.ok hspec.symm⟩
  | error he => exact .inr ⟨_, _, rfl, rfl, he.errorClass, he.pointers, he⟩

namespace Harbor

/-- A server without its URL. -/
def tree : Tree := .mapping [("servers", .sequence [.mapping [("name", .string "b")]])]

def yamlText : String := "servers:\n- name: b\n"

/-- The same with the key in the second line. -/
def jsonText : String := "\x7b\n\"servers\":[\x7b\"name\":\"b\"\x7d]\x7d"

def yaml : Document := ⟨⟨yamlText, "api"⟩, .yaml, .ofYaml tree.toYaml⟩

def json : Document := ⟨⟨jsonText, "api"⟩, .json, .ofJson tree.toJson⟩

/-- The loader for one document. -/
def serving (d : Document) : Loader := .memory [("api", .ok d)]

theorem parse_yaml : Document.parseAs yamlText "api" .yaml = .ok yaml := by
  have htree : Yaml.parse yamlText = some tree.toYaml := Tree.eq_some_of_any_isYaml (by decide +kernel)
  unfold Document.parseAs Document.tree?
  rw [htree]
  rfl

theorem parse_json : Document.parseAs jsonText "api" .json = .ok json := by
  have htree : Json.parse jsonText = some tree.toJson := by cbv
  unfold Document.parseAs Document.tree?
  rw [htree]
  rfl

theorem ofTree : Document.OfTree tree yaml json := ⟨rfl, rfl, rfl⟩

theorem rewritten : (serving yaml).Rewritten (serving json) :=
  Loader.rewritten_memory (.cons ⟨rfl, .ok (.toJson tree ofTree)⟩ .nil)

/-- The error about the missing URL, in a line and with a span. -/
def missing (line : Nat) (span : Span) : Error :=
  ⟨.missingField "url" ["name"] ⟨"api", "servers/0", some line⟩, some span⟩

end Harbor

/-- Two texts of one tree, read in their formats: questions are answered alike, and both builds miss the same key, the
one in the first line and the other in the second. -/
theorem alike_of_tree_of_harbor :
    Document.parseAs Harbor.yamlText "api" .yaml = .ok Harbor.yaml ∧
      Document.parseAs Harbor.jsonText "api" .json = .ok Harbor.json ∧
      Document.OfTree Harbor.tree Harbor.yaml Harbor.json ∧
      (∀ queries, Harbor.json.interview queries = Harbor.yaml.interview queries) ∧
      (Harbor.serving Harbor.yaml).Rewritten (Harbor.serving Harbor.json) ∧
      ∃ e e', (build (Harbor.serving Harbor.yaml) {} "api").2 = .error e ∧
        (build (Harbor.serving Harbor.json) {} "api").2 = .error e' ∧
        e.errorClass = e'.errorClass ∧ e.pointers = e'.pointers ∧ e.Alike e' ∧
        e = Harbor.missing 1 ⟨0, 7⟩ ∧ e' = Harbor.missing 2 ⟨2, 9⟩ := by
  have hyaml : (build (Harbor.serving Harbor.yaml) {} "api").2.map (fun _ => ()) =
      .error (Harbor.missing 1 ⟨0, 7⟩) := by decide +kernel
  have hjson : (build (Harbor.serving Harbor.json) {} "api").2.map (fun _ => ()) =
      .error (Harbor.missing 2 ⟨2, 9⟩) := by decide +kernel
  refine ⟨Harbor.parse_yaml, Harbor.parse_json, Harbor.ofTree, alike_of_tree.1 Harbor.ofTree, Harbor.rewritten, ?_⟩
  -- the builds fail, so it is the second case, and the evaluated errors are the ones it speaks of
  rcases alike_of_tree.2 Harbor.rewritten {} "api" with ⟨spec, hspec, -⟩ | ⟨e, e', he, he', hclass, hpointers, halike⟩
  · rw [hspec] at hyaml
    exact absurd hyaml nofun
  · rw [he] at hyaml
    rw [he'] at hjson
    exact ⟨e, e', he, he', hclass, hpointers, halike, Except.error.inj hyaml, Except.error.inj hjson⟩

end Build

end OpenApi
