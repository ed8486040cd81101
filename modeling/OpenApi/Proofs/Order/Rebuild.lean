/-
  OpenApi.Proofs.Order.Rebuild — the order in which schemas are declared does not matter.

  A build of documents whose schemas are declared in another order looks at the same documents in the same order,
  since the references are the same after each of them. The specs hold the same, and so the same checks pass.
  Main statement: `build_reordered`.
-/
import OpenApi.Proofs.Build.Visits
import OpenApi.Proofs.Order.DocumentReaders
import OpenApi.Proofs.Strictness.Rebuild

namespace OpenApi

/-! ## §1. Reordered documents. -/

theorem Document.Reordered.refl (d : Document) : d.Reordered d := ⟨rfl, .inl rfl⟩

theorem Document.Reordered.symm {d d' : Document} (h : d.Reordered d') : d'.Reordered d :=
  ⟨h.filename.symm, h.root.imp Eq.symm (Node.Alters.symm fun _ _ => Node.Alters.symm fun _ _ => Node.Reorders.symm)⟩

/-- Where no two schemas of the one document share a key, no two of the other do. -/
theorem Document.Reordered.schemasDistinct {d d' : Document} (h : d.Reordered d')
    (hd : d.root.SchemasDistinct) : d'.root.SchemasDistinct := by
  intro components' schemas' hcomponents' hschemas'
  rcases h.symm.root with hsame | hroot
  · rw [← hsame] at hcomponents'
    exact hd components' schemas' hcomponents' hschemas'
  · obtain ⟨components, hcomponents, hvalue⟩ := hroot.get? hcomponents'
    rcases hvalue with rfl | ⟨-, halters⟩
    · exact hd components schemas' hcomponents hschemas'
    · obtain ⟨schemas, hschemas, hvalue⟩ := halters.get? hschemas'
      have hnodup := hd components schemas hcomponents hschemas
      rcases hvalue with rfl | ⟨-, hreorders⟩
      · exact hnodup
      · exact hreorders.keys.symm.nodup_iff.1 hnodup

/-- The second loader serves the documents of the first one with their schemas declared in another order. -/
structure Loader.Reordered (loader loader' : Loader) : Prop where
  size : loader'.size = loader.size
  served : ∀ name d, (loader.load name).2 = .ok d → ∃ d', (loader'.load name).2 = .ok d' ∧ d.Reordered d'
  missing : ∀ name e, (loader.load name).2 = .error e → e.errorClass = .io →
    ∃ e', (loader'.load name).2 = .error e' ∧ e'.errorClass = .io

namespace Build

open Building (Carried)

variable {loader loader' : Loader} {options : Options} {entry : String}

/-! ## §2. Loops. -/

/-- The second build has looked at the documents of the first one, with their schemas declared in another order. -/
structure Visited.Alike (v v' : Visited) : Prop where
  names : v'.names = v.names
  documents : List.Forall₂ (fun e e' => e.1.Reordered e'.1 ∧ e.2.Same e'.2 ∧ e.1.root.SchemasDistinct) v.documents
    v'.documents

theorem Visited.Alike.add {v v' : Visited} {d d' : Document} {u u' : Usage} (hv : v.Alike v') (name : String)
    (hd : d.Reordered d') (hu : u.Same u' ∧ d.root.SchemasDistinct) :
    (v.add name d u).Alike (v'.add name d' u') where
  names := by
    unfold Visited.add
    rw [hv.names, hd.filename]
  documents := List.rel_append hv.documents (.cons ⟨hd, hu⟩ .nil)

theorem Visited.Alike.skip {v v' : Visited} (hv : v.Alike v') (name : String) : (v.skip name).Alike (v'.skip name) where
  names := congrArg (name :: ·) hv.names
  documents := hv.documents

/-- Where the specs hold the same, the same files are pending. -/
theorem pending_of_alike {v v' : Visited} {s t : Session} (hv : v.Alike v') (hst : s.Alike t) :
    pending v' t.spec = pending v s.spec := by
  unfold pending Spec.referencedFiles
  rw [hv.names, hst.spec.references_eq hst.made hst.made']

theorem readReferenced_carried (hloader : loader.Reordered loader') {v v' : Visited} (hv : v.Alike v') (file : String) :
    Carried (readReferenced loader v file) (readReferenced loader' v' file) Visited.Alike := by
  intro s t w after hst hrun
  cases readReferenced_eq_ok.1 hrun with
  | @missing e hload hio =>
    obtain ⟨e', hload', hio'⟩ := hloader.missing file e hload hio
    exact ⟨_, _, readReferenced_eq_ok.2 (.missing hload' hio'), hv.skip file, hst.with_events _ _⟩
  | @found d u _ hload hread =>
    obtain ⟨d', hload', hd⟩ := hloader.served file d hload
    have hcarried := readWith_carried (fun m m' h => readForeignDocument_carried h) hd
    obtain ⟨u', after', hread', hu, hafter⟩ := hcarried _ _ _ _ (hst.with_events _ _) hread
    exact ⟨_, after', readReferenced_eq_ok.2 (.found hload' hread'), hv.add file hd hu, hafter⟩

theorem foldlM_carried (hloader : loader.Reordered loader') {files : List String} :
    ∀ {v v' : Visited}, v.Alike v' →
      Carried (files.foldlM (readReferenced loader) v) (files.foldlM (readReferenced loader') v') Visited.Alike := by
  induction files with
  | nil => exact fun hv => .pure hv
  | cons file files ih =>
    intro v v' hv
    rw [List.foldlM_cons, List.foldlM_cons]
    exact (readReferenced_carried hloader hv file).bind fun _ _ => ih

theorem readPending_carried (hloader : loader.Reordered loader') {rounds : Nat} :
    ∀ {v v' : Visited}, v.Alike v' →
      Carried (readPending loader rounds v) (readPending loader' rounds v') Visited.Alike := by
  induction rounds with
  | zero => exact fun hv => .pure hv
  | succ rounds ih =>
    intro v v' hv s t w after hst hrun
    have hsame := pending_of_alike hv hst
    cases hfiles : pending v s.spec with
    | nil =>
      rw [run_readPending_nil hfiles] at hrun
      cases hrun
      exact ⟨v', t, run_readPending_nil (hsame.trans hfiles), hv, hst⟩
    | cons file files =>
      rw [run_readPending_cons hfiles] at hrun
      rw [run_readPending_cons (hsame.trans hfiles)]
      exact ((foldlM_carried hloader hv).bind fun _ _ => ih) s t w after hst hrun

/-- Where all documents can be read, so can those of the other loader. -/
theorem readAll_carried (hloader : loader.Reordered loader') {session after : Session} {v : Visited}
    (h : (readAll loader options entry).run.run session = (.ok v, after)) :
    ∃ v' after', (readAll loader' options entry).run.run session = (.ok v', after') ∧ v.Alike v' ∧
      after.Alike after' := by
  obtain ⟨d, -, hload, -, -⟩ := readAll_ok h
  obtain ⟨d', hload', hd⟩ := hloader.served entry d hload
  have hrest : Carried
      (readWith (readEntryDocument options) d >>= fun u =>
        readPending loader (loader.size + 2) ⟨[d.filename, entry], [(d, u)]⟩)
      (readWith (readEntryDocument options) d' >>= fun u =>
        readPending loader' (loader'.size + 2) ⟨[d'.filename, entry], [(d', u)]⟩) Visited.Alike := by
    refine (readWith_carried (fun m m' hm => readEntryDocument_carried options hm) hd).bind fun u u' hu => ?_
    rw [hloader.size, hd.filename]
    exact readPending_carried hloader ⟨rfl, .cons ⟨hd, hu⟩ .nil⟩
  rw [run_readAll hload] at h
  rw [run_readAll hload']
  have hmade : ∀ file, (Spec.empty file).Made := fun file => ⟨file, [], rfl⟩
  have hempty : (Spec.empty d.filename).Alike (Spec.empty d'.filename) := by
    rw [hd.filename]
    exact .refl (Spec.inStep_empty _)
  -- the two runs start from one session, but for the name of the entry file and what the loaders tell
  have hstart : Session.Alike
      { session with spec := .empty d.filename, events := session.events ++ (loader.load entry).1 }
      { session with spec := .empty d'.filename, events := session.events ++ (loader'.load entry).1 } :=
    ⟨.refl _, hempty, hmade _, hmade _⟩
  exact hrest _ _ _ _ hstart h

/-! ## §3. Checks. -/

section

variable {v v' : Visited} {s s' : Spec}

theorem validateReferences_of_alike (h : s.Alike s') (hs : s.Made) (hs' : s'.Made)
    (hok : s.validateReferences = .ok ()) : s'.validateReferences = .ok () := by
  unfold Spec.validateReferences at hok ⊢
  rw [← h.unresolvedReferences hs hs']
  exact hok

/-- The properties of every model can be put together, whatever the order of models. -/
theorem checkCompositions_of_alike (h : s.Alike s') (hok : s.checkCompositions = .ok ()) :
    s'.checkCompositions = .ok () := by
  refine Outcome.forM_eq_ok_iff.2 fun m hm => ?_
  have hchecked := Outcome.forM_eq_ok hok m (h.arena.mem_iff.2 hm)
  rw [← h.sameLookups.allProperties]
  exact hchecked

/-- The same keys are left unused. -/
theorem checkUnused_of_alike (hv : v.Alike v')
    (hok : v.documents.forM (fun e => e.1.checkUnused e.2) = .ok ()) :
    v'.documents.forM (fun e => e.1.checkUnused e.2) = .ok () := by
  refine Outcome.forM_eq_ok_iff.2 fun e' he' => ?_
  obtain ⟨e, he, hd, hu, hdistinct⟩ := Outcome.exists_left hv.documents he'
  have hchecked := Outcome.forM_eq_ok hok e he
  unfold Document.checkUnused at hchecked ⊢
  have hnone : e.2.unused e.1.root = [] := by
    cases hunused : e.2.unused e.1.root with
    | nil => rfl
    | cons p rest =>
      rw [hunused] at hchecked
      exact absurd hchecked nofun
  have hnone' : e'.2.unused e'.1.root = [] := by
    refine List.eq_nil_iff_forall_not_mem.2 fun p hp => ?_
    -- usages that agree report the same paths of one tree; the second tree is a reordering of the first
    have hsame : e'.2.unused e'.1.root = e.2.unused e'.1.root := (hu.unusedBelow _ _).symm
    rw [hsame] at hp
    have hback := Usage.mem_unused_of_reordered hd.symm (hd.schemasDistinct hdistinct) hp
    rw [hnone] at hback
    exact List.not_mem_nil hback
  rw [hnone']

/-- The same checks pass. -/
theorem check_of_alike (hv : v.Alike v') (h : s.Alike s') (hs : s.Made) (hs' : s'.Made)
    (hok : check options v s = .ok ()) : check options v' s' = .ok () := by
  obtain ⟨hvalidated, hstrict⟩ := check_eq_ok.1 hok
  refine check_eq_ok.2 ⟨fun hvalidate => ?_, fun hon => checkUnused_of_alike hv (hstrict hon)⟩
  obtain ⟨hreferences, hcompositions⟩ := hvalidated hvalidate
  exact ⟨validateReferences_of_alike h hs hs' hreferences, checkCompositions_of_alike h hcompositions⟩

end

/-! ## §4. Builds. -/

/-- Where a build succeeds, so does that of the reordered documents, and the specs hold the same. -/
theorem build_of_reordered (hloader : loader.Reordered loader') {s : Spec}
    (h : (build loader options entry).2 = .ok s) :
    ∃ s', (build loader' options entry).2 = .ok s' ∧ s.Alike s' ∧ s.Made ∧ s'.Made := by
  obtain ⟨v, after, hrun, rfl, hcheck⟩ := build_eq_ok.1 h
  obtain ⟨v', after', hrun', hv, hafter⟩ := readAll_carried hloader hrun
  have hcheck' := check_of_alike hv hafter.spec hafter.made hafter.made' hcheck
  exact ⟨after'.spec, build_eq_ok.2 ⟨v', after', hrun', rfl, hcheck'⟩, hafter.spec, hafter.made, hafter.made'⟩

/-- The second texts are the first ones, where some are written anew with their schemas declared in another order. -/
def ReorderedTexts (texts texts' : List (String × String)) : Prop :=
  List.Forall₂ (fun e e' => e'.1 = e.1 ∧ (e'.2 = e.2 ∨ ∃ d d', Document.parse e.2 e.1 = .ok d ∧
    Document.parse e'.2 e.1 = .ok d' ∧ d.Reordered d')) texts texts'

namespace ReorderedTexts

variable {texts texts' : List (String × String)}

theorem symm (h : ReorderedTexts texts texts') : ReorderedTexts texts' texts := by
  refine h.flip.imp fun e' e he => ⟨he.1.symm, ?_⟩
  rcases he.2 with hsame | ⟨d, d', hd, hd', hreordered⟩
  · exact .inl hsame.symm
  · refine .inr ⟨d', d, ?_, ?_, hreordered.symm⟩
    · rw [he.1, hd']
    · rw [he.1, hd]

/-- The texts under a name correspond. -/
theorem value? (h : ReorderedTexts texts texts') (name : String) :
    Option.Rel (fun text text' => text' = text ∨ ∃ d d', Document.parse text name = .ok d ∧
      Document.parse text' name = .ok d' ∧ d.Reordered d') (Keyed.value? name texts) (Keyed.value? name texts') :=
  Keyed.value?_rel (R := fun name text text' => text' = text ∨ ∃ d d', Document.parse text name = .ok d ∧
    Document.parse text' name = .ok d' ∧ d.Reordered d') h name

theorem reordered (h : ReorderedTexts texts texts') : (Loader.ofTexts texts).Reordered (Loader.ofTexts texts') where
  size := by
    show (texts'.map _).length = (texts.map _).length
    rw [List.length_map, List.length_map, List.Forall₂.length_eq h]
  served name d hd := by
    obtain ⟨text, hvalue, hparse⟩ := Loader.load_ofTexts_eq_ok.1 hd
    have hrel := h.value? name
    rw [hvalue] at hrel
    cases hvalue' : Keyed.value? name texts' with
    | none => rw [hvalue'] at hrel; exact absurd hrel nofun
    | some text' =>
      rw [hvalue'] at hrel
      cases hrel with
      | some htext =>
        -- a text stands unchanged, or both parse and the trees are reordered
        rcases htext with rfl | ⟨e, d', he, hd', hreordered⟩
        · exact ⟨d, Loader.load_ofTexts_eq_ok.2 ⟨text', hvalue', hparse⟩, .refl d⟩
        · obtain rfl := Except.ok.inj (hparse.symm.trans he)
          exact ⟨d', Loader.load_ofTexts_eq_ok.2 ⟨text', hvalue', hd'⟩, hreordered⟩
  missing name e he hio := by
    have hnone := Loader.load_ofTexts_eq_io.1 ⟨e, he, hio⟩
    have hrel := h.value? name
    rw [hnone] at hrel
    cases hvalue' : Keyed.value? name texts' with
    | none => exact Loader.load_ofTexts_eq_io.2 hvalue'
    | some text' => rw [hvalue'] at hrel; exact absurd hrel nofun

end ReorderedTexts

/-- **The order in which schemas are declared does not matter.** A build of documents in memory succeeds if and only
if it does when any of them are written anew with their schemas declared in another order; and then the specs give
the same answers. -/
theorem build_reordered {texts texts' : List (String × String)} (h : ReorderedTexts texts texts')
    (options : Options) (entry : String) :
    ((∃ s, (build (.ofTexts texts) options entry).2 = .ok s) ↔
        ∃ s', (build (.ofTexts texts') options entry).2 = .ok s') ∧
      ∀ s s', (build (.ofTexts texts) options entry).2 = .ok s → (build (.ofTexts texts') options entry).2 = .ok s' →
        s.SameAnswers s' := by
  refine ⟨⟨?_, ?_⟩, ?_⟩
  · rintro ⟨s, hs⟩
    obtain ⟨s', hs', -⟩ := build_of_reordered h.reordered hs
    exact ⟨s', hs'⟩
  · rintro ⟨s', hs'⟩
    obtain ⟨s, hs, -⟩ := build_of_reordered h.symm.reordered hs'
    exact ⟨s, hs⟩
  · intro s s' hs hs'
    obtain ⟨t, ht, halike, hmade, hmade'⟩ := build_of_reordered h.reordered hs
    obtain rfl := Except.ok.inj (ht.symm.trans hs')
    exact halike.sameAnswers hmade hmade'

namespace Kennel

open Listing (members link)

/-- A model that extends one that is declared after it. -/
def text : String :=
  "\x7b\"components\":\x7b\"schemas\":\x7b\"Dog\":\x7b\"allOf\":[\x7b\"$ref\":\"#/components/schemas/Pet\"\x7d]\x7d," ++
    "\"Pet\":\x7b\"properties\":\x7b\"id\":\x7b\"type\":\"string\"\x7d\x7d\x7d\x7d\x7d\x7d"

/-- The same models the other way around. -/
def swappedText : String :=
  "\x7b\"components\":\x7b\"schemas\":\x7b\"Pet\":\x7b\"properties\":\x7b\"id\":\x7b\"type\":\"string\"\x7d\x7d\x7d," ++
    "\"Dog\":\x7b\"allOf\":[\x7b\"$ref\":\"#/components/schemas/Pet\"\x7d]\x7d\x7d\x7d\x7d"

def dog : String × Node := ("Dog", members [("allOf", .sequence [link "Pet"])])

def pet : String × Node := ("Pet", members [("properties", members [("id", members [("type", .string "string")])])])

/-- A document that declares schemas. -/
def tree (schemas : List (String × Node)) : Node := members [("components", members [("schemas", members schemas)])]

theorem tree?_text : Document.tree? .json text = some (tree [dog, pet]) := by cbv

theorem tree?_swappedText : Document.tree? .json swappedText = some (tree [pet, dog]) := by cbv

/-- Documents that declare the same schemas in another order. -/
theorem alters_of_perm {schemas schemas' : List (String × Node)} (h : schemas.Perm schemas') :
    (tree schemas).Alters "components" (Node.Alters "schemas" Node.Reorders) (tree schemas') := by
  have hschemas : (members schemas).Reorders (members schemas') := .mapping (h.map _)
  have hcomponents : (members [("schemas", members schemas)]).Alters "schemas" Node.Reorders
      (members [("schemas", members schemas')]) := .mapping (.cons ⟨rfl, .inr ⟨rfl, hschemas⟩⟩ .nil)
  exact .mapping (.cons ⟨rfl, .inr ⟨rfl, hcomponents⟩⟩ .nil)

theorem reordered : ReorderedTexts [("api.json", text)] [("api.json", swappedText)] := by
  refine .cons ⟨rfl, .inr ⟨_, _, Annotated.parse_of_tree? tree?_text, Annotated.parse_of_tree? tree?_swappedText,
    rfl, .inr ?_⟩⟩ .nil
  exact alters_of_perm (.swap pet dog [])

end Kennel

/-- Both orders are built, though the model that is extended comes last in the one and first in the other. -/
theorem build_reordered_of_kennel :
    ReorderedTexts [("api.json", Kennel.text)] [("api.json", Kennel.swappedText)] ∧
      ∃ s s', (build (.ofTexts [("api.json", Kennel.text)]) {} "api.json").2 = .ok s ∧
        (build (.ofTexts [("api.json", Kennel.swappedText)]) {} "api.json").2 = .ok s' ∧
          s.names = ["Dog", "Pet"] ∧ s'.names = ["Pet", "Dog"] ∧ s.SameAnswers s' := by
  have hnames : ((build (.ofTexts [("api.json", Kennel.text)]) {} "api.json").2.map Spec.names).toOption =
      some ["Dog", "Pet"] := by decide +kernel
  have hnames' : ((build (.ofTexts [("api.json", Kennel.swappedText)]) {} "api.json").2.map Spec.names).toOption =
      some ["Pet", "Dog"] := by decide +kernel
  obtain ⟨s, hs, hdeclared⟩ := Outcome.exists_of_map hnames
  obtain ⟨s', hs', hdeclared'⟩ := Outcome.exists_of_map hnames'
  have hsame := (build_reordered Kennel.reordered {} "api.json").2 s s' hs hs'
  exact ⟨Kennel.reordered, s, s', hs, hs', hdeclared, hdeclared', hsame⟩

end Build

end OpenApi
