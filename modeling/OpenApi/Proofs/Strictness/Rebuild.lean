/-
  OpenApi.Proofs.Strictness.Rebuild — what is reported as unused has no influence.

  A build marks the keys that it reads. Without the entries that are left unused, the documents give the same
  spec again, and then every key is read, so a strict build accepts them. Main statement: `build_trimmed`.
-/
import Mathlib.Data.List.Permutation
import OpenApi.Proofs.Build.Validation
import OpenApi.Proofs.Build.Visits
import OpenApi.Proofs.Strictness.DocumentReaders

namespace OpenApi

/-! ## §1. Trimmed documents. -/

namespace Build

/-- The same documents were looked at, the second time without what the first time left unused. -/
structure Visited.Trimmed (v v' : Visited) : Prop where
  names : v'.names = v.names
  documents : List.Forall₂ (fun e e' => e.1.Trimmed e.2 e'.1 ∧ e'.2 = e.2) v.documents v'.documents

end Build

/-- The second loader serves the documents that were visited without what was left unused, and nothing where the
first one serves nothing. -/
structure Loader.Trims (loader loader' : Loader) (documents : List (Document × Usage)) : Prop where
  size : loader'.size = loader.size
  served : ∀ name d u, (loader.load name).2 = .ok d → (d, u) ∈ documents →
    ∃ d', (loader'.load name).2 = .ok d' ∧ d.Trimmed u d'
  missing : ∀ name e, (loader.load name).2 = .error e → e.errorClass = .io →
    ∃ e', (loader'.load name).2 = .error e' ∧ e'.errorClass = .io

theorem Loader.Trims.subset {loader loader' : Loader} {documents more : List (Document × Usage)}
    (h : loader.Trims loader' more) (hsub : documents ⊆ more) : loader.Trims loader' documents :=
  ⟨h.size, fun name d u hd hmem => h.served name d u hd (hsub hmem), h.missing⟩

namespace Build

variable {loader loader' : Loader} {options : Options} {entry : String}

/-! ## §2. Stages. -/

/-- A stage of a build only adds documents to those that were visited; with the trimmed documents it visits the
same again and makes the same of the spec. -/
def Repeats (loader loader' : Loader) (stage stage' : Visited → Building Visited) : Prop :=
  ∀ v session w after, (stage v).run.run session = (.ok w, after) →
    v.documents ⊆ w.documents ∧
      (loader.Trims loader' w.documents → ∀ v' session', v.Trimmed v' → session'.spec = session.spec →
        ∃ w' after', (stage' v').run.run session' = (.ok w', after') ∧ w.Trimmed w' ∧
          after'.spec = after.spec)

namespace Repeats

variable {stage stage' next next' : Visited → Building Visited}

theorem pure : Repeats loader loader' Pure.pure Pure.pure := by
  intro v session w after hrun
  obtain ⟨rfl, rfl⟩ := Building.run_pure_ok hrun
  exact ⟨List.Subset.refl _, fun _ v' session' hv hspec => ⟨v', session', rfl, hv, hspec⟩⟩

theorem bind (h : Repeats loader loader' stage stage') (hnext : Repeats loader loader' next next') :
    Repeats loader loader' (fun v => stage v >>= next) fun v => stage' v >>= next' := by
  intro v session w after hrun
  obtain ⟨mid, middle, hfirst, hsecond⟩ := Building.run_bind_ok hrun
  obtain ⟨hsub, hagain⟩ := h v session mid middle hfirst
  obtain ⟨hsub', hagain'⟩ := hnext mid middle w after hsecond
  refine ⟨List.Subset.trans hsub hsub', fun htrims v' session' hv hspec => ?_⟩
  obtain ⟨mid', middle', hrun', hmid, hspec'⟩ := hagain (htrims.subset hsub') v' session' hv hspec
  obtain ⟨w', after', hrun'', hw, hspec''⟩ := hagain' htrims mid' middle' hmid hspec'
  exact ⟨w', after', (Building.run_bind hrun').trans hrun'', hw, hspec''⟩

theorem foldlM {f f' : Visited → String → Building Visited} {files : List String}
    (h : ∀ file, Repeats loader loader' (fun v => f v file) fun v => f' v file) :
    Repeats loader loader' (fun v => files.foldlM f v) fun v => files.foldlM f' v := by
  induction files with
  | nil => exact pure
  | cons file files ih => exact bind (h file) ih

end Repeats

/-! ## §3. Referenced documents. -/

theorem readReferenced_repeats (file : String) :
    Repeats loader loader' (fun v => readReferenced loader v file) fun v => readReferenced loader' v file := by
  intro v session w after hrun
  dsimp only at hrun
  -- a file that was missing is missing again; one that was read is served trimmed by what was read of it
  cases readReferenced_eq_ok.1 hrun with
  | @missing e hload hio =>
    refine ⟨List.Subset.refl _, fun htrims v' session' hv hspec => ?_⟩
    obtain ⟨e', hload', hio'⟩ := htrims.missing file e hload hio
    exact ⟨_, _, readReferenced_eq_ok.2 (.missing hload' hio'), ⟨congrArg (file :: ·) hv.names, hv.documents⟩, hspec⟩
  | @found d u _ hload hread =>
    refine ⟨List.subset_append_left _ _, fun htrims v' session' hv hspec => ?_⟩
    have hvisited : (d, u) ∈ (v.add file d u).documents :=
      List.mem_append_right _ (List.mem_singleton_self _)
    obtain ⟨d', hload', htrimmed⟩ := htrims.served file d u hload hvisited
    obtain ⟨-, hagain⟩ := readWith_trimmed (fun _ _ _ => readForeignDocument_follows) hread
    obtain ⟨after', hread', hspec'⟩ := @hagain d' { session' with events :=
      session'.events ++ (loader'.load file).1 ++ [.loadingReferenced file] } htrimmed hspec
    refine ⟨v'.add file d' u, after', readReferenced_eq_ok.2 (.found hload' hread'), ⟨?_, ?_⟩, hspec'⟩
    · unfold Visited.add
      rw [htrimmed.filename, hv.names]
    · exact List.rel_append hv.documents (.cons ⟨htrimmed, rfl⟩ .nil)

theorem readPending_repeats {rounds : Nat} :
    Repeats loader loader' (readPending loader rounds) (readPending loader' rounds) := by
  induction rounds with
  | zero => exact .pure
  | succ rounds ih =>
    intro v session w after hrun
    -- the same names were looked at and the same references recorded, so the same files are pending
    have hpending : ∀ {v' : Visited} {session' : Session}, v.Trimmed v' → session'.spec = session.spec →
        pending v' session'.spec = pending v session.spec := by
      intro v' session' hv hspec
      unfold pending
      rw [hv.names, hspec]
    cases hfiles : pending v session.spec with
    | nil =>
      rw [run_readPending_nil hfiles] at hrun
      cases hrun
      refine ⟨List.Subset.refl _, fun _ v' session' hv hspec => ⟨v', session', ?_, hv, hspec⟩⟩
      exact run_readPending_nil ((hpending hv hspec).trans hfiles)
    | cons file files =>
      rw [run_readPending_cons hfiles] at hrun
      have hrest : Repeats loader loader'
          (fun v => (file :: files).foldlM (readReferenced loader) v >>= readPending loader rounds)
          fun v => (file :: files).foldlM (readReferenced loader') v >>= readPending loader' rounds :=
        (Repeats.foldlM fun file => readReferenced_repeats file).bind ih
      obtain ⟨hsub, hagain⟩ := hrest v session w after hrun
      refine ⟨hsub, fun htrims v' session' hv hspec => ?_⟩
      rw [run_readPending_cons ((hpending hv hspec).trans hfiles)]
      exact hagain htrims v' session' hv hspec

/-! ## §4. Builds. -/

/-- Reading the trimmed documents visits the same and gives the same spec. -/
theorem readAll_trimmed {session after : Session} {v : Visited}
    (h : (readAll loader options entry).run.run session = (.ok v, after))
    (htrims : loader.Trims loader' v.documents) (session' : Session) :
    ∃ v' after', (readAll loader' options entry).run.run session' = (.ok v', after') ∧ v.Trimmed v' ∧
      after'.spec = after.spec := by
  obtain ⟨d, started, hload, hstart, h⟩ := readAll_ok h
  obtain ⟨u, read, hread, h⟩ := Building.run_bind_ok h
  have hrepeats : ∀ rounds, Repeats loader loader' (readPending loader rounds) (readPending loader' rounds) :=
    fun _ => readPending_repeats
  -- the usage of the entry document is known only after the whole run, which keeps what was visited
  obtain ⟨hsub, hagain⟩ := hrepeats _ _ _ _ _ h
  obtain ⟨d', hload', htrimmed⟩ := htrims.served entry d u hload (hsub (List.mem_singleton_self _))
  obtain ⟨-, hreadAgain⟩ :=
    readWith_trimmed (fun _ _ _ hc => readEntryDocument_follows options hc) hread
  have hempty : Spec.empty d'.filename = started.spec := by rw [hstart, htrimmed.filename]
  obtain ⟨read', hread', hspec⟩ := @hreadAgain d' { session' with
    spec := .empty d'.filename
    events := session'.events ++ (loader'.load entry).1 } htrimmed hempty
  have hvisited : Visited.Trimmed ⟨[d.filename, entry], [(d, u)]⟩ ⟨[d'.filename, entry], [(d', u)]⟩ :=
    ⟨by rw [htrimmed.filename], .cons ⟨htrimmed, rfl⟩ .nil⟩
  obtain ⟨v', after', hrest, hv, hspec'⟩ := hagain htrims _ read' hvisited hspec
  refine ⟨v', after', ?_, hv, hspec'⟩
  rw [run_readAll hload', Building.run_bind hread', htrims.size]
  exact hrest

/-- All keys of trimmed documents are read. -/
theorem Visited.Trimmed.checkUnused {v v' : Visited} (hv : v.Trimmed v') :
    v'.documents.forM (fun entry => entry.1.checkUnused entry.2) = .ok () := by
  have hdocuments := hv.documents
  generalize v.documents = documents at hdocuments
  generalize v'.documents = documents' at hdocuments ⊢
  induction hdocuments with
  | nil => rfl
  | @cons e e' _ _ he _ ih =>
    have hnone : e'.1.checkUnused e'.2 = .ok () := by
      unfold Document.checkUnused
      rw [he.1.root, he.2, Usage.unused_without]
    show (e'.1.checkUnused e'.2 >>= fun _ => _) = _
    rw [hnone]
    exact ih

/-- A check of trimmed documents passes, also a strict one. -/
theorem check_trimmed {v v' : Visited} {s : Spec} (hv : v.Trimmed v')
    (h : check { options with strict := false } v s = .ok ()) :
    check { options with strict := true } v' s = .ok () := by
  unfold check at h ⊢
  cases hvalidate : options.validateReferences with
  | true =>
    simp only [hvalidate, if_true] at h ⊢
    obtain ⟨_, hreferences, h⟩ := Outcome.bind_eq_ok.1 h
    obtain ⟨_, hcompositions, -⟩ := Outcome.bind_eq_ok.1 h
    rw [hreferences]
    show (s.checkCompositions >>= fun _ => _) = _
    rw [hcompositions]
    exact hv.checkUnused
  | false =>
    exact hv.checkUnused

/-- **If the documents that a build looked at are served without what it left unused, a strict build gives the
same spec.** -/
theorem build_of_trims {s : Spec} (h : (build loader { options with strict := false } entry).2 = .ok s) :
    ∃ v, visited loader options entry = .ok v ∧
      ∀ loader', loader.Trims loader' v.documents →
        (build loader' { options with strict := true } entry).2 = .ok s := by
  obtain ⟨v, after, hread, hspec, hcheck⟩ := build_eq_ok.1 h
  refine ⟨v, visited_eq_ok.2 ⟨after, hread⟩, fun loader' htrims => ?_⟩
  obtain ⟨v', after', hread', hv, hspec'⟩ := readAll_trimmed hread htrims ⟨.none, .empty entry, []⟩
  exact build_eq_ok.2 ⟨v', after', hread', hspec'.trans hspec, check_trimmed hv hcheck⟩

/-! ## §5. Documents in memory. -/

/-- The second texts are the first ones, where the text of each document that was visited is another one for the
same tree without what was left unused. -/
def TrimmedTexts (v : Visited) (texts texts' : List (String × String)) : Prop :=
  List.Forall₂ (fun entry entry' => entry'.1 = entry.1 ∧
    ∀ d u, (d, u) ∈ v.documents → d.filename = entry.1 →
      ∃ d', Document.parse entry'.2 entry'.1 = .ok d' ∧ d.Trimmed u d') texts texts'

/-- The texts under a name correspond. -/
theorem TrimmedTexts.value? {v : Visited} {texts texts' : List (String × String)}
    (h : TrimmedTexts v texts texts') (name : String) :
    Option.Rel (fun _ text' => ∀ d u, (d, u) ∈ v.documents → d.filename = name →
      ∃ d', Document.parse text' name = .ok d' ∧ d.Trimmed u d')
      (Keyed.value? name texts) (Keyed.value? name texts') := by
  unfold Keyed.value? Keyed.find?
  induction h with
  | nil => exact .none
  | @cons e e' _ _ he _ ih =>
    obtain ⟨hname, htext⟩ := he
    by_cases hfirst : e.1 = name
    · rw [List.find?_cons_of_pos (by simpa using hfirst),
        List.find?_cons_of_pos (by simpa [hname] using hfirst)]
      subst hfirst
      rw [hname] at htext
      exact .some htext
    · rw [List.find?_cons_of_neg (by simpa using hfirst),
        List.find?_cons_of_neg (by simpa [hname] using hfirst)]
      exact ih

theorem TrimmedTexts.trims {v : Visited} {texts texts' : List (String × String)}
    (h : TrimmedTexts v texts texts') :
    (Loader.ofTexts texts).Trims (Loader.ofTexts texts') v.documents where
  size := by
    show (texts'.map _).length = (texts.map _).length
    rw [List.length_map, List.length_map, List.Forall₂.length_eq h]
  served name d u hd hmem := by
    obtain ⟨text, hvalue, hparse⟩ := Loader.load_ofTexts_eq_ok.1 hd
    have hrel := h.value? name
    rw [hvalue] at hrel
    -- the two lists serve the same names, so a name served by one only is impossible
    cases hvalue' : Keyed.value? name texts' with
    | none => rw [hvalue'] at hrel; exact absurd hrel nofun
    | some text' =>
      rw [hvalue'] at hrel
      cases hrel with
      | some htext =>
        obtain ⟨d', hparse', htrimmed⟩ := htext d u hmem (Document.filename_of_parse hparse)
        exact ⟨d', Loader.load_ofTexts_eq_ok.2 ⟨text', hvalue', hparse'⟩, htrimmed⟩
  missing name e he hio := by
    have hnone := Loader.load_ofTexts_eq_io.1 ⟨e, he, hio⟩
    have hrel := h.value? name
    rw [hnone] at hrel
    cases hvalue' : Keyed.value? name texts' with
    | none => exact Loader.load_ofTexts_eq_io.2 hvalue'
    | some text' => rw [hvalue'] at hrel; exact absurd hrel nofun

/-- **What is reported as unused has no influence.** Where a build of documents in memory succeeds, it looked at
documents with distinct names, and if each of them is written anew without the entries that are reported as
unused, a strict build succeeds with the same spec. -/
theorem build_trimmed {texts : List (String × String)} {s : Spec}
    (h : (build (.ofTexts texts) { options with strict := false } entry).2 = .ok s) :
    ∃ v, visited (.ofTexts texts) options entry = .ok v ∧
      (v.documents.map fun e => e.1.filename).Nodup ∧
      ∀ texts', TrimmedTexts v texts texts' →
        (build (.ofTexts texts') { options with strict := true } entry).2 = .ok s := by
  obtain ⟨v, hv, hagain⟩ := build_of_trims h
  have hdistinct := distinct_of_visited (Loader.knowsByName_ofTexts texts) hv
  exact ⟨v, hv, hdistinct.nodup, fun texts' htexts => hagain _ htexts.trims⟩

namespace Annotated

open Listing (members)

/-- A document and a model with a note each. -/
def text : String :=
  "\x7b\"note\":\"\",\"components\":\x7b\"schemas\":\x7b\"Pet\":\x7b\"enum\":[\"cat\"],\"note\":\"\"\x7d\x7d\x7d\x7d"

/-- The same without the notes. -/
def plainText : String :=
  "\x7b\"components\":\x7b\"schemas\":\x7b\"Pet\":\x7b\"enum\":[\"cat\"]\x7d\x7d\x7d\x7d"

/-- The entries of a document that declares an enumeration, with more entries in it. -/
def declared (more : List (String × Node)) : List (String × Node) :=
  [("components", members [("schemas", members [("Pet", members
    (("enum", .sequence [.string "cat"]) :: more))])])]

def tree : Node := members (("note", .string "") :: declared [("note", .string "")])

def plainTree : Node := members (declared [])

/-- What a build reads of it: all but the notes. -/
def usage : Usage where
  read := [["components", "schemas", "Pet", "enum"], ["components", "schemas", "Pet"],
    ["components", "schemas"], ["components"]]
  sealed := []

theorem tree?_text : Document.tree? .json text = some tree := by cbv

theorem tree?_plainText : Document.tree? .json plainText = some plainTree := by cbv

theorem tree_without_unused : tree.without (usage.unused tree) [] = plainTree := by
  have hunused : usage.unused tree = [["note"], ["components", "schemas", "Pet", "note"]] := by
    decide +kernel
  rw [hunused]
  cbv

theorem parse_of_tree? {text : String} {n : Node} (h : Document.tree? .json text = some n) :
    Document.parse text "api.json" = .ok ⟨⟨text, "api.json"⟩, .json, n⟩ := by
  have hformat : Format.ofFilename? "api.json" = some .json := by decide +kernel
  unfold Document.parse Document.parseAs
  rw [hformat]
  dsimp only
  rw [h]

/-- The build looks at this document only. -/
theorem marks_of_visited {v : Visited} (h : visited (.ofTexts [("api.json", text)]) {} "api.json" = .ok v)
    {d : Document} {u : Usage} (hmem : (d, u) ∈ v.documents) :
    d = ⟨⟨text, "api.json"⟩, .json, tree⟩ ∧ u = usage := by
  have hmarks : ((visited (.ofTexts [("api.json", text)]) {} "api.json").map fun v =>
      v.documents.map fun e => (e.1.filename, e.2)).toOption = some [("api.json", usage)] := by
    decide +kernel
  rw [h] at hmarks
  have hentry : (d.filename, u) ∈ [("api.json", usage)] :=
    Option.some.inj hmarks ▸ List.mem_map.2 ⟨(d, u), hmem, rfl⟩
  obtain ⟨hname, rfl⟩ := Prod.mk.inj (List.mem_singleton.1 hentry)
  refine ⟨?_, rfl⟩
  have hserved := (distinct_of_visited (Loader.knowsByName_ofTexts _) h).served (d, usage) hmem
  rw [hname] at hserved
  obtain ⟨content, hcontent, hparse⟩ := Loader.load_ofTexts_eq_ok.1 hserved
  obtain rfl : text = content := Option.some.inj hcontent
  rw [parse_of_tree? tree?_text] at hparse
  exact (Except.ok.inj hparse).symm

end Annotated

/-- Without the notes, the same enumeration comes out of a strict build. -/
theorem build_trimmed_of_annotated :
    ∃ s, (build (.ofTexts [("api.json", Annotated.text)]) { strict := false } "api.json").2 = .ok s ∧
      (build (.ofTexts [("api.json", Annotated.plainText)]) { strict := true } "api.json").2 = .ok s := by
  have hnames : ((build (.ofTexts [("api.json", Annotated.text)]) { strict := false } "api.json").2.map
      Spec.names).toOption = some ["Pet"] := by decide +kernel
  obtain ⟨s, hbuild, -⟩ := Outcome.exists_of_map hnames
  refine ⟨s, hbuild, ?_⟩
  obtain ⟨v, hv, -, hagain⟩ := @build_trimmed {} "api.json" _ s hbuild
  refine hagain _ (.cons ⟨rfl, fun d u hmem _ => ?_⟩ .nil)
  obtain ⟨rfl, rfl⟩ := Annotated.marks_of_visited hv hmem
  exact ⟨_, Annotated.parse_of_tree? Annotated.tree?_plainText, rfl, Annotated.tree_without_unused.symm⟩

end Build

end OpenApi
