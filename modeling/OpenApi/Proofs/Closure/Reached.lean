/-
  OpenApi.Proofs.Closure.Reached — a build reads the documents that references lead to.

  The documents that a build of texts in memory reads are the least set that contains the entry document and every
  document that a reference names which is recorded while one of the set is read. Each of them is loaded and read
  once, and the models are the named schemas of these documents and the bodies of the entry document that become
  models. What is recorded is told by what is written in the documents, so none of this depends on the order in which
  a build goes about it. Main statement: `closed_of_build`.
-/
import OpenApi.Proofs.Build.Trace
import OpenApi.Proofs.Closure.DocumentReaders
import OpenApi.Proofs.Closure.Rounds
import OpenApi.Proofs.Reference
import OpenApi.Proofs.Strictness.Rebuild

namespace OpenApi

/-! ## §1. What documents hold. -/

namespace Document

variable (entry : String) (d : Document)

/-- The reference is written in the document where a build reads it: in a named schema, or in the paths of the entry
document. -/
def Writes (raw : String) : Prop := d.root.SchemasRefer raw ∨ d.filename = entry ∧ d.root.PathsRefer raw

/-- The document declares a model: as a named schema, or as a body in the entry document that becomes one. -/
def Declares (name : String) : Prop :=
  name ∈ d.root.schemaNames ∨ d.filename = entry ∧ name ∈ d.root.promotedNames

/-- The reference is recorded when the document is read: it is written there, or leads to a body that becomes a
model. -/
def Records (r : SchemaRef) : Prop :=
  (∃ raw, d.Writes entry raw ∧ SchemaRef.parse raw d.filename = .ok r) ∨
    d.filename = entry ∧ ∃ name ∈ d.root.promotedNames, r = .toModel d.filename name

/-- What is found in the document. -/
def findings : Findings where
  written := d.Writes entry
  schemas name := name ∈ d.root.schemaNames
  bodies name := d.filename = entry ∧ name ∈ d.root.promotedNames

variable {entry d}

theorem refers_findings {r : SchemaRef} : (d.findings entry).Refers d.filename r ↔ d.Records entry r := by
  unfold Findings.Refers Records findings
  simp only [and_assoc, exists_and_left]

theorem findings_of_entry (h : d.filename = entry) : d.findings entry = d.root.entryFindings := by
  unfold findings Node.entryFindings Writes
  simp only [h, true_and]

theorem findings_of_other (h : d.filename ≠ entry) : d.findings entry = d.root.schemaFindings := by
  unfold findings Node.schemaFindings Writes
  simp only [h, false_and, or_false]

end Document

/-- The documents that references lead to: the entry document, and with each document those that references name
which are recorded when it is read. -/
inductive Reached (loader : Loader) (entry : String) : Document → Prop
  | entry {d : Document} (hload : (loader.load entry).2 = .ok d) : Reached loader entry d
  | next {d d' : Document} {r : SchemaRef} (h : Reached loader entry d) (hrecords : d.Records entry r)
      (hload : (loader.load r.file).2 = .ok d') : Reached loader entry d'

/-! ## §2. What specs hold. -/

namespace Spec

/-- The spec holds the references and models that are found in documents, and no others. -/
structure Holds (s : Spec) (found : List (Document × Findings)) : Prop where
  inStep : s.InStep
  parses : ∀ p ∈ found, ∀ raw, p.2.written raw → ∃ r, SchemaRef.parse raw p.1.filename = .ok r
  references : ∀ text, text ∈ s.references ↔ ∃ p ∈ found, ∃ r, p.2.Refers p.1.filename r ∧ r.reference = text
  models : ∀ file name, (∃ m ∈ s.models, m.file = file ∧ m.model.name = name) ↔
    ∃ p ∈ found, p.1.filename = file ∧ (p.2.schemas name ∨ p.2.bodies name)

variable {s t : Spec} {found : List (Document × Findings)} {d : Document} {f : Findings} {changes : List Change}

theorem holds_empty (file : String) : (empty file).Holds [] where
  inStep := inStep_empty file
  parses := by simp
  references := by simp [empty]
  models := by simp [empty, models]

/-- What is found in one more document. -/
theorem Holds.add (h : s.Holds found) (htold : f.Told d.filename [] changes) (happly : s.applyAll changes = .ok t) :
    t.Holds (found ++ [(d, f)]) where
  inStep := h.inStep.applyAll happly
  parses p hp := by
    rcases List.mem_append.1 hp with hp | hp
    · exact h.parses p hp
    · rw [List.mem_singleton.1 hp]
      exact htold.parses
  references text := by
    -- a spec keeps the texts of references, and the changes tell the references themselves
    have hnew : text ∈ changes.filterMap Change.reference? ↔ ∃ r, f.Refers d.filename r ∧ r.reference = text := by
      simp only [← htold.references, List.mem_filterMap]
      constructor
      · rintro ⟨c, hc, htext⟩
        cases c with
        | reference r => exact ⟨r, hc, Option.some.inj htext⟩
        | describe | model | operation | securityScheme => exact absurd htext nofun
      · rintro ⟨r, hr, rfl⟩
        exact ⟨.reference r, hr, rfl⟩
    rw [mem_applyAll_references happly, h.references, hnew, or_comm]
    simp only [List.mem_append, or_and_right, exists_or, List.mem_singleton, exists_eq_left]
  models file name := by
    rw [applyAll_models h.inStep.files happly]
    simp only [List.mem_append, or_and_right, exists_or, List.mem_singleton, exists_eq_left, h.models]
    -- only what is new is left; no model was known before, so each body has one of its own
    refine or_congr_right ⟨?_, ?_⟩
    · rintro ⟨m, hm, rfl, rfl⟩
      obtain ⟨hfile, hname⟩ := htold.models _ _ (Change.mem_declared.1 hm)
      exact ⟨hfile.symm, hname⟩
    · rintro ⟨rfl, hname⟩
      have hadded : name ∈ addedNames changes :=
        hname.elim (htold.declares name) fun hbody => (htold.becomes name hbody).resolve_left List.not_mem_nil
      obtain ⟨m, hm, rfl⟩ := List.mem_map.1 hadded
      exact ⟨m, hm, (htold.models _ _ (Change.mem_declared.1 hm)).1, rfl⟩

end Spec

/-- The file of a reference text is that of the reference. -/
theorem SchemaRef.file_of_fileOf? {r : SchemaRef} {file : String} (h : Spec.fileOf? r.reference = some file) :
    r.file = file := by
  obtain ⟨p, hcut, rfl⟩ := Option.map_eq_some_iff.1 h
  unfold SchemaRef.file
  rw [hcut]

/-- The place of a schema tells a file. -/
theorem SchemaRef.fileOf?_of_place {r : SchemaRef} {file name : String} (h : r.reference = place file name) :
    Spec.fileOf? r.reference = some r.file := by
  cases hof : Spec.fileOf? r.reference with
  | some file => rw [SchemaRef.file_of_fileOf? hof]
  | none =>
    have hcut := Text.splitFirst_eq_none (Option.map_eq_none_iff.1 hof)
    rw [h, toList_place] at hcut
    exact absurd (List.mem_append_right _ List.mem_cons_self) hcut

/-- A reference that can be read is the place of a schema. -/
theorem SchemaRef.exists_place_of_parse {r : SchemaRef} {raw file : String} (h : parse raw file = .ok r) :
    ∃ file name, r.reference = place file name := by
  unfold parse at h
  dsimp only at h
  split at h
  next => exact absurd h nofun
  split at h
  next => exact absurd h nofun
  split at h
  next => exact absurd h nofun
  split at h
  next => exact absurd h nofun
  next => exact ⟨_, _, by rw [← Except.ok.inj h]⟩

theorem Document.Records.fileOf?_eq {entry : String} {d : Document} {r : SchemaRef} (h : d.Records entry r) :
    Spec.fileOf? r.reference = some r.file := by
  rcases h with ⟨raw, -, hparse⟩ | ⟨-, name, -, rfl⟩
  · obtain ⟨file, name, hplace⟩ := SchemaRef.exists_place_of_parse hparse
    exact SchemaRef.fileOf?_of_place hplace
  · have hplace : (SchemaRef.toModel d.filename name).reference = SchemaRef.place d.filename name := rfl
    exact SchemaRef.fileOf?_of_place hplace

namespace Build

variable {loader : Loader} {options : Options} {entry : String} {v : Visited} {session after : Session}

/-! ## §3. What a build reads. -/

/-- The documents that were read, in this order. -/
def Visited.read (v : Visited) : List Document := v.documents.map Prod.fst

/-- What is found in the documents that are read one after the other, the first one as the entry document. -/
def foundFrom (d : Document) (rest : List Document) : List (Document × Findings) :=
  (d, d.root.entryFindings) :: rest.map fun d => (d, d.root.schemaFindings)

/-- What is found in a document is recorded when it is read. -/
theorem records_of_foundFrom {d : Document} {rest : List Document} (hentry : d.filename = entry)
    {p : Document × Findings} (hp : p ∈ foundFrom d rest) {r : SchemaRef} (hr : p.2.Refers p.1.filename r) :
    p.1 ∈ d :: rest ∧ p.1.Records entry r := by
  rcases List.mem_cons.1 hp with rfl | hp
  · refine ⟨List.mem_cons_self, ?_⟩
    rw [← Document.refers_findings, Document.findings_of_entry hentry]
    exact hr
  · obtain ⟨d', hd', rfl⟩ := List.mem_map.1 hp
    refine ⟨List.mem_cons_of_mem _ hd', ?_⟩
    rcases hr with ⟨raw, hraw, hparse⟩ | ⟨_, hbody, -⟩
    · exact .inl ⟨raw, .inl hraw, hparse⟩
    · exact absurd hbody id

/-- While documents are read, the spec holds what is found in those that were read, which references lead to, and a
document that was looked at was read. -/
structure Accounts (loader : Loader) (entry : String) (v : Visited) (s : Spec) : Prop where
  found : ∃ d rest, v.read = d :: rest ∧ (loader.load entry).2 = .ok d ∧ d.filename = entry ∧
    s.Holds (foundFrom d rest)
  reached : ∀ d ∈ v.read, Reached loader entry d
  looked : ∀ name ∈ v.names, ∀ d, (loader.load name).2 = .ok d → d ∈ v.read

/-- A file that the spec names leads to a document that references lead to. -/
theorem Accounts.reached_of_file {s : Spec} (h : Accounts loader entry v s) {file : String} {d : Document}
    (hfile : file ∈ s.referencedFiles) (hload : (loader.load file).2 = .ok d) : Reached loader entry d := by
  obtain ⟨first, rest, hread, -, hentry, hholds⟩ := h.found
  obtain ⟨text, htext, hof⟩ := Spec.mem_referencedFiles.1 hfile
  obtain ⟨p, hp, r, hr, rfl⟩ := (hholds.references text).1 htext
  obtain ⟨hmem, hrecords⟩ := records_of_foundFrom hentry hp hr
  refine .next (h.reached p.1 (hread ▸ hmem)) hrecords ?_
  rw [SchemaRef.file_of_fileOf? hof]
  exact hload

/-- When the entry document was read, it accounts for the spec. -/
theorem Accounts.start (hloader : loader.KnowsByName) {d : Document} {u : Usage} {changes : List Change} {s : Spec}
    (hload : (loader.load entry).2 = .ok d) (htold : d.root.entryFindings.Told d.filename [] changes)
    (hspec : (Spec.empty d.filename).applyAll changes = .ok s) :
    Accounts loader entry ⟨[d.filename, entry], [(d, u)]⟩ s where
  found := ⟨d, [], rfl, hload, hloader entry d hload, (Spec.holds_empty d.filename).add htold hspec⟩
  reached := by
    intro d' hd'
    rw [List.mem_singleton.1 hd']
    exact .entry hload
  looked := by
    intro name hname d' hload'
    have hentry : name = entry := by simpa [hloader entry d hload] using hname
    rw [hentry, hload] at hload'
    rw [← Except.ok.inj hload']
    exact List.mem_singleton_self d

/-- A file that leads to no document adds nothing. -/
theorem Accounts.skip {s : Spec} (h : Accounts loader entry v s) {file : String} {e : Error}
    (hload : (loader.load file).2 = .error e) : Accounts loader entry (v.skip file) s where
  found := h.found
  reached := h.reached
  looked := by
    intro name hname d hload'
    rcases List.mem_cons.1 hname with rfl | hname
    · rw [hload] at hload'
      exact absurd hload' nofun
    · exact h.looked name hname d hload'

/-- Another document adds what is found in it. -/
theorem Accounts.add (hloader : loader.KnowsByName) {s t : Spec} (h : Accounts loader entry v s) {file : String}
    {d : Document} {u : Usage} {changes : List Change} (hfile : file ∈ s.referencedFiles)
    (hload : (loader.load file).2 = .ok d) (htold : d.root.schemaFindings.Told d.filename [] changes)
    (hspec : s.applyAll changes = .ok t) : Accounts loader entry (v.add file d u) t := by
  obtain ⟨first, rest, hread, hfirst, hentry, hholds⟩ := h.found
  have hadd : (v.add file d u).read = v.read ++ [d] := List.map_append
  refine ⟨⟨first, rest ++ [d], ?_, hfirst, hentry, ?_⟩, ?_, ?_⟩
  · rw [hadd, hread, List.cons_append]
  · have hmore := hholds.add htold hspec
    unfold foundFrom at hmore ⊢
    rw [List.map_append]
    exact hmore
  · intro d' hd'
    rw [hadd] at hd'
    rcases List.mem_append.1 hd' with hd' | hd'
    · exact h.reached d' hd'
    · rw [List.mem_singleton.1 hd']
      exact h.reached_of_file hfile hload
  · intro name hname d' hload'
    rw [hadd, List.mem_append]
    have hlooked : name = file ∨ name ∈ v.names := by simpa [Visited.add, hloader file d hload] using hname
    rcases hlooked with rfl | hname
    · rw [hload] at hload'
      rw [← Except.ok.inj hload']
      exact .inr (List.mem_singleton_self d)
    · exact .inl (h.looked name hname d' hload')

/-- What the entry document tells is told of it when it is read into a spec without content. -/
theorem told_of_readEntry (d : Document) (session : Session) (u : Usage) (after : Session)
    (hspec : session.spec = .empty d.filename)
    (h : (readWith (readEntryDocument options) d).run.run session = (.ok u, after)) :
    ∃ changes, session.spec.applyAll changes = .ok after.spec ∧ d.root.entryFindings.Told d.filename [] changes := by
  have hfinds : (readWith (readEntryDocument options) d).Finds d.filename (fun _ => True) d.root.entryFindings :=
    readWith_finds d fun root hroot => readEntryDocument_finds hroot options
  obtain ⟨-, changes, happly, htold⟩ := hfinds session u after h
  rw [hspec] at htold
  exact ⟨changes, happly, htold⟩

/-- What is found in a document that is only referenced does not depend on the models that are known. -/
theorem told_of_readForeign (d : Document) :
    (readWith readForeignDocument d).Yields fun _ changes => d.root.schemaFindings.Told d.filename [] changes := by
  intro session u after h
  have hfinds : (readWith readForeignDocument d).Finds d.filename (fun _ => True) d.root.schemaFindings :=
    readWith_finds d fun root hroot => readForeignDocument_finds hroot
  obtain ⟨-, changes, happly, htold⟩ := hfinds session u after h
  exact ⟨changes, happly, htold.parses, htold.references, htold.models, htold.declares, nofun⟩

/-- **What a build has read accounts for its spec**, where documents are known by their names. -/
theorem accounts_of_readAll (hloader : loader.KnowsByName)
    (h : (readAll loader options entry).run.run session = (.ok v, after)) :
    Accounts loader entry v after.spec := by
  have hexplored := explored_of_readAll told_of_readEntry told_of_readForeign h
  clear h
  generalize after.spec = s at hexplored ⊢
  -- documents are read one at a time, and each of them keeps the account
  induction hexplored with
  | start hload htold hspec => exact .start hloader hload htold hspec
  | skip _ _ hload _ ih => exact ih.skip hload
  | read _ hfile hload htold hspec ih => exact ih.add hloader hfile hload htold hspec

/-- Where no two documents share a name, only the first one is read as the entry document. -/
theorem Accounts.holds {s : Spec} (h : Accounts loader entry v s) (hnodup : (v.read.map Document.filename).Nodup) :
    s.Holds (v.read.map fun d => (d, d.findings entry)) := by
  obtain ⟨first, rest, hread, -, hentry, hholds⟩ := h.found
  rw [hread, List.map_cons, List.nodup_cons] at hnodup
  -- the first document has the name of the entry, so no later one does
  have hrest : rest.map (fun d => (d, d.findings entry)) = rest.map fun d => (d, d.root.schemaFindings) := by
    refine List.map_congr_left fun d hd => ?_
    have hother : d.filename ≠ entry := fun hname =>
      hnodup.1 (List.mem_map.2 ⟨d, hd, hname.trans hentry.symm⟩)
    rw [Document.findings_of_other hother]
  rw [hread, List.map_cons, Document.findings_of_entry hentry, hrest]
  exact hholds

/-- **Once nothing is pending, what was read is what references lead to.** -/
theorem Accounts.mem_read_iff {s : Spec} (h : Accounts loader entry v s)
    (hnodup : (v.read.map Document.filename).Nodup) (hpending : pending v s = []) {d : Document} :
    d ∈ v.read ↔ Reached loader entry d := by
  refine ⟨h.reached d, fun hreached => ?_⟩
  induction hreached with
  | entry hload =>
    obtain ⟨first, rest, hread, hfirst, -, -⟩ := h.found
    rw [hread, ← Except.ok.inj (hfirst.symm.trans hload)]
    exact List.mem_cons_self
  | @next d d' r _ hrecords hload ih =>
    have htext : r.reference ∈ s.references := by
      refine ((h.holds hnodup).references r.reference).2 ⟨(d, d.findings entry), List.mem_map_of_mem ih, r, ?_, rfl⟩
      exact Document.refers_findings.2 hrecords
    have hfile : r.file ∈ s.referencedFiles := Spec.mem_referencedFiles.2 ⟨_, htext, hrecords.fileOf?_eq⟩
    -- a file that is named and was not looked at would be pending
    have hlooked : r.file ∈ v.names := by
      by_contra hnew
      have hmem : r.file ∈ pending v s := List.mem_filter.2 ⟨hfile, by simpa using hnew⟩
      rw [hpending] at hmem
      exact List.not_mem_nil hmem
    exact h.looked r.file hlooked d' hload

/-! ## §4. What a build reports. -/

section

variable {texts : List (String × String)}

/-- A text that is served is reported under its name, whether it can be read or not. -/
theorem loaded_ofTexts (texts : List (String × String)) (name : String) :
    ((Loader.ofTexts texts).load name).1.filterMap Event.loaded? =
      if (Keyed.value? name texts).isSome then [name] else [] := by
  have hvalue : Keyed.value? name (texts.map fun entry => (entry.1, Document.parse entry.2 entry.1)) =
      (Keyed.value? name texts).map fun text => Document.parse text name :=
    Keyed.value?_map (fun name text => Document.parse text name) texts
  unfold Loader.ofTexts Loader.memory
  dsimp only
  rw [hvalue]
  cases Keyed.value? name texts with
  | none => rfl
  | some text => rfl

/-- The tables are in step, and the events tell the documents that were read, in the same order. -/
structure Reports (v : Visited) (session : Session) : Prop where
  inStep : session.spec.InStep
  loaded : session.events.filterMap Event.loaded? = v.read.map Document.filename

theorem ends_of_text (hv : Reports v session) (file : String) :
    (readReferenced (.ofTexts texts) v file).Ends session Reports fun _ => True := by
  have hpasses := passes_of_readReferenced (.ofTexts texts) v file hv.inStep
  have hinStep := hpasses.inStep hv.inStep
  have hloaded := hpasses.loaded
  rw [loaded_ofTexts, hv.loaded] at hloaded
  unfold Building.Ends
  cases hrun : (readReferenced (.ofTexts texts) v file).run.run session with
  | mk result after =>
    rw [hrun] at hloaded hinStep
    cases result with
    | error e => trivial
    | ok w =>
      -- a missing file counts as visited without being reported; a found one is reported under the name it is known
      -- by
      cases readReferenced_eq_ok.1 hrun with
      | missing hload hio =>
        have hnone := Loader.load_ofTexts_eq_io.1 ⟨_, hload, hio⟩
        rw [hnone, Option.isSome_none, if_neg nofun, List.append_nil] at hloaded
        exact ⟨hinStep, hloaded⟩
      | @found d _ _ hload _ =>
        obtain ⟨text, hvalue, -⟩ := Loader.load_ofTexts_eq_ok.1 hload
        rw [hvalue, Option.isSome_some, if_pos rfl, ← Loader.knowsByName_ofTexts texts file d hload] at hloaded
        refine ⟨hinStep, hloaded.trans ?_⟩
        simp [Visited.read, Visited.add]

theorem reports_of_readAll
    (h : (readAll (.ofTexts texts) options entry).run.run ⟨.none, .empty entry, []⟩ = (.ok v, after)) :
    Reports v after := by
  obtain ⟨d, -, hload, -, -⟩ := readAll_ok h
  obtain ⟨text, hvalue, -⟩ := Loader.load_ofTexts_eq_ok.1 hload
  rw [run_readAll hload] at h
  obtain ⟨u, read, hread, h⟩ := Building.run_bind_ok h
  have hfirst : Reports ⟨[d.filename, entry], [(d, u)]⟩ read := by
    have hstart : (⟨.none, .empty d.filename, [] ++ ((Loader.ofTexts texts).load entry).1⟩ : Session).spec.InStep :=
      Spec.inStep_empty d.filename
    have hpasses := passes_of_readWith (readEntryDocument_steady options) d hstart
    have hinStep := hpasses.inStep hstart
    have hloaded := hpasses.loaded
    rw [hread] at hinStep
    rw [hread, List.nil_append, loaded_ofTexts, hvalue, Option.isSome_some, if_pos rfl, List.append_nil,
      ← Loader.knowsByName_ofTexts texts entry d hload] at hloaded
    exact ⟨hinStep, hloaded⟩
  have hround : ∀ v session, Reports v session →
      ((pending v session.spec).foldlM (readReferenced (.ofTexts texts)) v).Ends session Reports fun _ => True :=
    fun _ _ hv => Building.Ends.foldlM (fun file _ _ _ hv => ends_of_text hv file) hv
  have hends : (readPending (.ofTexts texts) ((Loader.ofTexts texts).size + 2)
      ⟨[d.filename, entry], [(d, u)]⟩).Ends read Reports fun _ => True := ends_of_readPending hround hfirst
  unfold Building.Ends at hends
  rw [h] at hends
  exact hends

end

/-! ## §5. Builds. -/

/-- What is known of a build that succeeds: the documents that it read are those that references lead to, each of them
was loaded and read once, and the spec holds the references that they record and the models that they declare. -/
structure Closed (loader : Loader) (entry : String) (v : Visited) (events : List Event) (s : Spec) : Prop where
  documents : ∀ d, d ∈ v.read ↔ Reached loader entry d
  once : (v.read.map Document.filename).Nodup
  loaded : events.filterMap Event.loaded? = v.read.map Document.filename
  parses : ∀ d ∈ v.read, ∀ raw, d.Writes entry raw → ∃ r, SchemaRef.parse raw d.filename = .ok r
  references : ∀ text, text ∈ s.references ↔ ∃ d ∈ v.read, ∃ r, d.Records entry r ∧ r.reference = text
  models : ∀ file name, (∃ m ∈ s.models, m.file = file ∧ m.model.name = name) ↔
    ∃ d ∈ v.read, d.filename = file ∧ d.Declares entry name
  distinct : s.NamesDistinct

/-- Where the reading of a build ends well, nothing is pending and the entry document was looked at. -/
theorem pending_of_readAll (hloader : loader.Bounded)
    (h : (readAll loader options entry).run.run session = (.ok v, after)) : pending v after.spec = [] := by
  obtain ⟨d, started, hload, -, h⟩ := readAll_ok h
  obtain ⟨u, read, -, h⟩ := Building.run_bind_ok h
  have hsettles := settles_of_readPending hloader ⟨[d.filename, entry], [(d, u)]⟩ read
  rw [h] at hsettles
  exact hsettles.pending_eq_nil rfl

/-- The rest of a build reports no more documents. -/
theorem loaded_of_build {s : Spec} (h : (build loader options entry).2 = .ok s)
    (hrun : (readAll loader options entry).run.run ⟨.none, .empty entry, []⟩ = (.ok v, after)) :
    (build loader options entry).1.filterMap Event.loaded? = after.events.filterMap Event.loaded? := by
  have hbuild : (build loader options entry).1 =
      ((buildSpec loader options entry).run.run ⟨.none, .empty entry, []⟩).2.events := rfl
  obtain ⟨v', after', hrun', hspec, hcheck⟩ := build_eq_ok.1 h
  rw [hrun] at hrun'
  cases hrun'
  have hlook : Building.spec.run.run after = (.ok after.spec, after) := rfl
  rw [hbuild, buildSpec, Building.run_bind hrun, Building.run_bind hlook, hspec, hcheck]
  show (after.events ++ [Event.builtSpec _ _ _ _]).filterMap Event.loaded? = _
  simp [Event.loaded?]

theorem closed_of_visited {texts : List (String × String)} {s : Spec}
    (h : (build (.ofTexts texts) options entry).2 = .ok s)
    (hrun : (readAll (.ofTexts texts) options entry).run.run ⟨.none, .empty entry, []⟩ = (.ok v, after))
    (hspec : after.spec = s) : Closed (.ofTexts texts) entry v (build (.ofTexts texts) options entry).1 s := by
  have hloader := Loader.knowsByName_ofTexts texts
  -- texts are known by the names under which they are served, so none of them is read twice
  have hdistinct := distinct_of_visited hloader (visited_eq_ok.2 ⟨after, hrun⟩)
  have hnodup : (v.read.map Document.filename).Nodup := by
    unfold Visited.read
    rw [List.map_map]
    exact hdistinct.nodup
  have haccounts := accounts_of_readAll hloader hrun
  have hpending := pending_of_readAll (Loader.bounded_memory _) hrun
  have hmade := (recorded_of_readAll hrun).1
  subst hspec
  have hholds := haccounts.holds hnodup
  refine ⟨fun d => haccounts.mem_read_iff hnodup hpending, hnodup, ?_, ?_, fun text => ?_, fun file name => ?_,
    hmade.namesDistinct⟩
  · exact (loaded_of_build h hrun).trans (reports_of_readAll hrun).loaded
  · exact fun d hd => hholds.parses _ (List.mem_map_of_mem hd)
  · rw [hholds.references]
    simp only [List.mem_map, exists_exists_and_eq_and, Document.refers_findings]
  · rw [hholds.models]
    simp only [List.mem_map, exists_exists_and_eq_and]
    rfl

/-- **A build of texts in memory computes the closure of references.** The rounds in which it loads documents come to
an end, and if it succeeds, it has read exactly the documents that references lead to, each of them once, and its
models are those that they declare. -/
theorem closed_of_build (texts : List (String × String)) (options : Options) (entry : String) :
    (∀ v session, Settles (.ofTexts texts) v session
        ((readPending (.ofTexts texts) ((Loader.ofTexts texts).size + 2) v).run.run session)) ∧
      ∀ s, (build (.ofTexts texts) options entry).2 = .ok s →
        ∃ v, visited (.ofTexts texts) options entry = .ok v ∧
          Closed (.ofTexts texts) entry v (build (.ofTexts texts) options entry).1 s := by
  refine ⟨settles_of_readPending (Loader.bounded_memory _), fun s h => ?_⟩
  obtain ⟨v, after, hrun, hspec, -⟩ := build_eq_ok.1 h
  exact ⟨v, visited_eq_ok.2 ⟨after, hrun⟩, closed_of_visited h hrun hspec⟩

namespace Pets

/-- A document that refers to another one. -/
def cats : String :=
  "\x7b\"components\":\x7b\"schemas\":\x7b\"Cat\":\x7b\"oneOf\":[" ++
    "\x7b\"$ref\":\"dogs.json#/components/schemas/Dog\"\x7d]\x7d\x7d\x7d\x7d"

/-- The other one, which refers to the first one and to itself. -/
def dogs : String :=
  "\x7b\"components\":\x7b\"schemas\":\x7b\"Dog\":\x7b\"oneOf\":[" ++
    "\x7b\"$ref\":\"cats.json#/components/schemas/Cat\"\x7d," ++
    "\x7b\"$ref\":\"#/components/schemas/Dog\"\x7d]\x7d\x7d\x7d\x7d"

def texts : List (String × String) := [("birds.json", "\x7b\x7d"), ("cats.json", cats), ("dogs.json", dogs)]

end Pets

/-- Two documents that refer to each other are read once each, and a third one is not. -/
theorem closed_of_pets :
    ∃ s v, (build (.ofTexts Pets.texts) {} "cats.json").2 = .ok s ∧ s.names = ["Cat", "Dog"] ∧
      v.read.map Document.filename = ["cats.json", "dogs.json"] ∧
        Closed (.ofTexts Pets.texts) "cats.json" v (build (.ofTexts Pets.texts) {} "cats.json").1 s := by
  have hnames : ((build (.ofTexts Pets.texts) {} "cats.json").2.map Spec.names).toOption = some ["Cat", "Dog"] := by
    decide +kernel
  have hloaded : (build (.ofTexts Pets.texts) {} "cats.json").1.filterMap Event.loaded? =
      ["cats.json", "dogs.json"] := by decide +kernel
  obtain ⟨s, hs, hdeclared⟩ := Outcome.exists_of_map hnames
  obtain ⟨v, -, hclosed⟩ := (closed_of_build Pets.texts {} "cats.json").2 s hs
  exact ⟨s, v, hs, hdeclared, hclosed.loaded.symm.trans hloaded, hclosed⟩

end Build

end OpenApi
