/-
  OpenApi.Proofs.Build.Links — what becomes of references through links.

  A link leads to a document that is known by its own name, and its models are kept under that name, which is never
  that of a link. So a reference through a link names no model, whatever the linked document declares. And the name
  of a linked document is noted only after it was loaded, so it is loaded again for every other name that leads to
  it. Where no reference goes through a link, each document is loaded once. Main statement: `links_of_disk`; the
  two ways in which links fail are run in `links_fail`.
-/
import OpenApi.Proofs.Build.Trace
import OpenApi.Proofs.Loader.Names
import OpenApi.Proofs.Reference
import OpenApi.Proofs.Build.Visits
import OpenApi.Proofs.Strictness.DocumentReaders

namespace OpenApi

open Text

/-! ## §1. Names of documents on disk. -/

namespace Loader

variable {files : Disk} {root name : String} {d : Document}

/-- The name of a link tells no format. -/
theorem ofFilename?_of_isLink (h : isLink name = true) : Format.ofFilename? name = none := by
  obtain ⟨front, hfront⟩ := List.isSuffixOf_iff_suffix.1 h
  have hpoint : ".link".toList = '.' :: "link".toList := by decide
  have hcut : splitLast '.' name.toList = some (front, "link".toList) := by
    rw [← hfront, hpoint]
    exact splitLast_append front (by decide)
  unfold Format.ofFilename?
  rw [hcut]
  simp

/-- What stands in front of a name that tells a format does not change it. -/
theorem ofFilename?_append (front : String) {file : String} {format : Format}
    (h : Format.ofFilename? file = some format) : Format.ofFilename? (front ++ file) = some format := by
  unfold Format.ofFilename? at h ⊢
  cases hcut : splitLast '.' file.toList with
  | none =>
    rw [hcut] at h
    exact absurd h nofun
  | some p =>
    obtain ⟨stem, extension⟩ := p
    obtain ⟨hfile, hextension⟩ := splitLast_eq_some hcut
    have hlonger : splitLast '.' (front ++ file).toList = some (front.toList ++ stem, extension) := by
      rw [String.toList_append, hfile, ← List.append_assoc]
      exact splitLast_append _ hextension
    rw [hcut] at h
    rw [hlonger]
    exact h

theorem ofFilename?_of_parse {text : String} (h : Document.parse text name = .ok d) :
    ∃ format, Format.ofFilename? d.filename = some format := by
  rw [Document.filename_of_parse h]
  unfold Document.parse at h
  cases hformat : Format.ofFilename? name with
  | some format => exact ⟨format, rfl⟩
  | none =>
    rw [hformat] at h
    exact absurd h nofun

theorem ofFilename?_of_resolveLink {path : List Char} {text : String} {target : Target}
    (h : resolveLink path text = .ok target) : Format.ofFilename? target.file = some target.format := by
  unfold resolveLink at h
  dsimp only at h
  split at h
  next => exact absurd h nofun
  split at h
  next => exact absurd h nofun
  split at h
  next => exact absurd h nofun
  split at h
  next => exact absurd h nofun
  next hformat =>
    rw [← Except.ok.inj h]
    exact hformat

theorem ofFilename?_of_followLink {link text : String} {path : List Char}
    (h : (followLink files link path text).2 = .ok d) :
    ∃ format, Format.ofFilename? d.filename = some format := by
  unfold followLink at h
  cases htarget : resolveLink path text with
  | error message =>
    rw [htarget] at h
    exact absurd h nofun
  | ok target =>
    have hformat := ofFilename?_of_resolveLink htarget
    rw [htarget] at h
    dsimp only at h
    -- with or without a directory in front, the name ends with that of the target, which tells the format
    split at h
    next => exact absurd h nofun
    next =>
      rw [Document.filename_of_parseAs h]
      unfold linkedName
      split
      next directory _ _ =>
        exact ⟨target.format, ofFilename?_append (String.ofList directory ++ "/") hformat⟩
      next => exact ⟨target.format, hformat⟩

/-- **No document on disk is known by the name of a link**, also those that links lead to. -/
theorem isLink_eq_false (h : ((disk files root).load name).2 = .ok d) : isLink d.filename = false := by
  have hformat : ∃ format, Format.ofFilename? d.filename = some format := by
    unfold disk at h
    dsimp only at h
    split at h
    next => exact absurd h nofun
    split at h
    next => exact ofFilename?_of_followLink h
    next => exact ofFilename?_of_parse h
  obtain ⟨format, hformat⟩ := hformat
  by_contra hlink
  rw [ofFilename?_of_isLink (Bool.not_eq_false _ ▸ hlink)] at hformat
  exact absurd hformat nofun

/-- A document that is asked for by a name that is no link is known by that name. -/
theorem filename_of_disk (hname : isLink name = false) (h : ((disk files root).load name).2 = .ok d) :
    d.filename = name := by
  unfold disk at h
  dsimp only at h
  split at h
  next => exact absurd h nofun
  next =>
    rw [hname] at h
    exact Document.filename_of_parse h

/-- The name of the document that a name leads to, if it can be loaded. -/
def known? (loader : Loader) (name : String) : Option String :=
  (loader.load name).2.toOption.map Document.filename

theorem known?_eq_none {loader : Loader} {e : Error} (h : (loader.load name).2 = .error e) :
    loader.known? name = none := by
  unfold known?
  rw [h]
  rfl

theorem known?_eq_some {loader : Loader} (h : (loader.load name).2 = .ok d) :
    loader.known? name = some d.filename := by
  unfold known?
  rw [h]
  rfl

/-- What is asked for on disk is reported once, unless it is not there. -/
theorem loaded_of_disk (files : Disk) (root name : String) :
    ((disk files root).load name).1.filterMap Event.loaded? = [name] ∨
      ((disk files root).load name).1 = [] ∧ ∃ e, ((disk files root).load name).2 = .error e := by
  unfold disk
  dsimp only
  split
  next => exact .inr ⟨rfl, _, rfl⟩
  split
  next =>
    unfold followLink
    split
    next => exact .inr ⟨rfl, _, rfl⟩
    split
    next => exact .inr ⟨rfl, _, rfl⟩
    next => exact .inl rfl
  next => exact .inl rfl

/-- The documents that are reported are those that can be loaded. -/
theorem known_of_disk (files : Disk) (root name : String) :
    (((disk files root).load name).1.filterMap Event.loaded?).filterMap (disk files root).known? =
      ((disk files root).known? name).toList := by
  rcases loaded_of_disk files root name with hloaded | ⟨hnone, e, hfails⟩
  · rw [hloaded, List.filterMap_cons]
    cases (disk files root).known? name with
    | none => rfl
    | some d => rfl
  · rw [hnone, known?_eq_none hfails]
    rfl

end Loader

/-- A place without other number signs tells its file. -/
theorem SchemaRef.eq_of_place_eq {file name file' name' : String} (h : place file name = place file' name')
    (hfile : '#' ∉ file'.toList) (hname : '#' ∉ name'.toList) : file = file' := by
  have htext := congrArg String.toList h
  rw [toList_place, toList_place] at htext
  have hrest : '#' ∉ "/components/schemas".toList ++ '/' :: name'.toList := by
    intro hmem
    rcases List.mem_append.1 hmem with hmem | hmem
    · exact absurd hmem (by decide)
    · rcases List.mem_cons.1 hmem with hmem | hmem
      · exact absurd hmem (by decide)
      · exact hname hmem
  -- the only number sign on the right stands behind the file, so that on the left does, too
  rcases List.append_eq_append_iff.1 htext with ⟨more, hmore, hcut⟩ | ⟨more, hmore, hcut⟩
  · cases more with
    | nil => exact String.toList_inj.1 (by simpa using hmore.symm)
    | cons c more =>
      obtain ⟨rfl, -⟩ := List.cons.inj hcut
      exact absurd (hmore ▸ by simp) hfile
  · cases more with
    | nil => exact String.toList_inj.1 (by simpa using hmore)
    | cons c more =>
      rw [(List.cons.inj hcut).2] at hrest
      exact absurd (List.mem_append_right more List.mem_cons_self) hrest

namespace Build

variable {loader : Loader} {options : Options} {entry : String} {v w : Visited} {session after : Session}

/-! ## §2. Files of models. -/

/-- Each model that was read was declared in a document that was loaded. -/
theorem Explored.loads_models {first next : Document → List Change → Prop} {s : Spec}
    (hfirst : ∀ d changes, first d changes → ∀ c ∈ changes, c.IsFrom d.filename)
    (hnext : ∀ d changes, next d changes → ∀ c ∈ changes, c.IsFrom d.filename)
    (h : Explored first next loader entry v s) :
    s.InStep ∧ ∀ m ∈ s.models, ∃ name d, (loader.load name).2 = .ok d ∧ m.file = d.filename := by
  have hnew : ∀ {changes : List Change} {d : Document}, (∀ c ∈ changes, c.IsFrom d.filename) →
      ∀ m ∈ changes.filterMap Change.declared?, m.file = d.filename :=
    fun hfrom m hm => hfrom _ (Change.mem_declared.1 hm)
  -- the induction is on the exploration: each document adds models of its own file only
  induction h with
  | @start d _ _ _ hload hchanges hspec =>
    refine ⟨(Spec.inStep_empty d.filename).applyAll hspec, fun m hm => ?_⟩
    rw [Spec.applyAll_models rfl hspec] at hm
    exact ⟨entry, d, hload, hnew (hfirst _ _ hchanges) m hm⟩
  | skip _ _ _ _ ih => exact ih
  | @read _ _ _ file d _ _ _ _ hload hchanges hspec ih =>
    refine ⟨ih.1.applyAll hspec, fun m hm => ?_⟩
    rw [Spec.applyAll_models ih.1.files hspec] at hm
    rcases List.mem_append.1 hm with hm | hm
    · exact ih.2 m hm
    · exact ⟨file, d, hload, hnew (hnext _ _ hchanges) m hm⟩

theorem models_of_readAll (h : (readAll loader options entry).run.run session = (.ok v, after)) :
    after.spec.InStep ∧ ∀ m ∈ after.spec.models, ∃ name d, (loader.load name).2 = .ok d ∧ m.file = d.filename := by
  have hreads : ∀ {read : Mapping → Building Unit}, (∀ (T : Trim) (m m' : Mapping), T.Cuts m m' →
      T.Follows (read m) (read m') (fun _ _ => True) True) → ∀ d, (readWith read d).Yields
        fun _ changes => ∀ c ∈ changes, c.IsFrom d.filename :=
    fun hread d session u after hrun => (readWith_trimmed hread hrun).1
  have hexplored := explored_of_readAll
    (fun d session u after _ => hreads (fun _ _ _ => readEntryDocument_follows options) d session u after)
    (hreads fun _ _ _ => readForeignDocument_follows) h
  exact hexplored.loads_models (fun _ _ hchanges => hchanges) fun _ _ hchanges => hchanges

/-! ## §3. Documents are loaded once. -/

/-- Where the reading of a build ends, whether it succeeds or not. -/
def ended (loader : Loader) (options : Options) (entry : String) : Session :=
  ((readAll loader options entry).run.run ⟨.none, .empty entry, []⟩).2

/-- The names of the documents that were loaded, each as often as that happened. -/
def loadedNames (loader : Loader) (session : Session) : List String :=
  (session.events.filterMap Event.loaded?).filterMap loader.known?

theorem loadedNames_of_passes (loader : Loader) {names : List String} (h : session.Passes names after) :
    loadedNames loader after = loadedNames loader session ++ names.filterMap loader.known? := by
  unfold loadedNames
  rw [h.loaded, List.filterMap_append]

/-- A recorded reference goes through a link. -/
def NamesLink (session : Session) : Prop := ∃ file ∈ session.spec.referencedFiles, Loader.isLink file = true

theorem NamesLink.passes {names : List String} (h : NamesLink session) (hpasses : session.Passes names after) :
    NamesLink after := by
  obtain ⟨file, hfile, hlink⟩ := h
  exact ⟨file, hpasses.referencedFiles hfile, hlink⟩

/-- No document was loaded twice, and the names of those that were count as looked at. -/
structure LoadedOnce (loader : Loader) (v : Visited) (session : Session) : Prop where
  nodup : (loadedNames loader session).Nodup
  looked : loadedNames loader session ⊆ v.names

section

variable {files : Disk} {root : String}

/-- When only the entry was asked for, its document is the only one that may have been loaded. -/
theorem loadedNames_of_load (u : Usage) (s : Spec) :
    loadedNames (.disk files root) ⟨u, s, [] ++ ((Loader.disk files root).load entry).1⟩ =
      ((Loader.disk files root).known? entry).toList :=
  Loader.known_of_disk files root entry

/-- Asking for a file that is no link notes this name, and no other one. -/
theorem names_of_disk {file : String} (hfile : Loader.isLink file = false)
    (h : (readReferenced (.disk files root) v file).run.run session = (.ok w, after)) (name : String) :
    name ∈ w.names ↔ name ∈ file :: v.names := by
  cases readReferenced_eq_ok.1 h with
  | missing => exact Iff.rfl
  | @found d _ _ hload _ =>
    have hname := Loader.filename_of_disk hfile hload
    simp [Visited.add, hname]

/-- The document that a name leads to is known by that name, unless it is that of a link. -/
theorem known_eq_self {file name : String} (hfile : Loader.isLink file = false)
    (h : (Loader.disk files root).known? file = some name) : name = file := by
  cases hload : ((Loader.disk files root).load file).2 with
  | error e =>
    rw [Loader.known?_eq_none hload] at h
    exact absurd h nofun
  | ok d =>
    rw [Loader.known?_eq_some hload] at h
    exact (Option.some.inj h).symm.trans (Loader.filename_of_disk hfile hload)

/-- A file that is no link and was not looked at is loaded for the first time. -/
theorem ends_of_readReferenced {file : String} (hs : session.spec.InStep) (hv : LoadedOnce (.disk files root) v session)
    (hnew : file ∉ v.names) (hfile : Loader.isLink file = false) :
    (readReferenced (.disk files root) v file).Ends session
      (fun w after => LoadedOnce (.disk files root) w after ∧ ∀ name ∈ w.names, name = file ∨ name ∈ v.names)
      fun after => (loadedNames (.disk files root) after).Nodup := by
  have hloaded := loadedNames_of_passes (.disk files root)
    (passes_of_readReferenced (.disk files root) v file hs)
  rw [Loader.known_of_disk] at hloaded
  have hknown : ∀ name ∈ ((Loader.disk files root).known? file).toList, name = file := fun name hname =>
    known_eq_self hfile (Option.mem_toList.1 hname)
  -- a file that is no link is known by the name that was asked for, and that name is new
  have hnodup : (loadedNames (.disk files root) session ++
      ((Loader.disk files root).known? file).toList).Nodup := by
    refine List.nodup_append.2 ⟨hv.nodup, ?_, ?_⟩
    · cases (Loader.disk files root).known? file with
      | none => exact List.nodup_nil
      | some name => exact List.nodup_singleton name
    · rintro name hname _ hname' rfl
      exact hnew (hknown name hname' ▸ hv.looked hname)
  have hlooked : loadedNames (.disk files root) session ++ ((Loader.disk files root).known? file).toList ⊆
      file :: v.names := by
    intro name hname
    rcases List.mem_append.1 hname with hname | hname
    · exact List.mem_cons_of_mem _ (hv.looked hname)
    · rw [hknown name hname]
      exact List.mem_cons_self
  rw [← hloaded] at hnodup hlooked
  unfold Building.Ends
  cases hrun : (readReferenced (.disk files root) v file).run.run session with
  | mk result after =>
    rw [hrun] at hnodup hlooked
    cases result with
    | error e => exact hnodup
    | ok w =>
      have hnames := names_of_disk hfile hrun
      refine ⟨⟨hnodup, fun name hname => (hnames name).2 (hlooked hname)⟩, fun name hname => ?_⟩
      exact List.mem_cons.1 ((hnames name).1 hname)

/-- What holds between two rounds: tables are in step, and no document was loaded twice unless a link was recorded. -/
structure BetweenRounds (loader : Loader) (v : Visited) (session : Session) : Prop where
  inStep : session.spec.InStep
  once : NamesLink session ∨ LoadedOnce loader v session

/-- What holds between two files of a round: besides, none of the files that are left was loaded or is a link, unless a
link was recorded. -/
structure InRound (loader : Loader) (rest : List String) (v : Visited) (session : Session) : Prop
    extends BetweenRounds loader v session where
  left : NamesLink session ∨ rest.Nodup ∧ ∀ file ∈ rest, file ∉ v.names ∧ Loader.isLink file = false

/-- A round starts with files that were not loaded. -/
theorem BetweenRounds.start (hv : BetweenRounds loader v session) :
    InRound loader (pending v session.spec) v session where
  toBetweenRounds := hv
  left := by
    by_cases hlink : NamesLink session
    · exact .inl hlink
    · refine .inr ⟨(Text.nodup_ordered _).filter _, fun file hfile => ?_⟩
      obtain ⟨hnamed, hnew⟩ := List.mem_filter.1 hfile
      refine ⟨by simpa using hnew, ?_⟩
      by_contra hlinked
      exact hlink ⟨file, hnamed, by simpa using hlinked⟩

/-- Reading one file of a round leaves fewer files that were not loaded. -/
theorem InRound.ends {file : String} {rest : List String} (hv : InRound (.disk files root) (file :: rest) v session) :
    (readReferenced (.disk files root) v file).Ends session (InRound (.disk files root) rest)
      fun after => NamesLink after ∨ (loadedNames (.disk files root) after).Nodup := by
  have hpasses := passes_of_readReferenced (.disk files root) v file hv.inStep
  by_cases hlink : NamesLink session
  · -- a link that was recorded stays recorded, whatever happens
    refine ((Building.Ends.iff_at_end.2 (hlink.passes hpasses)).inStep (hpasses.inStep hv.inStep)).mono ?_ ?_
    · exact fun w after hafter => ⟨⟨hafter.1, .inl hafter.2⟩, .inl hafter.2⟩
    · exact fun after hafter => .inl hafter
  · obtain ⟨hnodup, hrest⟩ := hv.left.resolve_left hlink
    obtain ⟨⟨hnew, hfile⟩, hrest⟩ := List.forall_mem_cons.1 hrest
    obtain ⟨hfirst, hnodup⟩ := List.nodup_cons.1 hnodup
    refine ((ends_of_readReferenced hv.inStep (hv.once.resolve_left hlink) hnew hfile).inStep
      (hpasses.inStep hv.inStep)).mono (fun w after hw => ?_) fun _ => .inr
    refine ⟨⟨hw.1, .inr hw.2.1⟩, .inr ⟨hnodup, fun name hname => ⟨fun hmem => ?_, (hrest name hname).2⟩⟩⟩
    rcases hw.2.2 name hmem with rfl | hbefore
    · exact hfirst hname
    · exact (hrest name hname).1 hbefore

/-- Where no reference goes through a link, each round loads only documents that were not loaded before. -/
theorem ends_of_round (hv : BetweenRounds (.disk files root) v session) :
    ((pending v session.spec).foldlM (readReferenced (.disk files root)) v).Ends session
      (BetweenRounds (.disk files root))
      fun after => NamesLink after ∨ (loadedNames (.disk files root) after).Nodup := by
  have hstep : ∀ file rest v session, InRound (.disk files root) (file :: rest) v session →
      (readReferenced (.disk files root) v file).Ends session (InRound (.disk files root) rest)
        fun after => NamesLink after ∨ (loadedNames (.disk files root) after).Nodup := fun _ _ _ _ => InRound.ends
  exact (Building.Ends.foldlM hstep hv.start).mono (fun _ _ hkept => hkept.toBetweenRounds) fun _ => id

/-- The entry document is the only one that was loaded. -/
theorem loadedOnce_of_entry {d : Document} (h : loadedNames loader session = [d.filename]) (u : Usage) :
    LoadedOnce loader ⟨[d.filename, entry], [(d, u)]⟩ session where
  nodup := by
    rw [h]
    exact List.nodup_singleton _
  looked := by
    rw [h]
    exact List.cons_subset.2 ⟨List.mem_cons_self, List.nil_subset _⟩

/-- The entry document is the first one that is loaded. -/
theorem ends_of_entry {d : Document} (hload : ((Loader.disk files root).load entry).2 = .ok d) :
    (readWith (readEntryDocument options) d).Ends
      ⟨.none, .empty d.filename, [] ++ ((Loader.disk files root).load entry).1⟩
      (fun u after => BetweenRounds (.disk files root) ⟨[d.filename, entry], [(d, u)]⟩ after)
      fun after => (loadedNames (.disk files root) after).Nodup := by
  have hstart : (⟨.none, .empty d.filename, [] ++ ((Loader.disk files root).load entry).1⟩ : Session).spec.InStep :=
    Spec.inStep_empty d.filename
  have hpasses := passes_of_readWith (readEntryDocument_steady options) d hstart
  have hloaded := loadedNames_of_passes (.disk files root) hpasses
  rw [List.filterMap_nil, List.append_nil, loadedNames_of_load, Loader.known?_eq_some hload] at hloaded
  have hends : (readWith (readEntryDocument options) d).Ends _ (fun _ after => loadedNames (.disk files root) after =
      [d.filename]) fun after => loadedNames (.disk files root) after = [d.filename] :=
    Building.Ends.iff_at_end.2 hloaded
  refine (hends.inStep (hpasses.inStep hstart)).mono ?_ ?_
  · exact fun u after hafter => ⟨hafter.1, .inr (loadedOnce_of_entry hafter.2 u)⟩
  · intro after hafter
    rw [hafter]
    exact List.nodup_singleton _

/-- What a build of files on disk comes to, whether the reading succeeds or not. -/
theorem ends_of_readAll :
    (readAll (.disk files root) options entry).Ends ⟨.none, .empty entry, []⟩ (BetweenRounds (.disk files root))
      fun after => NamesLink after ∨ (loadedNames (.disk files root) after).Nodup := by
  unfold Building.Ends
  cases hload : ((Loader.disk files root).load entry).2 with
  | error e =>
    have hfails : (load (.disk files root) entry).run.run ⟨.none, .empty entry, []⟩ =
        (.error e, ⟨.none, .empty entry, [] ++ ((Loader.disk files root).load entry).1⟩) := by
      rw [run_load, hload]
    rw [readAll, Building.run_bind_error hfails]
    refine .inr ?_
    rw [loadedNames_of_load, Loader.known?_eq_none hload]
    exact List.nodup_nil
  | ok d =>
    rw [run_readAll hload]
    refine Building.Ends.bind ((ends_of_entry hload).mono (fun _ _ => id) fun _ => .inr) fun u middle hmiddle => ?_
    exact ends_of_readPending (fun _ _ => ends_of_round) hmiddle

/-- **Unless a reference goes through a link, no document is loaded twice**, whether the reading succeeds or not. -/
theorem once_of_readAll :
    NamesLink (ended (.disk files root) options entry) ∨
      (loadedNames (.disk files root) (ended (.disk files root) options entry)).Nodup := by
  exact Building.Ends.iff_at_end.1 (ends_of_readAll.mono (fun _ _ h => h.once.imp_right LoadedOnce.nodup) fun _ => id)

end

/-! ## §4. Links. -/

/-- **A reference through a link names no model.** When all documents are read, a recorded reference to a schema in
the file of a link is unresolved, whatever the link leads to. If no recorded reference goes through a link, each
document was loaded once, however the reading ended. -/
theorem links_of_disk (files : Disk) (root : String) (options : Options) (entry : String) :
    (∀ v, visited (.disk files root) options entry = .ok v →
      ∀ link name, Loader.isLink link = true → '#' ∉ link.toList → '#' ∉ name.toList →
        SchemaRef.place link name ∈ (ended (.disk files root) options entry).spec.references →
          SchemaRef.place link name ∈ (ended (.disk files root) options entry).spec.unresolvedReferences) ∧
    ((∀ file ∈ (ended (.disk files root) options entry).spec.referencedFiles, Loader.isLink file = false) →
      (loadedNames (.disk files root) (ended (.disk files root) options entry)).Nodup) := by
  constructor
  · intro v hv link name hlink hfile hname hrecorded
    obtain ⟨after, hrun⟩ := visited_eq_ok.1 hv
    have hended : ended (.disk files root) options entry = after := congrArg Prod.snd hrun
    rw [hended] at hrecorded ⊢
    -- a model in that place would be of a document that is known by the name of a link
    obtain ⟨hs, hmodels⟩ := models_of_readAll hrun
    have hnone : after.spec.declared? (SchemaRef.place link name) = none := by
      refine hs.declared?_eq_none.2 fun m hm hplace => ?_
      obtain ⟨name', d, hload, hm⟩ := hmodels m hm
      have hsame := SchemaRef.eq_of_place_eq hplace hfile hname
      rw [← hsame, hm, Loader.isLink_eq_false hload] at hlink
      exact absurd hlink nofun
    refine List.mem_filter.2 ⟨hrecorded, ?_⟩
    rw [← Option.not_isSome, ← hs.isSome_declared?, hnone]
    rfl
  · intro hplain
    refine once_of_readAll.resolve_left fun hlink => ?_
    obtain ⟨file, hfile, hlink⟩ := hlink
    rw [hplain file hfile] at hlink
    exact absurd hlink nofun

/-! ## §5. A shop and a pet. -/

namespace Linked

/-- A text as the content of a file. -/
def file (name text : String) : Names × List UInt8 := ([name.toList], text.toUTF8.toList)

/-- The schema `Pet` in a document of its own, a link to that document, and a document in which `Pet` is chosen from
some files. -/
def files (targets : List String) : Disk where
  files :=
    [file "api.yaml" ("components:\n schemas:\n  Shop:\n   oneOf:\n" ++
        String.join (targets.map fun target => "   - $ref: " ++ SchemaRef.place target "Pet" ++ "\n")),
      file "pet.yaml" "components:\n schemas:\n  Pet:\n   enum: [cat]\n",
      file "pet.link" "pet.yaml\n"]
  directories := []

/-- The loader for these files. -/
def served (targets : List String) : Loader := .disk (files targets) "/"

end Linked

/-- The link leads to the document that declares `Pet`, but the reference through it is unresolved; and where the
document is named as well, it is loaded twice and its schema counts as declared twice. -/
theorem links_fail :
    (∃ d, ((Linked.served ["pet.link"]).load "pet.link").2 = .ok d ∧ d.filename = "pet.yaml") ∧
    (∃ s, (build (Linked.served ["pet.link"]) { validateReferences := false } "api.yaml").2 = .ok s ∧
      s.models.map (fun m => (m.file, m.model.name)) = [("api.yaml", "Shop"), ("pet.yaml", "Pet")] ∧
      s.unresolvedReferences = ["pet.link#/components/schemas/Pet"]) ∧
    ∃ e, (build (Linked.served ["pet.link", "pet.yaml"]) {} "api.yaml").2 = .error e ∧
      e.cause = .duplicateModel "Pet" := by
  refine ⟨Outcome.exists_of_map (by decide +kernel), ?_, ?_⟩
  · have hbuild : ((build (Linked.served ["pet.link"]) { validateReferences := false } "api.yaml").2.map
        fun s => (s.models.map fun m => (m.file, m.model.name), s.unresolvedReferences)).toOption =
          some ([("api.yaml", "Shop"), ("pet.yaml", "Pet")], ["pet.link#/components/schemas/Pet"]) := by
      decide +kernel
    obtain ⟨s, hs, hfacts⟩ := Outcome.exists_of_map hbuild
    exact ⟨s, hs, Prod.mk.inj hfacts⟩
  · have hcause : (match (build (Linked.served ["pet.link", "pet.yaml"]) {} "api.yaml").2 with
        | .error e => some e.cause
        | .ok _ => none) = some (.duplicateModel "Pet") := by decide +kernel
    cases hbuild : (build (Linked.served ["pet.link", "pet.yaml"]) {} "api.yaml").2 with
    | ok s =>
      rw [hbuild] at hcause
      exact absurd hcause nofun
    | error e =>
      rw [hbuild] at hcause
      exact ⟨e, rfl, Option.some.inj hcause⟩

/-- The reference through the link is recorded and unresolved; without links, both documents are loaded once. -/
theorem links_of_shop :
    (∃ v, visited (Linked.served ["pet.link"]) {} "api.yaml" = .ok v ∧
      Loader.isLink "pet.link" = true ∧ '#' ∉ "pet.link".toList ∧ '#' ∉ "Pet".toList ∧
      SchemaRef.place "pet.link" "Pet" ∈
        (ended (Linked.served ["pet.link"]) {} "api.yaml").spec.unresolvedReferences) ∧
    (loadedNames (Linked.served ["pet.yaml"])
      (ended (Linked.served ["pet.yaml"]) {} "api.yaml")).Nodup := by
  constructor
  · have hread : (visited (Linked.served ["pet.link"]) {} "api.yaml").isOk = true ∧
        SchemaRef.place "pet.link" "Pet" ∈ (ended (Linked.served ["pet.link"]) {} "api.yaml").spec.references := by
      decide +kernel
    obtain ⟨hvisited, hrecorded⟩ := hread
    obtain ⟨v, hv⟩ := Outcome.isOk_iff.1 hvisited
    have hlink : Loader.isLink "pet.link" = true := by decide
    refine ⟨v, hv, hlink, by decide, by decide, ?_⟩
    exact (links_of_disk _ _ _ _).1 v hv "pet.link" "Pet" hlink (by decide) (by decide) hrecorded
  · have hplain : ∀ file ∈ (ended (Linked.served ["pet.yaml"]) {} "api.yaml").spec.referencedFiles,
        Loader.isLink file = false := by decide +kernel
    exact (links_of_disk _ _ _ _).2 hplain

end Build

end OpenApi
