/-
  OpenApi.Proofs.Build.DocumentReaders — reading documents records the references in them.

  A build starts from a spec without content, reads the entry document into it, and then every document that
  references name. So each reference that the spec holds in the end was recorded (`recorded_of_readAll`).
-/
import OpenApi.Build.Basic
import OpenApi.Proofs.Build.OperationReaders

namespace OpenApi

/-- All references that stand in the spec were recorded. -/
def Spec.Recorded (s : Spec) : Prop := ∀ r, s.StoresReference r → s.knowsReference r = true

/-- What changes store is recorded, where they record the references of what they add. -/
theorem Spec.recorded_of_changes {file : String} {changes : List Change} {s : Spec}
    (h : (Spec.empty file).applyAll changes = .ok s)
    (hchanges : ∀ c ∈ changes, Covered [] changes c.references) : s.Recorded := by
  have hknown : ∀ c ∈ changes, ∀ r ∈ c.references, s.knowsReference r = true := by
    intro c hc r hr
    have hrecord : Change.reference r ∈ changes := (hchanges c hc r hr).resolve_left List.not_mem_nil
    have hmem : r.reference ∈ s.references :=
      (Spec.mem_applyAll_references h _).2 (.inl (List.mem_filterMap.2 ⟨_, hrecord, rfl⟩))
    exact List.contains_iff_mem.2 hmem
  -- what the spec holds came with a change, and the changes cover the references of each
  intro r hr
  cases hr with
  | model hm hr =>
    unfold Spec.IsDeclared at hm
    rw [Spec.applyAll_arena h] at hm
    have hadded : _ ∈ (changes.filterMap Change.declared?).map Declared.model := hm
    obtain ⟨d, hd, rfl⟩ := List.mem_map.1 hadded
    exact hknown _ (Change.mem_declared.1 hd) r hr
  | @operation o ho hr =>
    rw [Spec.applyAll_operations h] at ho
    obtain ⟨c, hc, hco⟩ := List.mem_filterMap.1 (ho : o ∈ changes.filterMap Change.operation?)
    rw [Change.operation?_eq_some.1 hco] at hc
    exact hknown _ hc r hr

namespace Build

open Building (Records Silent)

variable {known : List SchemaRef}

/-! ## §1. Information and servers. -/

theorem readContact_silent (m : Mapping) : Silent (readContact m) := by
  unfold readContact
  exact .reading fun _ => .reading fun _ => .reading fun _ => .pure

theorem readInfo_silent (m : Mapping) : Silent (readInfo m) := by
  unfold readInfo
  have hcontact : ∀ c, Silent (some <$> readContact c) := by
    intro c
    rw [map_eq_pure_bind]
    exact (readContact_silent c).bind fun _ => .pure
  refine .reading fun _ => .reading fun _ => ?_
  refine (Silent.optionally hcontact _).bind fun _ => .reading fun _ => ?_
  exact .reading fun _ => .reading fun _ => .pure

theorem declareInfo_records (m : Mapping) : Records known (declareInfo m) fun _ => [] := by
  unfold declareInfo
  refine .after (readInfo_silent m) fun info => .update ?_
  exact fun s t h => ⟨.describe info s.servers, h, List.nil_subset _⟩

theorem readServer_silent (m : Mapping) : Silent (readServer m) := by
  unfold readServer
  refine .reading fun _ => .reading fun _ => .lift fun _ => ?_
  exact .reading fun _ => .reading fun _ => .pure

theorem readServers_silent (root : Mapping) : Silent (readServers root) := by
  unfold readServers
  refine .reading fun found => ?_
  split
  next => exact .pure
  next =>
    refine .lift fun _ => (Silent.mapM fun m _ => readServer_silent m).bind fun servers => ?_
    split
    next => exact .pure
    next => exact .pure

/-! ## §2. Documents. -/

theorem readComponentModels_records (components : Mapping) :
    Records known (readComponentModels components) fun _ => [] := by
  unfold readComponentModels
  exact .reading fun _ => .optionally readModels_records (List.nil_subset _) _

theorem readComponentSchemes_records (components : Mapping) :
    Records known (readComponentSchemes components) fun _ => [] := by
  unfold readComponentSchemes
  exact .reading fun _ => .optionally readSchemes_records (List.nil_subset _) _

theorem readCommonSecurity_silent (root : Mapping) : Silent (readCommonSecurity root) := by
  unfold readCommonSecurity
  exact .reading fun _ => .optionally readRequirements_silent _

theorem readEntryDocument_records (options : Options) (root : Mapping) :
    Records [] (readEntryDocument options root) fun _ => [] := by
  unfold readEntryDocument
  refine .reading fun _ => .reading fun found => ?_
  refine (Records.optionally declareInfo_records (List.nil_subset _) _).bind fun _ => ?_
  refine .after (readServers_silent root) fun servers => ?_
  refine Records.bind (.update fun s t h => ⟨.describe s.info servers, h, List.nil_subset _⟩) fun _ => ?_
  refine .reading fun components => ?_
  refine (Records.optionally readComponentModels_records (List.nil_subset _) _).bind fun _ => ?_
  refine .after (readCommonSecurity_silent root) fun security => .reading fun paths => ?_
  refine (Records.optionally (readPaths_records _) (List.nil_subset _) _).bind fun _ => ?_
  exact .optionally readComponentSchemes_records (List.nil_subset _) _

theorem readForeignDocument_records (root : Mapping) :
    Records known (readForeignDocument root) fun _ => [] := by
  unfold readForeignDocument
  refine .reading fun _ => .reading fun found => ?_
  split
  next => exact .pure (List.nil_subset _)
  next components _ => exact .reading fun _ => readComponentModels_records components

/-- Reading a document is reading from its root, with the marks of the session put away. -/
theorem run_readWith (read : Mapping → Building Unit) (d : Document) (session : Session) :
    (readWith read d).run.run session =
      ((((liftM d.mapping >>= read).run.run { session with usage := .none }).1.map fun _ =>
          ((liftM d.mapping >>= read).run.run { session with usage := .none }).2.usage),
        ((liftM d.mapping >>= read).run.run { session with usage := .none }).2) := rfl

theorem readWith_records {read : Mapping → Building Unit} (d : Document)
    (hread : ∀ root, Records known (read root) fun _ => []) :
    Records known (readWith read d) fun _ => [] := by
  have hroot : Records known (liftM d.mapping >>= read) fun _ => [] := .lift hread
  intro session u after hrun
  rw [run_readWith] at hrun
  cases hfrom : (liftM d.mapping >>= read).run.run { session with usage := .none } with
  | mk result middle =>
    rw [hfrom] at hrun
    obtain ⟨hresult, rfl⟩ := Prod.mk.inj hrun
    cases result with
    | error e => exact absurd hresult (by simp [Except.map])
    | ok _ => exact hroot { session with usage := .none } _ _ hfrom

/-! ## §3. Builds. -/

theorem report_silent (events : List Event) : Silent (events.forM Building.report) :=
  .forM fun e _ => .of_report e

theorem readReferenced_records (loader : Loader) (v : Visited) (file : String) :
    Records known (readReferenced loader v file) fun _ => [] := by
  unfold readReferenced
  dsimp only
  refine .after (report_silent _) fun _ => ?_
  split
  next e _ =>
    split
    next => exact .report fun _ => .pure (List.nil_subset _)
    next => exact .throw
  next d _ =>
    refine .report fun _ => (readWith_records d readForeignDocument_records).bind fun usage => ?_
    exact .pure (List.nil_subset _)

theorem readPending_records (loader : Loader) {rounds : Nat} :
    ∀ v, Records known (readPending loader rounds v) fun _ => [] := by
  induction rounds generalizing known with
  | zero => exact fun v => .pure (List.nil_subset _)
  | succ rounds ih =>
    intro v
    unfold readPending
    refine .spec fun s => ?_
    split
    next => exact .pure (List.nil_subset _)
    next files _ =>
      refine Records.bind (.foldlM (fun v file _ => readReferenced_records loader v file) v ?_) ih
      exact List.nil_subset _

/-! ## §4. Steps of a build. -/

theorem run_report (events : List Event) (session : Session) :
    (events.forM Building.report).run.run session =
      (.ok (), { session with events := session.events ++ events }) := by
  induction events generalizing session with
  | nil => rw [List.append_nil]; rfl
  | cons e events ih =>
    have hfirst : (Building.report e).run.run session =
        (.ok (), { session with events := session.events ++ [e] }) := rfl
    show (Building.report e >>= fun _ => events.forM Building.report).run.run session = _
    rw [Building.run_bind hfirst, ih, List.append_assoc, List.singleton_append]

theorem run_load (loader : Loader) (name : String) (session : Session) :
    (load loader name).run.run session =
      ((loader.load name).2, { session with events := session.events ++ (loader.load name).1 }) := by
  unfold load
  dsimp only
  rw [Building.run_bind (run_report _ _)]
  cases (loader.load name).2 with
  | ok d => rfl
  | error e => rfl

theorem run_reset (s : Spec) (session : Session) :
    (Building.update fun _ => .ok s).run.run session = (.ok (), { session with spec := s }) := rfl

/-- What is read starts with the entry document, into a spec without content. -/
theorem run_readAll {loader : Loader} {entry : String} {d : Document} (hload : (loader.load entry).2 = .ok d)
    (options : Options) (session : Session) :
    (readAll loader options entry).run.run session =
      (readWith (readEntryDocument options) d >>= fun u =>
        readPending loader (loader.size + 2) ⟨[d.filename, entry], [(d, u)]⟩).run.run
          { session with
            spec := .empty d.filename
            events := session.events ++ (loader.load entry).1 } := by
  have hentry : (load loader entry).run.run session =
      (.ok d, { session with events := session.events ++ (loader.load entry).1 }) := by
    rw [run_load, hload]
  unfold readAll
  rw [Building.run_bind hentry, Building.run_bind (run_reset _ _)]

theorem readAll_ok {loader : Loader} {options : Options} {entry : String} {v : Visited}
    {session after : Session} (h : (readAll loader options entry).run.run session = (.ok v, after)) :
    ∃ d started, (loader.load entry).2 = .ok d ∧ started.spec = .empty d.filename ∧
      (readWith (readEntryDocument options) d >>= fun u =>
        readPending loader (loader.size + 2) ⟨[d.filename, entry], [(d, u)]⟩).run.run started =
          (.ok v, after) := by
  have hloaded : ∃ d, (loader.load entry).2 = .ok d := by
    unfold readAll at h
    obtain ⟨d, loaded, hloaded, -⟩ := Building.run_bind_ok h
    rw [run_load] at hloaded
    exact ⟨d, (Prod.mk.inj hloaded).1⟩
  obtain ⟨d, hload⟩ := hloaded
  rw [run_readAll hload] at h
  exact ⟨d, _, hload, rfl, h⟩

/-- A document that is not there is skipped, and one that is there is read with marks of its own. -/
theorem run_readReferenced (loader : Loader) (v : Visited) (file : String) (session : Session) :
    (readReferenced loader v file).run.run session =
      match (loader.load file).2 with
      | .error e =>
        if e.errorClass = .io then
          (.ok (v.skip file), { session with events :=
            session.events ++ (loader.load file).1 ++ [.unreadableDocument file e.message] })
        else (.error e, { session with events := session.events ++ (loader.load file).1 })
      | .ok d =>
        (readWith readForeignDocument d >>= fun u => Pure.pure (v.add file d u)).run.run
          { session with events := session.events ++ (loader.load file).1 ++ [.loadingReferenced file] } := by
  unfold readReferenced
  dsimp only
  rw [Building.run_bind (run_report _ _)]
  -- a file that cannot be read is skipped with a report; any other error of the loader ends the run
  cases (loader.load file).2 with
  | ok d => rfl
  | error e =>
    dsimp only
    split
    next => rfl
    next => rfl

/-- What asking for a file comes to if it raises no error: either there is no document, and the name is noted, or the
document was read. -/
inductive Asked (loader : Loader) (v : Visited) (file : String) (session : Session) : Visited → Session → Prop
  | missing {e : Error} (hload : (loader.load file).2 = .error e) (hio : e.errorClass = .io) :
      Asked loader v file session (v.skip file) { session with events :=
        session.events ++ (loader.load file).1 ++ [.unreadableDocument file e.message] }
  | found {d : Document} {u : Usage} {after : Session} (hload : (loader.load file).2 = .ok d)
      (hread : (readWith readForeignDocument d).run.run { session with events :=
        session.events ++ (loader.load file).1 ++ [.loadingReferenced file] } = (.ok u, after)) :
      Asked loader v file session (v.add file d u) after

theorem readReferenced_eq_ok {loader : Loader} {v w : Visited} {file : String} {session after : Session} :
    (readReferenced loader v file).run.run session = (.ok w, after) ↔ Asked loader v file session w after := by
  rw [run_readReferenced]
  constructor
  -- an error of loading is passed over only if the document could not be reached
  · intro h
    cases hload : (loader.load file).2 with
    | error e =>
      rw [hload] at h
      dsimp only at h
      split at h
      next hio =>
        cases h
        exact .missing hload hio
      next => exact absurd (Prod.mk.inj h).1 nofun
    | ok d =>
      rw [hload] at h
      obtain ⟨u, read, hread, h⟩ := Building.run_bind_ok h
      obtain ⟨rfl, rfl⟩ := Building.run_pure_ok h
      exact .found hload hread
  · intro h
    cases h with
    | missing hload hio =>
      rw [hload]
      exact if_pos hio
    | found hload hread =>
      rw [hload]
      exact (Building.run_bind hread).trans rfl

/-- Where no file is pending, nothing more is read. -/
theorem run_readPending_nil {loader : Loader} {rounds : Nat} {v : Visited} {session : Session}
    (h : pending v session.spec = []) :
    (readPending loader (rounds + 1) v).run.run session = (.ok v, session) := by
  have hlook : Building.spec.run.run session = (.ok session.spec, session) := rfl
  unfold readPending
  rw [Building.run_bind hlook, h]
  rfl

/-- The pending files are read in a row, and then what they name in turn. -/
theorem run_readPending_cons {loader : Loader} {rounds : Nat} {v : Visited} {session : Session} {file : String}
    {files : List String} (h : pending v session.spec = file :: files) :
    (readPending loader (rounds + 1) v).run.run session =
      ((file :: files).foldlM (readReferenced loader) v >>= readPending loader rounds).run.run session := by
  have hlook : Building.spec.run.run session = (.ok session.spec, session) := rfl
  rw [readPending, Building.run_bind hlook, h]

/-! ## §5. Builds that succeed. -/

/-- **The spec of a build is made of changes that record what they store,** from the name of the entry document
on. -/
theorem changes_of_readAll {loader : Loader} {options : Options} {entry : String} {v : Visited}
    {session after : Session} (h : (readAll loader options entry).run.run session = (.ok v, after)) :
    ∃ d changes, (loader.load entry).2 = .ok d ∧ (Spec.empty d.filename).applyAll changes = .ok after.spec ∧
      ∀ c ∈ changes, Covered [] changes c.references := by
  obtain ⟨d, started, hload, hspec, h⟩ := readAll_ok h
  have hread : Records [] (readWith (readEntryDocument options) d >>= fun u =>
      readPending loader (loader.size + 2) ⟨[d.filename, entry], [(d, u)]⟩) fun _ => [] :=
    (readWith_records d (readEntryDocument_records options)).bind fun u => readPending_records loader _
  obtain ⟨changes, happly, hchanges, -⟩ := hread _ _ _ h
  exact ⟨d, changes, hload, hspec ▸ happly, hchanges⟩

theorem recorded_of_readAll {loader : Loader} {options : Options} {entry : String} {v : Visited}
    {session after : Session} (h : (readAll loader options entry).run.run session = (.ok v, after)) :
    after.spec.Made ∧ after.spec.Recorded := by
  obtain ⟨d, changes, -, happly, hchanges⟩ := changes_of_readAll h
  exact ⟨⟨_, changes, happly⟩, Spec.recorded_of_changes happly hchanges⟩

/-- The checks that the options ask for pass if each of them does. -/
theorem check_eq_ok {options : Options} {v : Visited} {s : Spec} :
    check options v s = .ok () ↔
      (options.validateReferences = true → s.validateReferences = .ok () ∧ s.checkCompositions = .ok ()) ∧
        (options.strict = true → v.documents.forM (fun e => e.1.checkUnused e.2) = .ok ()) := by
  -- both checks stand behind an option, and the second comes only after the first passed
  have hstrict : (if options.strict then v.documents.forM fun e => e.1.checkUnused e.2 else pure ()) = .ok () ↔
      (options.strict = true → v.documents.forM (fun e => e.1.checkUnused e.2) = .ok ()) := by
    split
    next hon => exact ⟨fun h _ => h, fun h => h hon⟩
    next hoff => exact ⟨fun _ hon => absurd hon hoff, fun _ => rfl⟩
  unfold check
  by_cases hvalidate : options.validateReferences = true
  · rw [if_pos hvalidate, ← hstrict]
    constructor
    · intro h
      obtain ⟨_, hreferences, h⟩ := Outcome.bind_eq_ok.1 h
      obtain ⟨_, hcompositions, h⟩ := Outcome.bind_eq_ok.1 h
      exact ⟨fun _ => ⟨hreferences, hcompositions⟩, h⟩
    · rintro ⟨hchecks, h⟩
      obtain ⟨hreferences, hcompositions⟩ := hchecks hvalidate
      exact Outcome.bind_eq_ok.2 ⟨(), hreferences, Outcome.bind_eq_ok.2 ⟨(), hcompositions, h⟩⟩
  · rw [if_neg hvalidate, ← hstrict]
    exact ⟨fun h => ⟨fun hon => absurd hon hvalidate, h⟩, fun h => h.2⟩

/-- A build gives a spec if the documents are read into it and the checks of the options pass. -/
theorem build_eq_ok {loader : Loader} {options : Options} {entry : String} {s : Spec} :
    (build loader options entry).2 = .ok s ↔
      ∃ v after, (readAll loader options entry).run.run ⟨.none, .empty entry, []⟩ = (.ok v, after) ∧
        after.spec = s ∧ check options v s = .ok () := by
  have hbuild : (build loader options entry).2 =
      ((buildSpec loader options entry).run.run ⟨.none, .empty entry, []⟩).1 := rfl
  rw [hbuild]
  unfold buildSpec
  constructor
  · intro h
    -- the steps after the reading leave the spec as it was read
    obtain ⟨v, read, hread, hrun⟩ := Building.run_bind_ok (Prod.ext h rfl)
    obtain ⟨t, looked, hlook, hrun⟩ := Building.run_bind_ok hrun
    obtain ⟨_, checked, hcheck, hrun⟩ := Building.run_bind_ok hrun
    obtain ⟨_, reported, -, hrun⟩ := Building.run_bind_ok hrun
    obtain ⟨hspec, -⟩ := Building.run_spec_ok hlook
    obtain ⟨rfl, -⟩ := Building.run_pure_ok hrun
    exact ⟨v, read, hread, hspec, (Building.run_lift_ok hcheck).1⟩
  · rintro ⟨v, after, hread, rfl, hcheck⟩
    have hlook : Building.spec.run.run after = (.ok after.spec, after) := rfl
    rw [Building.run_bind hread, Building.run_bind hlook, hcheck]
    rfl

end Build

end OpenApi
