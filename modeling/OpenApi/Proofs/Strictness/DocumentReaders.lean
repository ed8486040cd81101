/-
  OpenApi.Proofs.Strictness.DocumentReaders — reading a document and the trimmed one.

  Reading a document that succeeds makes only changes of the document. If it is read again without the keys that
  this left unused, from the same spec, the same marks and the same spec come out (`readWith_trimmed`).
-/
import OpenApi.Build.Basic
import OpenApi.Proofs.Build.DocumentReaders
import OpenApi.Proofs.Strictness.OperationReaders

namespace OpenApi.Build

open Trim (Follows)

variable {T : Trim} {m m' : Mapping}

/-! ## §1. Information and servers. -/

theorem readContact_follows (h : T.Cuts m m') : T.Follows (readContact m) (readContact m') Eq True := by
  unfold readContact
  refine (Follows.string h "name").bind fun name name' hname => ?_
  refine (Follows.string h "email").bind fun email email' hemail => ?_
  refine (Follows.string h "url").bind fun url url' hurl => ?_
  exact .pure (by rw [hname.same, hemail.same, hurl.same]) trivial

theorem readInfo_follows (h : T.Cuts m m') : T.Follows (readInfo m) (readInfo m') Eq True := by
  unfold readInfo
  refine (Follows.ignore h _).bind fun _ _ _ => ?_
  refine (Follows.mapping h "contact").bind fun found found' hfound => ?_
  have hcontact : ∀ c c', T.Cuts c c' →
      T.Follows (some <$> readContact c) (some <$> readContact c') Eq True :=
    fun c c' hc => (readContact_follows hc).map fun _ _ => congrArg some
  refine (Follows.optionally hfound.outcome hcontact rfl trivial).bind ?_
  rintro contact _ rfl
  refine (Follows.string h "title").bind fun title title' htitle => ?_
  refine (Follows.string h "description").bind fun description description' hdescription => ?_
  refine (Follows.string h "version").bind fun version version' hversion => ?_
  exact .pure (by rw [htitle.same, hdescription.same, hversion.same]) trivial

theorem declareInfo_follows (h : T.Cuts m m') :
    T.Follows (declareInfo m) (declareInfo m') (fun _ _ => True) True := by
  unfold declareInfo
  refine (readInfo_follows h).bind ?_
  rintro info _ rfl
  exact .update fun s t hf => ⟨.describe info s.servers, hf, trivial⟩

theorem readServer_follows (h : T.Cuts m m') : T.Follows (readServer m) (readServer m') Eq True := by
  unfold readServer
  refine (Follows.ignore h _).bind fun _ _ _ => ?_
  refine (Follows.string h "url").bind fun found found' hfound => (Follows.required hfound).bind ?_
  rintro url _ ⟨rfl, -⟩
  refine (Follows.string h "description").bind fun description description' hdescription => ?_
  refine (Follows.string h "name").bind fun name name' hname => ?_
  exact .pure (by rw [hdescription.same, hname.same]) trivial

theorem readServers_follows (h : T.Cuts m m') : T.Follows (readServers m) (readServers m') Eq True := by
  unfold readServers
  refine (Follows.sequence h "servers").bind fun found found' hfound => ?_
  cases hfound with
  | missing hl hl' =>
    rw [hl, hl']
    exact .pure rfl trivial
  | present hl hl' hservers _ =>
    rw [hl, hl']
    refine (Follows.mappings hservers).bind fun ms ms' hms => ?_
    refine (Follows.mapM_eq (Q := T.Cuts) (fun c c' hc => readServer_follows hc) hms).bind ?_
    rintro servers _ rfl
    split
    next => exact .pure rfl trivial
    next => exact .pure rfl trivial

/-! ## §2. Documents. -/

theorem readComponentModels_follows (h : T.Cuts m m') :
    T.Follows (readComponentModels m) (readComponentModels m') (fun _ _ => True) True := by
  unfold readComponentModels
  refine (Follows.mapping h "schemas").bind fun found found' hfound => ?_
  exact Follows.optionally hfound.outcome (fun c c' hc => readModels_follows hc) trivial trivial

theorem readComponentSchemes_follows (h : T.Cuts m m') :
    T.Follows (readComponentSchemes m) (readComponentSchemes m') (fun _ _ => True) True := by
  unfold readComponentSchemes
  refine (Follows.mapping h "securitySchemes").bind fun found found' hfound => ?_
  exact Follows.optionally hfound.outcome (fun c c' hc => readSchemes_follows hc) trivial trivial

theorem readCommonSecurity_follows (h : T.Cuts m m') :
    T.Follows (readCommonSecurity m) (readCommonSecurity m') Eq True := by
  unfold readCommonSecurity
  refine (Follows.sequence h "security").bind fun found found' hfound => ?_
  exact Follows.optionally hfound.outcome (fun s s' hs => readRequirements_follows hs) rfl trivial

theorem readEntryDocument_follows (options : Options) (h : T.Cuts m m') :
    T.Follows (readEntryDocument options m) (readEntryDocument options m') (fun _ _ => True) True := by
  unfold readEntryDocument
  refine (Follows.ignore h _).bind fun _ _ _ => ?_
  refine (Follows.mapping h "info").bind fun info info' hinfo => ?_
  refine (Follows.optionally hinfo.outcome (S := fun _ _ => True)
    (fun c c' hc => declareInfo_follows hc) trivial trivial).bind fun _ _ _ => ?_
  refine (readServers_follows h).bind ?_
  rintro servers _ rfl
  refine Follows.bind (Follows.update fun s t hf => ⟨.describe s.info servers, hf, trivial⟩) fun _ _ _ => ?_
  refine (Follows.mapping h "components").bind fun components components' hcomponents => ?_
  refine (Follows.optionally hcomponents.outcome (S := fun _ _ => True)
    (fun c c' hc => readComponentModels_follows hc) trivial trivial).bind fun _ _ _ => ?_
  refine (readCommonSecurity_follows h).bind ?_
  rintro security _ rfl
  refine (Follows.mapping h "paths").bind fun paths paths' hpaths => ?_
  refine (Follows.optionally hpaths.outcome (S := fun _ _ => True)
    (fun c c' hc => readPaths_follows hc _) trivial trivial).bind fun _ _ _ => ?_
  exact Follows.optionally hcomponents.outcome (fun c c' hc => readComponentSchemes_follows hc) trivial trivial

/-- Keys of the mapping that are passed over stay, so the same keys are passed over again. -/
theorem ignore_keys_follows (h : T.Cuts m m') (p : String → Bool) :
    T.Follows (liftM (m.ignore (m.keys.filter p))) (liftM (m'.ignore (m'.keys.filter p))) (fun _ _ => True)
      True := by
  refine ((Follows.ignore h (m.keys.filter p)).showing fun hkeep => ⟨trivial, hkeep⟩).congr_right
    fun hkeep => ?_
  have hkeys : m'.keys.filter p = m.keys.filter p := by
    rw [h.keys, List.filter_filter]
    refine List.filter_congr fun key hkey => ?_
    cases hp : p key with
    | false => rfl
    | true => simpa using hkeep key (List.mem_filter.2 ⟨hkey, hp⟩) (Trim.Cuts.mem_keys.1 hkey)
  rw [hkeys]

theorem readForeignDocument_follows (h : T.Cuts m m') :
    T.Follows (readForeignDocument m) (readForeignDocument m') (fun _ _ => True) True := by
  unfold readForeignDocument
  refine (Follows.ignore h _).bind fun _ _ _ => ?_
  refine (Follows.mapping h "components").bind fun found found' hfound => ?_
  cases hfound with
  | missing hl hl' =>
    rw [hl, hl']
    exact .pure trivial trivial
  | present hl hl' hcut _ =>
    rw [hl, hl']
    exact (ignore_keys_follows hcut _).bind fun _ _ _ => readComponentModels_follows hcut

/-! ## §3. Whole documents. -/

/-- Reading a document leads on within it, and reading it without what was left unused does the same. -/
theorem readWith_trimmed {read : Mapping → Building Unit}
    (hread : ∀ (T : Trim) (m m' : Mapping), T.Cuts m m' →
      T.Follows (read m) (read m') (fun _ _ => True) True)
    {d : Document} {u : Usage} {session after : Session}
    (h : (readWith read d).run.run session = (.ok u, after)) :
    (∃ changes, session.spec.applyAll changes = .ok after.spec ∧ ∀ c ∈ changes, c.IsFrom d.filename) ∧
      ∀ {d' : Document} {session' : Session}, d.Trimmed u d' → session'.spec = session.spec →
        ∃ after', (readWith read d').run.run session' = (.ok u, after') ∧ after'.spec = after.spec := by
  -- the reader follows the trimmed root; the usage that trims it is the one that the same run makes
  have hroot : ∀ {d' : Document}, d.Trimmed u d' → (Trim.unused d.filename u d.root).Follows
      (liftM d.mapping >>= read) (liftM d'.mapping >>= read) (fun _ _ => True) True := by
    intro d' hd
    refine Follows.bind (Follows.lift fun m hm => ?_) (hread _)
    unfold Document.mapping
    rw [hd.root]
    exact Trim.cuts_of_ofNode (T := .unused d.filename u d.root) rfl hd.filename hm
  rw [run_readWith] at h
  cases hfrom : (liftM d.mapping >>= read).run.run { session with usage := .none } with
  | mk result last =>
    rw [hfrom] at h
    obtain ⟨hresult, rfl⟩ := Prod.mk.inj h
    cases result with
    | error e => exact absurd hresult nofun
    | ok _ =>
      have husage : last.usage = u := Except.ok.inj hresult
      have htrimmed : d.Trimmed u { d with root := d.root.without (u.unused d.root) [] } := ⟨rfl, rfl⟩
      obtain ⟨hleads, -, -⟩ := hroot htrimmed _ _ _ hfrom
      refine ⟨hleads.changes, fun {d' session'} hd hspec => ?_⟩
      obtain ⟨-, -, hagain⟩ := hroot hd _ _ _ hfrom
      have hwithin : last.usage.Within (Trim.unused d.filename u d.root).usage := husage ▸ .refl _
      obtain ⟨_, events', hrun', -⟩ := (hagain hwithin).2 session'.events
      refine ⟨{ last with events := events' }, ?_, rfl⟩
      -- both runs start from no usage, and the events of the session are the only difference that is left
      have hstart : { session' with usage := .none } =
          { { session with usage := .none } with events := session'.events } := by
        rw [← hspec]
      rw [run_readWith, hstart, hrun', ← husage]
      rfl

end OpenApi.Build
