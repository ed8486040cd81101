/-
  OpenApi.Proofs.Pairs.DocumentReaders — reading documents that belong together.

  Whole documents are read from their roots, with marks of their own, and the marks belong together in the end
  (`readWith_matches`).
-/
import OpenApi.Build.Basic
import OpenApi.Proofs.Pairs.ModelReaders
import OpenApi.Proofs.Pairs.OperationReaders

namespace OpenApi.Build

open Pairing (Matches Pair)

variable {P : Pairing} {r : Role} {m m' : Mapping}

/-! ## §1. Information and servers. -/

theorem readContact_matches (h : P.Pair r m m') : P.Matches Eq (readContact m) (readContact m') := by
  unfold readContact
  refine (h.string (.inr rfl)).lift.bind fun name name' hname => ?_
  refine (h.string (.inr rfl)).lift.bind fun email email' hemail => ?_
  refine (h.string (.inr rfl)).lift.bind fun url url' hurl => ?_
  exact .pure (by rw [hname.same, hemail.same, hurl.same])

theorem readInfo_matches (h : P.Pair r m m') : P.Matches Eq (readInfo m) (readInfo m') := by
  unfold readInfo
  refine (h.ignore _ rfl).lift.bind fun _ _ _ => (h.mapping (.inr rfl)).lift.bind fun found found' hfound => ?_
  have hcontact : ∀ c c', P.Pair (r.under "contact") c c' →
      P.Matches Eq (some <$> readContact c) (some <$> readContact c') :=
    fun c c' hc => (readContact_matches hc).map fun _ _ => congrArg some
  apply (Mirrors.optionally hfound.optional hcontact rfl).bind
  rintro contact _ rfl
  refine (h.string (.inr rfl)).lift.bind fun title title' htitle => ?_
  refine (h.string (.inr rfl)).lift.bind fun description description' hdescription => ?_
  refine (h.string (.inr rfl)).lift.bind fun version version' hversion => ?_
  exact .pure (by rw [htitle.same, hdescription.same, hversion.same])

theorem declareInfo_matches (m m' : Mapping) (h : P.Pair r m m') : P.Matches Eq (declareInfo m) (declareInfo m') := by
  unfold declareInfo
  apply (readInfo_matches h).bind
  rintro info _ rfl
  exact Matches.update _

theorem readServer_matches (m m' : Mapping) (h : P.Pair r m m') : P.Matches Eq (readServer m) (readServer m') := by
  unfold readServer
  refine (h.ignore _ rfl).lift.bind fun _ _ _ => ?_
  apply (h.string (.inr rfl)).bind_required
  rintro url _ rfl
  refine (h.string (.inr rfl)).lift.bind fun description description' hdescription => ?_
  refine (h.string (.inr rfl)).lift.bind fun name name' hname => ?_
  exact .pure (by rw [hdescription.same, hname.same])

theorem readServers_matches (h : P.Pair r m m') : P.Matches Eq (readServers m) (readServers m') := by
  unfold readServers
  refine (h.sequence (.inr rfl)).lift.bind fun found found' hfound => ?_
  obtain ⟨servers, servers', hl, hl', hservers⟩ | ⟨hl, hl'⟩ := hfound.cases
  · rw [hl, hl']
    apply (Mirrors.ofExcept hservers.mappings).bind
    intro ms ms' hms
    apply (Mirrors.mapM_eq readServer_matches hms).bind
    rintro read _ rfl
    split
    next => exact .pure rfl
    next => exact .pure rfl
  · rw [hl, hl']
    exact .pure rfl

/-! ## §2. Documents. -/

theorem readComponentModels_matches (m m' : Mapping) (h : P.Pair .components m m') :
    P.Matches Eq (readComponentModels m) (readComponentModels m') := by
  unfold readComponentModels
  refine (h.mapping (.inr rfl)).lift.bind fun found found' hfound => ?_
  exact Mirrors.optionally hfound.optional readModels_matches rfl

theorem readComponentSchemes_matches (m m' : Mapping) (h : P.Pair .components m m') :
    P.Matches Eq (readComponentSchemes m) (readComponentSchemes m') := by
  unfold readComponentSchemes
  refine (h.mapping (.inr rfl)).lift.bind fun found found' hfound => ?_
  exact Mirrors.optionally hfound.optional readSchemes_matches rfl

theorem readCommonSecurity_matches (h : P.Pair .entry m m') :
    P.Matches Eq (readCommonSecurity m) (readCommonSecurity m') := by
  unfold readCommonSecurity
  refine (h.sequence (.inr rfl)).lift.bind fun found found' hfound => ?_
  exact Mirrors.optionally hfound.optional readRequirements_matches rfl

theorem readEntryDocument_matches (options : Options) (m m' : Mapping) (h : P.Pair .entry m m') :
    P.Matches Eq (readEntryDocument options m) (readEntryDocument options m') := by
  unfold readEntryDocument
  refine (h.ignore _ rfl).lift.bind fun _ _ _ => (h.mapping (.inr rfl)).lift.bind fun info info' hinfo => ?_
  refine (Mirrors.optionally hinfo.optional declareInfo_matches rfl).bind fun _ _ _ => ?_
  apply (readServers_matches h).bind
  rintro servers _ rfl
  refine (Matches.update _).bind fun _ _ _ => ?_
  refine (h.mapping (.inr rfl)).lift.bind fun components components' hcomponents => ?_
  refine (Mirrors.optionally hcomponents.optional readComponentModels_matches rfl).bind fun _ _ _ => ?_
  apply (readCommonSecurity_matches h).bind
  rintro security _ rfl
  refine (h.mapping (.inr rfl)).lift.bind fun paths paths' hpaths => ?_
  refine (Mirrors.optionally hpaths.optional (readPaths_matches _) rfl).bind fun _ _ _ => ?_
  exact Mirrors.optionally hcomponents.optional readComponentSchemes_matches rfl

theorem readForeignDocument_matches (m m' : Mapping) (h : P.Pair .foreign m m') :
    P.Matches Eq (readForeignDocument m) (readForeignDocument m') := by
  unfold readForeignDocument
  refine (h.ignore _ rfl).lift.bind fun _ _ _ => (h.mapping (.inr rfl)).lift.bind fun found found' hfound => ?_
  obtain ⟨components, components', hl, hl', hcomponents⟩ | ⟨hl, hl'⟩ := hfound.cases
  · rw [hl, hl']
    exact hcomponents.ignoreOthers.lift.bind fun _ _ _ => readComponentModels_matches _ _ hcomponents
  · rw [hl, hl']
    exact .pure rfl

/-! ## §3. Whole documents. -/

/-- **Documents that belong together are read alike**, and their marks belong together in the end. -/
theorem readWith_matches {read : Mapping → Building Unit} {d d' : Document}
    (hread : ∀ m m', P.Pair r m m' → P.Matches Eq (read m) (read m')) (h : P.Documents r d d') :
    P.Matches P.marks (readWith read d) (readWith read d') := by
  have hroot : P.Matches Eq (liftM d.mapping >>= read) (liftM d'.mapping >>= read) :=
    (Mirrors.ofExcept h.mapping).bind hread
  intro s s' hs
  -- the marks of the document before are put away
  have hstart : P.Sessions { s with usage := .none } { s' with usage := .none } := ⟨hs.spec, P.unmarked⟩
  obtain ⟨hresult, hsessions⟩ := hroot _ _ hstart
  exact ⟨hresult.map fun _ _ _ => hsessions.usage, hsessions⟩

end OpenApi.Build
