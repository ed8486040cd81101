/-
  OpenApi.Proofs.Closure.Rounds — the rounds of a build come to an end.

  A build reads what is pending until nothing is, however long that takes: `Settles` says so without a bound on the
  rounds. A round that reads a document looks at a name that is served and was not looked at, and a round that reads
  none records no reference, so nothing is pending after it. So there are at most two more rounds than names that are
  served, and the bound of `readPending` is never met. Main statement: `settles_of_readPending`.
-/
import OpenApi.Proofs.Build.Visits
import OpenApi.Proofs.Effects.Steady

namespace OpenApi

/-- No more names lead to documents than the loader counts. -/
def Loader.Bounded (loader : Loader) : Prop :=
  ∃ names : List String, names.length ≤ loader.size ∧ ∀ name d, (loader.load name).2 = .ok d → name ∈ names

theorem Loader.bounded_memory (documents : List (String × Except Error Document)) : (memory documents).Bounded := by
  refine ⟨documents.map Prod.fst, (List.length_map _).le, fun name d hload => ?_⟩
  unfold memory Keyed.value? at hload
  dsimp only at hload
  cases hfind : Keyed.find? Prod.fst name documents with
  | none =>
    rw [hfind] at hload
    exact absurd hload nofun
  | some entry =>
    obtain ⟨hmem, hname⟩ := Keyed.find?_eq_some hfind
    exact List.mem_map.2 ⟨entry, hmem, hname⟩

namespace Build

variable {loader : Loader} {v w : Visited} {session after : Session}

/-! ## §1. Rounds without a bound. -/

/-- Reading what is pending, round by round, until nothing is pending or a round fails, leads to this result. -/
inductive Settles (loader : Loader) : Visited → Session → Except Error Visited × Session → Prop
  | done {v : Visited} {session : Session} (h : pending v session.spec = []) :
      Settles loader v session (.ok v, session)
  | fails {v : Visited} {session after : Session} {e : Error} (h : pending v session.spec ≠ [])
      (hround : ((pending v session.spec).foldlM (readReferenced loader) v).run.run session = (.error e, after)) :
      Settles loader v session (.error e, after)
  | again {v w : Visited} {session middle : Session} {result : Except Error Visited × Session}
      (h : pending v session.spec ≠ [])
      (hround : ((pending v session.spec).foldlM (readReferenced loader) v).run.run session = (.ok w, middle))
      (hrest : Settles loader w middle result) : Settles loader v session result

/-- Where the rounds end well, nothing is pending. -/
theorem Settles.pending_eq_nil {result : Except Error Visited × Session} (h : Settles loader v session result) :
    result.1 = .ok w → pending w result.2.spec = [] := by
  induction h with
  | done h =>
    intro heq
    cases heq
    exact h
  | fails => exact nofun
  | again _ _ _ ih => exact ih

/-! ## §2. One round. -/

/-- Asking for a file notes its name; if there is no document, nothing is recorded. -/
theorem names_of_readReferenced {file : String}
    (h : (readReferenced loader v file).run.run session = (.ok w, after)) :
    file ∈ w.names ∧ v.names ⊆ w.names ∧
      ((∀ d, (loader.load file).2 ≠ .ok d) → after.spec = session.spec) := by
  cases readReferenced_eq_ok.1 h with
  | missing => exact ⟨List.mem_cons_self, List.subset_cons_self _ _, fun _ => rfl⟩
  | @found d _ _ hload _ =>
    refine ⟨List.mem_cons_of_mem _ List.mem_cons_self, ?_, fun hnone => absurd hload (hnone d)⟩
    exact fun name hname => List.mem_cons_of_mem _ (List.mem_cons_of_mem _ hname)

theorem names_of_foldlM {files : List String} :
    ∀ {v : Visited} {session : Session},
      (files.foldlM (readReferenced loader) v).run.run session = (.ok w, after) →
        files ⊆ w.names ∧ v.names ⊆ w.names ∧
          ((∀ file ∈ files, ∀ d, (loader.load file).2 ≠ .ok d) → after.spec = session.spec) := by
  induction files with
  | nil =>
    intro v session h
    obtain ⟨rfl, rfl⟩ := Building.run_pure_ok h
    exact ⟨List.nil_subset _, List.Subset.refl _, fun _ => rfl⟩
  | cons file files ih =>
    intro v session h
    rw [List.foldlM_cons] at h
    obtain ⟨mid, middle, hmid, h⟩ := Building.run_bind_ok h
    obtain ⟨hfile, hbefore, hsame⟩ := names_of_readReferenced hmid
    obtain ⟨hfiles, hlater, hsame'⟩ := ih h
    refine ⟨List.cons_subset.2 ⟨hlater hfile, hfiles⟩, List.Subset.trans hbefore hlater, fun hnone => ?_⟩
    obtain ⟨hfirst, hrest⟩ := List.forall_mem_cons.1 hnone
    exact (hsame' hrest).trans (hsame hfirst)

/-- After a round that reads no document nothing is pending: what is named was looked at before or just now. -/
theorem pending_eq_nil_of_round
    (h : ((pending v session.spec).foldlM (readReferenced loader) v).run.run session = (.ok w, after))
    (hnone : ∀ name ∈ pending v session.spec, ∀ d, (loader.load name).2 ≠ .ok d) : pending w after.spec = [] := by
  obtain ⟨hfiles, hnames, hsame⟩ := names_of_foldlM h
  refine List.filter_eq_nil_iff.2 fun name hname => ?_
  rw [hsame hnone] at hname
  by_cases hlooked : name ∈ v.names
  · simp [hnames hlooked]
  · have hpending : name ∈ pending v session.spec := List.mem_filter.2 ⟨hname, by simpa using hlooked⟩
    simp [hfiles hpending]

/-! ## §3. All rounds. -/

/-- The names that lead to documents and were not looked at are on this list. -/
def Unseen (loader : Loader) (v : Visited) (unseen : List String) : Prop :=
  ∀ name d, (loader.load name).2 = .ok d → name ∉ v.names → name ∈ unseen

/-- A name that a round looked at is taken from the list. -/
theorem Unseen.erase {unseen : List String} {name : String} (h : Unseen loader v unseen)
    (hround : ((pending v session.spec).foldlM (readReferenced loader) v).run.run session = (.ok w, after))
    (hname : name ∈ pending v session.spec) : Unseen loader w (unseen.erase name) := by
  obtain ⟨hfiles, hnames, -⟩ := names_of_foldlM hround
  intro name' d hload hnew
  have hother : name' ≠ name := by
    rintro rfl
    exact hnew (hfiles hname)
  exact (List.mem_erase_of_ne hother).2 (h name' d hload fun hlooked => hnew (hnames hlooked))

/-- Rounds that are bounded by the names that were not looked at settle. -/
theorem settles_of_unseen {rounds : Nat} :
    ∀ {v : Visited} {session : Session} {unseen : List String}, Unseen loader v unseen → unseen.length < rounds →
      Settles loader v session ((readPending loader (rounds + 1) v).run.run session) := by
  -- each round that reads a document takes a name from the list, and the round bound goes down with it
  induction rounds with
  | zero => exact fun _ h => absurd h (Nat.not_lt_zero _)
  | succ rounds ih =>
    intro v session unseen hunseen hlength
    cases hpending : pending v session.spec with
    | nil =>
      rw [run_readPending_nil hpending]
      exact .done hpending
    | cons file files =>
      have hne : pending v session.spec ≠ [] := by
        rw [hpending]
        exact nofun
      rw [run_readPending_cons hpending, ← hpending]
      cases hround : ((pending v session.spec).foldlM (readReferenced loader) v).run.run session with
      | mk result middle =>
        cases result with
        | error e =>
          rw [Building.run_bind_error hround]
          exact .fails hne hround
        | ok w =>
          rw [Building.run_bind hround]
          refine .again hne hround ?_
          by_cases hserved : ∃ name ∈ pending v session.spec, ∃ d, (loader.load name).2 = .ok d
          · obtain ⟨name, hname, d, hload⟩ := hserved
            have hnew : name ∉ v.names := by simpa using (List.mem_filter.1 hname).2
            have hmem : name ∈ unseen := hunseen name d hload hnew
            have hshorter : (unseen.erase name).length < rounds := by
              have hpositive := List.length_pos_of_mem hmem
              rw [List.length_erase_of_mem hmem]
              omega
            exact ih (hunseen.erase hround hname) hshorter
          · -- this was the last round
            have hnothing : pending w middle.spec = [] :=
              pending_eq_nil_of_round hround fun name hname d hload => hserved ⟨name, hname, d, hload⟩
            rw [run_readPending_nil hnothing]
            exact .done hnothing

/-- **The rounds of a build settle**, from wherever they start: the bound on them is never met. -/
theorem settles_of_readPending (hloader : loader.Bounded) (v : Visited) (session : Session) :
    Settles loader v session ((readPending loader (loader.size + 2) v).run.run session) := by
  obtain ⟨names, hlength, hserved⟩ := hloader
  exact settles_of_unseen (fun name d hload _ => hserved name d hload) (Nat.lt_succ_of_le hlength)

end Build

end OpenApi
