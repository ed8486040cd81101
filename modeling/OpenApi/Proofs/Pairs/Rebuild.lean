/-
  OpenApi.Proofs.Pairs.Rebuild — builds from documents that belong together.

  The entry document is read in one role and every other document in another one, so its name must not be asked for
  again; nor is it, since a build looks at it first. The same references are recorded from both loaders, so they are
  asked for the same documents. Main statement: `build_both`.
-/
import OpenApi.Proofs.Build.DocumentReaders
import OpenApi.Proofs.Pairs.DocumentReaders

namespace OpenApi

/-- The documents of the loaders belong together, one as the entry and the others as referenced ones. -/
structure Pairing.Loaders (P : Pairing) (entry : String) (loader loader' : Loader) : Prop where
  size : loader'.size = loader.size
  first : Both P.errors (P.Documents .entry) (loader.load entry).2 (loader'.load entry).2
  others : ∀ name, name ≠ entry → Both P.errors (P.Documents .foreign) (loader.load name).2 (loader'.load name).2

/-- Reading documents that belong together, with marks that do, leaves unused keys in both or in none. -/
def Pairing.LeavesSame (P : Pairing) : Prop :=
  ∀ {r : Role} {d d' : Document} {u u' : Usage}, P.Documents r d d' → P.marks u u' →
    Both P.errors Eq (d.checkUnused u) (d'.checkUnused u')

namespace Build

open Pairing (Matches)

variable {P : Pairing} {entry : String} {loader loader' : Loader}

/-! ## §1. What was looked at. -/

/-- Documents that belong together were looked at, the entry document among them, under the same names. -/
structure Visited.Pair (P : Pairing) (entry : String) (v v' : Visited) : Prop where
  names : v'.names = v.names
  entered : entry ∈ v.names
  documents : List.Forall₂ (fun e e' => (∃ r, P.Documents r e.1 e'.1) ∧ P.marks e.2 e'.2) v.documents v'.documents

namespace Visited.Pair

variable {v v' : Visited}

theorem add {r : Role} {d d' : Document} {u u' : Usage} (h : Visited.Pair P entry v v') (hd : P.Documents r d d')
    (hu : P.marks u u') (name : String) : Visited.Pair P entry (v.add name d u) (v'.add name d' u') where
  names := by
    unfold Visited.add
    rw [h.names, hd.filename]
  entered := List.mem_cons_of_mem _ (List.mem_cons_of_mem _ h.entered)
  documents := List.rel_append h.documents (.cons ⟨⟨r, hd⟩, hu⟩ .nil)

theorem skip (h : Visited.Pair P entry v v') (name : String) : Visited.Pair P entry (v.skip name) (v'.skip name) where
  names := congrArg (name :: ·) h.names
  entered := List.mem_cons_of_mem _ h.entered
  documents := h.documents

theorem pending (h : Visited.Pair P entry v v') (spec : Spec) : Build.pending v' spec = Build.pending v spec := by
  unfold Build.pending
  rw [h.names]

/-- The entry document is not pending. -/
theorem ne_entry (h : Visited.Pair P entry v v') {spec : Spec} {file : String} (hfile : file ∈ Build.pending v spec) :
    file ≠ entry := by
  have hnew := (List.mem_filter.1 hfile).2
  intro heq
  subst heq
  simp [h.entered] at hnew

end Visited.Pair

/-! ## §2. Reading all documents. -/

theorem reports_match (events events' : List Event) :
    P.Matches Eq (events.forM Building.report) (events'.forM Building.report) := by
  intro s s' hs
  rw [run_report, run_report]
  exact ⟨.ok rfl, hs.spec, hs.usage⟩

theorem load_matches (hloaders : P.Loaders entry loader loader') :
    P.Matches (P.Documents .entry) (load loader entry) (load loader' entry) :=
  (reports_match _ _).bind fun _ _ _ => .ofExcept hloaders.first

theorem readReferenced_matches (hloaders : P.Loaders entry loader loader') {file : String} (hfile : file ≠ entry)
    {v v' : Visited} (hv : Visited.Pair P entry v v') :
    P.Matches (Visited.Pair P entry) (readReferenced loader v file) (readReferenced loader' v' file) := by
  have hserved := hloaders.others file hfile
  unfold readReferenced
  -- only the two results are needed from here on, and they are split together
  generalize loader.load file = loaded at hserved ⊢
  generalize loader'.load file = loaded' at hserved ⊢
  obtain ⟨events, result⟩ := loaded
  obtain ⟨events', result'⟩ := loaded'
  refine (reports_match _ _).bind fun _ _ _ => ?_
  cases hserved with
  | error he =>
    dsimp only
    -- errors of one class: both pass over the file, or both fail
    rw [P.errorClass he]
    split
    next => exact (Matches.report _ _).bind fun _ _ _ => .pure (hv.skip file)
    next => exact .throw he
  | ok hd =>
    refine (Matches.report _ _).bind fun _ _ _ => ?_
    apply (readWith_matches readForeignDocument_matches hd).bind
    intro u u' hu
    exact .pure (hv.add hd hu file)

theorem readPending_matches (hloaders : P.Loaders entry loader loader') (rounds : Nat) :
    ∀ {v v' : Visited}, Visited.Pair P entry v v' →
      P.Matches (Visited.Pair P entry) (readPending loader rounds v) (readPending loader' rounds v') := by
  induction rounds with
  | zero => exact fun hv => .pure hv
  | succ rounds ih =>
    intro v v' hv
    unfold readPending
    apply Matches.spec.bind
    rintro spec _ rfl
    -- the same names were looked at and the same references recorded, so the same files are pending
    rw [hv.pending]
    have hfiles : ∀ file ∈ pending v spec, file = file ∧ file ≠ entry :=
      fun file hfile => ⟨rfl, hv.ne_entry hfile⟩
    generalize pending v spec = files at hfiles ⊢
    cases files with
    | nil => exact .pure hv
    | cons file files =>
      have hround : P.Matches (Visited.Pair P entry) ((file :: files).foldlM (readReferenced loader) v)
          ((file :: files).foldlM (readReferenced loader') v') := by
        refine Mirrors.foldlM (Q := fun f f' => f = f' ∧ f ≠ entry) ?_ (List.forall₂_same.2 hfiles) _ _ hv
        rintro w w' file _ hw ⟨rfl, hfile⟩
        exact readReferenced_matches hloaders hfile hw
      exact hround.bind fun w w' hw => ih hw

theorem readAll_matches (hloaders : P.Loaders entry loader loader') (options : Options) :
    P.Matches (Visited.Pair P entry) (readAll loader options entry) (readAll loader' options entry) := by
  unfold readAll
  apply (load_matches hloaders).bind
  intro d d' hd
  rw [hd.filename, hloaders.size]
  refine (Matches.update _).bind fun _ _ _ => ?_
  apply (readWith_matches (readEntryDocument_matches options) hd).bind
  intro u u' hu
  exact readPending_matches hloaders _ ⟨rfl, by simp, .cons ⟨⟨_, hd⟩, hu⟩ .nil⟩

/-! ## §3. Builds. -/

theorem check_both {options : Options} (hunused : options.strict = true → P.LeavesSame) {v v' : Visited}
    (hv : Visited.Pair P entry v v') (spec : Spec) :
    Both P.errors Eq (check options v spec) (check options v' spec) := by
  have hstrict : Both P.errors Eq (if options.strict then v.documents.forM fun e => e.1.checkUnused e.2 else pure ())
      (if options.strict then v'.documents.forM fun e => e.1.checkUnused e.2 else pure ()) := by
    split
    next hoption =>
      refine Both.forM ?_ hv.documents
      rintro e e' ⟨⟨_, hd⟩, hu⟩
      exact hunused hoption hd hu
    next => exact .ok rfl
  unfold check
  dsimp only
  split
  next =>
    -- the checks of references look at the spec alone
    refine (Both.refl P.same _).bind fun _ _ _ => ?_
    exact (Both.refl P.same _).bind fun _ _ _ => hstrict
  next => exact hstrict

/-- **Builds from documents that belong together** fail both with errors that do, or give the same spec. -/
theorem build_both (hloaders : P.Loaders entry loader loader') {options : Options}
    (hunused : options.strict = true → P.LeavesSame) :
    Both P.errors Eq (build loader options entry).2 (build loader' options entry).2 := by
  have hspec : P.Matches Eq (buildSpec loader options entry) (buildSpec loader' options entry) := by
    unfold buildSpec
    apply (readAll_matches hloaders options).bind
    intro v v' hv
    apply Matches.spec.bind
    rintro spec _ rfl
    refine (Mirrors.ofExcept (check_both hunused hv spec)).bind fun _ _ _ => ?_
    exact (Matches.report _ _).bind fun _ _ _ => .pure rfl
  exact (hspec _ _ ⟨rfl, P.unmarked⟩).1

end Build

end OpenApi
