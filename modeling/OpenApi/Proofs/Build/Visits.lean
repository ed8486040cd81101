/-
  OpenApi.Proofs.Build.Visits — which documents a build looks at.

  A build asks for a document only under a name that it has not looked at. So where documents are known by the
  names under which they are served, each is read once (`distinct_of_visited`).
-/
import Mathlib.Data.String.Basic
import OpenApi.Proofs.Build.DocumentReaders
import OpenApi.Proofs.Loader.Names

namespace OpenApi

namespace Build

variable {loader : Loader} {options : Options} {entry : String}

/-! ## §1. What a build looks at. -/

/-- What a build looks at, if it can be read. -/
def visited (loader : Loader) (options : Options) (entry : String) : Except Error Visited :=
  ((readAll loader options entry).run.run ⟨.none, .empty entry, []⟩).1

theorem visited_eq_ok {v : Visited} : visited loader options entry = .ok v ↔
    ∃ after, (readAll loader options entry).run.run ⟨.none, .empty entry, []⟩ = (.ok v, after) := by
  unfold visited
  constructor
  · exact fun h => ⟨_, Prod.ext h rfl⟩
  · rintro ⟨after, h⟩
    rw [h]

/-! ## §2. Each document is read once. -/

/-- The documents that were visited are served under their names, which are distinct and count as looked at. -/
structure Visited.Distinct (loader : Loader) (v : Visited) : Prop where
  served : ∀ e ∈ v.documents, (loader.load e.1.filename).2 = .ok e.1
  named : ∀ e ∈ v.documents, e.1.filename ∈ v.names
  nodup : (v.documents.map fun e => e.1.filename).Nodup

/-- A document that was not looked at before is new. -/
theorem Visited.Distinct.add {v : Visited} {d : Document} {u : Usage} (hv : v.Distinct loader)
    (hload : (loader.load d.filename).2 = .ok d) (hnew : d.filename ∉ v.names) :
    (v.add d.filename d u).Distinct loader where
  served e he := by
    rcases List.mem_append.1 he with he | he
    · exact hv.served e he
    · rw [List.mem_singleton.1 he]
      exact hload
  named e he := by
    rcases List.mem_append.1 he with he | he
    · exact List.mem_cons_of_mem _ (List.mem_cons_of_mem _ (hv.named e he))
    · rw [List.mem_singleton.1 he]
      exact List.mem_cons_self
  nodup := by
    unfold Visited.add
    rw [List.map_append, List.nodup_append]
    -- the names of all documents before were looked at, and this one was not
    refine ⟨hv.nodup, List.nodup_singleton _, ?_⟩
    rintro name hname _ hmem rfl
    obtain ⟨e, he, rfl⟩ := List.mem_map.1 hname
    have hsame : e.1.filename = d.filename := List.mem_singleton.1 hmem
    exact hnew (hsame ▸ hv.named e he)

/-- Reading a file that was not looked at keeps documents distinct, and only this file counts as looked at from
then on. -/
theorem distinct_of_readReferenced (hloader : loader.KnowsByName) {v w : Visited} {file : String}
    {session after : Session} (h : (readReferenced loader v file).run.run session = (.ok w, after))
    (hv : v.Distinct loader) (hnew : file ∉ v.names) :
    w.Distinct loader ∧ ∀ name ∈ w.names, name = file ∨ name ∈ v.names := by
  cases readReferenced_eq_ok.1 h with
  | missing =>
    refine ⟨⟨hv.served, fun e he => List.mem_cons_of_mem _ (hv.named e he), hv.nodup⟩, ?_⟩
    exact fun name hname => List.mem_cons.1 hname
  | @found d _ _ hload _ =>
    obtain rfl := hloader file d hload
    refine ⟨hv.add hload hnew, fun name hname => ?_⟩
    simpa [Visited.add] using hname

theorem distinct_of_foldlM (hloader : loader.KnowsByName) {files : List String} (hfiles : files.Nodup) :
    ∀ {v w : Visited} {session after : Session},
      (files.foldlM (readReferenced loader) v).run.run session = (.ok w, after) → v.Distinct loader →
        (∀ file ∈ files, file ∉ v.names) → w.Distinct loader := by
  induction files with
  | nil =>
    intro v w session after h hv _
    obtain ⟨rfl, -⟩ := Building.run_pure_ok h
    exact hv
  | cons file files ih =>
    intro v w session after h hv hnew
    obtain ⟨hfirst, hrest⟩ := List.nodup_cons.1 hfiles
    rw [List.foldlM_cons] at h
    obtain ⟨mid, middle, hmid, h⟩ := Building.run_bind_ok h
    obtain ⟨hdistinct, hnames⟩ := distinct_of_readReferenced hloader hmid hv (hnew file List.mem_cons_self)
    refine ih hrest h hdistinct fun name hname hlooked => ?_
    rcases hnames name hlooked with rfl | hbefore
    · exact hfirst hname
    · exact hnew name (List.mem_cons_of_mem _ hname) hbefore

theorem distinct_of_readPending (hloader : loader.KnowsByName) {rounds : Nat} :
    ∀ {v w : Visited} {session after : Session},
      (readPending loader rounds v).run.run session = (.ok w, after) → v.Distinct loader →
        w.Distinct loader := by
  induction rounds with
  | zero =>
    intro v w session after h hv
    obtain ⟨rfl, -⟩ := Building.run_pure_ok h
    exact hv
  | succ rounds ih =>
    intro v w session after h hv
    cases hfiles : pending v session.spec with
    | nil =>
      rw [run_readPending_nil hfiles] at h
      cases h
      exact hv
    | cons file files =>
      rw [run_readPending_cons hfiles] at h
      obtain ⟨mid, middle, hmid, h⟩ := Building.run_bind_ok h
      -- what is pending was not looked at, and a round asks for each name once
      have hnew : ∀ name ∈ file :: files, name ∉ v.names := fun name hname => by
        simpa using (List.mem_filter.1 (hfiles ▸ hname : name ∈ pending v session.spec)).2
      have hnodup : (file :: files).Nodup := hfiles ▸ (Text.nodup_ordered _).filter _
      exact ih h (distinct_of_foldlM hloader hnodup hmid hv hnew)

/-- **No document is read twice**, where documents are known by the names under which they are served. -/
theorem distinct_of_visited (hloader : loader.KnowsByName) {v : Visited}
    (h : visited loader options entry = .ok v) : v.Distinct loader := by
  obtain ⟨after, hrun⟩ := visited_eq_ok.1 h
  obtain ⟨d, started, hload, -, hrun⟩ := readAll_ok hrun
  obtain ⟨u, read, -, hrun⟩ := Building.run_bind_ok hrun
  obtain rfl := hloader entry d hload
  have hfirst : Visited.Distinct loader ⟨[d.filename, d.filename], [(d, u)]⟩ := by
    refine ⟨fun e he => ?_, fun e he => ?_, List.nodup_singleton _⟩
    · rw [List.mem_singleton.1 he]
      exact hload
    · rw [List.mem_singleton.1 he]
      exact List.mem_cons_self
  exact distinct_of_readPending hloader hrun hfirst

end Build

end OpenApi
