/-
  OpenApi.Proofs.Build.Exploration — how a build comes by what it has read.

  A build reads the entry document and then documents that references name. References are never taken back, so a
  file that was pending when a round began is still named when its turn comes. So what was read and what the spec
  holds come about one document at a time, and what is kept by the reading of one document holds of a whole build,
  by induction on `Explored`. Main statement: `explored_of_readAll`.
-/
import OpenApi.Proofs.Build.DocumentReaders

namespace OpenApi

/-! ## §1. References are kept. -/

namespace Spec

variable {s t : Spec} {changes : List Change}

theorem mem_referencedFiles {file : String} :
    file ∈ s.referencedFiles ↔ ∃ text ∈ s.references, fileOf? text = some file := by
  unfold referencedFiles
  rw [Text.mem_ordered, List.mem_filterMap]

/-- No change takes a reference back. -/
theorem references_subset (h : s.applyAll changes = .ok t) : s.references ⊆ t.references :=
  fun text htext => (mem_applyAll_references h text).2 (.inr htext)

theorem referencedFiles_subset (h : s.applyAll changes = .ok t) : s.referencedFiles ⊆ t.referencedFiles := by
  intro file hfile
  obtain ⟨text, htext, hof⟩ := mem_referencedFiles.1 hfile
  exact mem_referencedFiles.2 ⟨text, references_subset h htext, hof⟩

end Spec

namespace Build

/-! ## §2. Explorations. -/

/-- What was visited and what the spec holds come about like this: the entry document is read, and then, one at a
time, documents that recorded references name. Reading the entry document makes changes of the `first` kind,
reading another one changes of the `next` kind. -/
inductive Explored (first next : Document → List Change → Prop) (loader : Loader) (entry : String) :
    Visited → Spec → Prop
  | start {d : Document} {u : Usage} {changes : List Change} {s : Spec} (hload : (loader.load entry).2 = .ok d)
      (hchanges : first d changes) (hspec : (Spec.empty d.filename).applyAll changes = .ok s) :
      Explored first next loader entry ⟨[d.filename, entry], [(d, u)]⟩ s
  | skip {v : Visited} {s : Spec} {file : String} {e : Error} (h : Explored first next loader entry v s)
      (hfile : file ∈ s.referencedFiles) (hload : (loader.load file).2 = .error e) (hio : e.errorClass = .io) :
      Explored first next loader entry (v.skip file) s
  | read {v : Visited} {s t : Spec} {file : String} {d : Document} {u : Usage} {changes : List Change}
      (h : Explored first next loader entry v s) (hfile : file ∈ s.referencedFiles)
      (hload : (loader.load file).2 = .ok d) (hchanges : next d changes) (hspec : s.applyAll changes = .ok t) :
      Explored first next loader entry (v.add file d u) t

namespace Explored

variable {first next : Document → List Change → Prop} {loader : Loader} {entry : String} {v w : Visited}
  {s : Spec} {session after : Session}

/-! ## §3. From the steps of a build. -/

section

variable (hnext : ∀ d, (readWith readForeignDocument d).Yields fun _ changes => next d changes)
include hnext

theorem of_readReferenced {file : String} (hv : Explored first next loader entry v session.spec)
    (hfile : file ∈ session.spec.referencedFiles)
    (h : (readReferenced loader v file).run.run session = (.ok w, after)) :
    Explored first next loader entry w after.spec ∧
      session.spec.referencedFiles ⊆ after.spec.referencedFiles := by
  cases readReferenced_eq_ok.1 h with
  | missing hload hio => exact ⟨.skip hv hfile hload hio, List.Subset.refl _⟩
  | @found d u _ hload hread =>
    obtain ⟨changes, happly, hchanges⟩ := hnext d _ u _ hread
    exact ⟨.read hv hfile hload hchanges happly, Spec.referencedFiles_subset happly⟩

/-- A round explores all files that it reads: they stay named while those before them are read. -/
theorem of_foldlM {files : List String} :
    ∀ {v : Visited} {session : Session}, Explored first next loader entry v session.spec →
      files ⊆ session.spec.referencedFiles →
      (files.foldlM (readReferenced loader) v).run.run session = (.ok w, after) →
      Explored first next loader entry w after.spec := by
  induction files with
  | nil =>
    intro v session hv _ h
    obtain ⟨rfl, rfl⟩ := Building.run_pure_ok h
    exact hv
  | cons file files ih =>
    intro v session hv hfiles h
    rw [List.foldlM_cons] at h
    obtain ⟨mid, middle, hmid, h⟩ := Building.run_bind_ok h
    obtain ⟨hfile, hrest⟩ := List.cons_subset.1 hfiles
    obtain ⟨hexplored, hkept⟩ := of_readReferenced hnext hv hfile hmid
    exact ih hexplored (List.Subset.trans hrest hkept) h

theorem of_readPending {rounds : Nat} :
    ∀ {v : Visited} {session : Session}, Explored first next loader entry v session.spec →
      (readPending loader rounds v).run.run session = (.ok w, after) →
      Explored first next loader entry w after.spec := by
  -- the induction is on the rounds; what is pending is named by a reference, so a round only follows references
  induction rounds with
  | zero =>
    intro v session hv h
    obtain ⟨rfl, rfl⟩ := Building.run_pure_ok h
    exact hv
  | succ rounds ih =>
    intro v session hv h
    cases hpending : pending v session.spec with
    | nil =>
      rw [run_readPending_nil hpending] at h
      cases h
      exact hv
    | cons file files =>
      rw [run_readPending_cons hpending, ← hpending] at h
      have hnamed : pending v session.spec ⊆ session.spec.referencedFiles := List.filter_sublist.subset
      obtain ⟨mid, middle, hmid, h⟩ := Building.run_bind_ok h
      exact ih (of_foldlM hnext hv hnamed hmid) h

end

end Explored

/-- **What a build has read when all documents are read is an exploration from its entry document.** -/
theorem explored_of_readAll {first next : Document → List Change → Prop} {loader : Loader} {options : Options}
    {entry : String} {v : Visited} {session after : Session}
    (hfirst : ∀ d session u after, session.spec = .empty d.filename →
      (readWith (readEntryDocument options) d).run.run session = (.ok u, after) →
        ∃ changes, session.spec.applyAll changes = .ok after.spec ∧ first d changes)
    (hnext : ∀ d, (readWith readForeignDocument d).Yields fun _ changes => next d changes)
    (h : (readAll loader options entry).run.run session = (.ok v, after)) :
    Explored first next loader entry v after.spec := by
  obtain ⟨d, started, hload, hspec, h⟩ := readAll_ok h
  obtain ⟨u, read, hread, h⟩ := Building.run_bind_ok h
  obtain ⟨changes, happly, hchanges⟩ := hfirst d started u read hspec hread
  rw [hspec] at happly
  exact Explored.of_readPending hnext (.start hload hchanges happly) h

end Build

end OpenApi
