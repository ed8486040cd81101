/-
  OpenApi.Proofs.Build.Trace — what a build reports of the documents that it loads.

  Loading a document is reported where it happens and nowhere else, so the events of a build tell under which
  names documents were loaded, in this order and also if the build fails in the end. What a spec holds only grows.
  What a step leads to, whether it succeeds or not, is told by `Ends`, with a rule for each loop of a build.
-/
import OpenApi.Proofs.Effects.Readers
import OpenApi.Proofs.Build.Exploration

namespace OpenApi

/-! ## §1. Passing from one session to another. -/

/-- Changes lead from the spec of one session to that of the other, and documents were loaded under these names
on the way. -/
structure Session.Passes (names : List String) (session after : Session) : Prop where
  spec : ∃ changes, session.spec.applyAll changes = .ok after.spec
  loaded : after.events.filterMap Event.loaded? = session.events.filterMap Event.loaded? ++ names

namespace Session.Passes

variable {names more : List String} {session middle after : Session}

theorem refl (session : Session) : session.Passes [] session := ⟨⟨[], rfl⟩, (List.append_nil _).symm⟩

theorem trans (h : session.Passes names middle) (h' : middle.Passes more after) :
    session.Passes (names ++ more) after := by
  obtain ⟨changes, happly⟩ := h.spec
  obtain ⟨later, happly'⟩ := h'.spec
  refine ⟨⟨changes ++ later, Spec.applyAll_trans happly happly'⟩, ?_⟩
  rw [h'.loaded, h.loaded, List.append_assoc]

/-- Tables that are in step stay so. -/
theorem inStep (h : session.Passes names after) (hs : session.spec.InStep) : after.spec.InStep := by
  obtain ⟨changes, happly⟩ := h.spec
  exact hs.applyAll happly

/-- References that were recorded stay recorded. -/
theorem referencedFiles (h : session.Passes names after) :
    session.spec.referencedFiles ⊆ after.spec.referencedFiles := by
  obtain ⟨changes, happly⟩ := h.spec
  exact Spec.referencedFiles_subset happly

/-- Reports alone. -/
theorem of_events (events : List Event) (h : events.filterMap Event.loaded? = names) :
    session.Passes names { session with events := session.events ++ events } := by
  refine ⟨⟨[], rfl⟩, ?_⟩
  rw [List.filterMap_append, h]

end Session.Passes

/-! ## §2. Ends. -/

namespace Building

variable {α β : Type}

/-- From the session, the step ends in a session where `done` holds of its result, or where `failed` holds if there
is none. -/
def Ends (x : Building α) (session : Session) (done : α → Session → Prop) (failed : Session → Prop) : Prop :=
  match x.run.run session with
  | (.ok a, after) => done a after
  | (.error _, after) => failed after

namespace Ends

variable {x : Building α} {session : Session} {done : α → Session → Prop} {failed : Session → Prop}

theorem mono {done' : α → Session → Prop} {failed' : Session → Prop} (h : x.Ends session done failed)
    (hdone : ∀ a after, done a after → done' a after) (hfailed : ∀ after, failed after → failed' after) :
    x.Ends session done' failed' := by
  unfold Ends at h ⊢
  cases hrun : x.run.run session with
  | mk result after =>
    rw [hrun] at h
    cases result with
    | error e => exact hfailed after h
    | ok a => exact hdone a after h

/-- What holds where the step ends, whether it succeeds or not. -/
theorem iff_at_end {P : Session → Prop} : x.Ends session (fun _ => P) P ↔ P (x.run.run session).2 := by
  unfold Ends
  cases x.run.run session with
  | mk result after =>
    cases result with
    | error e => exact Iff.rfl
    | ok a => exact Iff.rfl

/-- Where tables are in step in the end, whether the step succeeds or not. -/
theorem inStep (h : x.Ends session done failed) (hs : (x.run.run session).2.spec.InStep) :
    x.Ends session (fun a after => after.spec.InStep ∧ done a after) failed := by
  unfold Ends at h ⊢
  cases hrun : x.run.run session with
  | mk result after =>
    rw [hrun] at h hs
    cases result with
    | error e => exact h
    | ok a => exact ⟨hs, h⟩

theorem pure {a : α} (h : done a session) : Ends (pure a) session done failed := h

theorem bind {g : α → Building β} {done' : β → Session → Prop} (hx : x.Ends session done failed)
    (hg : ∀ a middle, done a middle → (g a).Ends middle done' failed) : (x >>= g).Ends session done' failed := by
  unfold Ends at hx
  cases hrun : x.run.run session with
  | mk result middle =>
    rw [hrun] at hx
    cases result with
    | error e =>
      unfold Ends
      rw [run_bind_error hrun]
      exact hx
    | ok a =>
      unfold Ends
      rw [run_bind hrun]
      exact hg a middle hx

/-- What a fold keeps may depend on the elements that are left. -/
theorem foldlM {f : β → α → Building β} {keeps : List α → β → Session → Prop}
    (h : ∀ a rest b session, keeps (a :: rest) b session → (f b a).Ends session (keeps rest) failed) :
    ∀ {xs : List α} {b : β} {session : Session}, keeps xs b session →
      (xs.foldlM f b).Ends session (keeps []) failed := by
  intro xs
  induction xs with
  | nil => exact fun hb => pure hb
  | cons a xs ih =>
    intro b session hb
    rw [List.foldlM_cons]
    exact (h a xs b session hb).bind fun _ _ hkept => ih hkept

end Ends

/-- What a step gives matters nothing for where it ends. -/
theorem run_bind_pure (x : Building α) (g : α → β) (session : Session) :
    ((x >>= fun a => pure (g a)).run.run session).2 = (x.run.run session).2 := by
  cases hrun : x.run.run session with
  | mk result after =>
    cases result with
    | error e => rw [run_bind_error hrun]
    | ok a =>
      rw [run_bind hrun]
      rfl

end Building

namespace Build

open Building (Steady)
open Agreement (tables)

variable {loader : Loader} {v w : Visited} {session after : Session}

/-! ## §3. Documents. -/

/-- Reading a document loads no other one, also if it fails. -/
theorem passes_of_readWith {read : Mapping → Building Unit} (hread : ∀ root, (read root).Steady tables)
    (d : Document) (hs : session.spec.InStep) : session.Passes [] ((readWith read d).run.run session).2 := by
  have hsteady : (liftM d.mapping >>= read : Building Unit).Steady tables := .lift hread
  obtain ⟨result, e, -, hgoes⟩ := hsteady { session with usage := .none } hs.sameTables_self
  obtain ⟨-, hleads⟩ := hgoes { session with usage := .none } hs.sameTables_self
  rw [run_readWith]
  refine ⟨⟨e.changes, hleads.spec⟩, ?_⟩
  rw [List.append_nil]
  exact hleads.events

/-- Asking for a referenced document loads that one, or none. -/
theorem passes_of_readReferenced (loader : Loader) (v : Visited) (file : String) (hs : session.spec.InStep) :
    session.Passes ((loader.load file).1.filterMap Event.loaded?)
      ((readReferenced loader v file).run.run session).2 := by
  rw [run_readReferenced, ← List.append_nil ((loader.load file).1.filterMap Event.loaded?)]
  have hloaded : session.Passes ((loader.load file).1.filterMap Event.loaded?)
      { session with events := session.events ++ (loader.load file).1 } := .of_events _ rfl
  refine hloaded.trans ?_
  -- what happens then is no loading
  cases (loader.load file).2 with
  | error e =>
    dsimp only
    by_cases hio : e.errorClass = .io
    · rw [if_pos hio]
      exact .of_events [.unreadableDocument file e.message] rfl
    · rw [if_neg hio]
      exact .refl _
  | ok d =>
    have hreported : ∀ session : Session, session.Passes []
        { session with events := session.events ++ [.loadingReferenced file] } := fun _ => .of_events _ rfl
    refine (hreported _).trans ?_
    rw [Building.run_bind_pure]
    exact passes_of_readWith readForeignDocument_steady d hs

/-- What each round keeps is kept by all of them. -/
theorem ends_of_readPending {keeps : Visited → Session → Prop} {failed : Session → Prop}
    (hround : ∀ v session, keeps v session →
      ((pending v session.spec).foldlM (readReferenced loader) v).Ends session keeps failed) {rounds : Nat} :
    ∀ {v : Visited} {session : Session}, keeps v session →
      (readPending loader rounds v).Ends session keeps failed := by
  induction rounds with
  | zero => exact fun hv => .pure hv
  | succ rounds ih =>
    intro v session hv
    have hfirst := hround v session hv
    unfold Building.Ends at hfirst ⊢
    cases hpending : pending v session.spec with
    | nil =>
      rw [run_readPending_nil hpending]
      exact hv
    | cons file files =>
      rw [run_readPending_cons hpending]
      rw [hpending] at hfirst
      exact Building.Ends.bind hfirst fun _ _ hkept => ih hkept

end Build

end OpenApi
