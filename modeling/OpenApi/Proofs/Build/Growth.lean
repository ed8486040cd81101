/-
  OpenApi.Proofs.Build.Growth — what the steps of a build leave behind.

  A build only adds to the spec: it `Grows`. What is kept when a spec grows (`Spec.Kept`) can be told of the end of
  a build as soon as one step has brought it about. `Building.Leaves` says that a step makes the spec grow and leaves
  a condition on its result and the spec after it; it has a rule for each way to put steps together. A lookup tells
  what stands under its key in the tree of the document.
-/
import OpenApi.Proofs.Build.Found
import OpenApi.Proofs.Build.Recording

namespace OpenApi

/-! ## §1. Specs that grow. -/

namespace Spec

variable {s t u : Spec}

/-- The second spec is made of the first by changes. -/
def Grows (s t : Spec) : Prop := ∃ changes, s.applyAll changes = .ok t

theorem Grows.refl (s : Spec) : s.Grows s := ⟨[], rfl⟩

theorem Grows.trans (h : s.Grows t) (h' : t.Grows u) : s.Grows u := by
  obtain ⟨changes, hchanges⟩ := h
  obtain ⟨more, hmore⟩ := h'
  exact ⟨changes ++ more, applyAll_trans hchanges hmore⟩

/-- Models stay with their files. -/
theorem Grows.models (h : s.Grows t) (hfiles : s.modelFiles.length = s.arena.length) : s.models ⊆ t.models := by
  obtain ⟨changes, hchanges⟩ := h
  rw [applyAll_models hfiles hchanges]
  exact List.subset_append_left _ _

/-- The model stands in the file, if there is a file for each model. -/
def StandsIn (s : Spec) (file : String) (m : Model) : Prop :=
  s.modelFiles.length = s.arena.length → ⟨file, m⟩ ∈ s.models

theorem InStep.mem_models {file : String} {m : Model} (hs : s.InStep) (h : s.StandsIn file m) : ⟨file, m⟩ ∈ s.models :=
  h hs.files

theorem standsIn_withModel (s : Spec) (file : String) (m : Model) : (s.withModel file m).StandsIn file m := by
  intro hfiles
  have hbefore : s.modelFiles.length = s.arena.length := by
    simpa [arena_withModel, modelFiles_withModel] using hfiles
  rw [models_withModel hbefore]
  exact List.mem_append_right _ (List.mem_singleton_self _)

/-- What holds of a spec, and then of all specs that it grows into. -/
def Kept (P : Spec → Prop) : Prop := ∀ s t, s.Grows t → P s → P t

theorem StandsIn.kept (file : String) (m : Model) : Kept fun s => s.StandsIn file m := by
  rintro s t ⟨changes, hchanges⟩ h hfiles
  have hbefore := (applyAll_files hchanges).1 hfiles
  rw [applyAll_models hbefore hchanges]
  exact List.mem_append_left _ (h hbefore)

theorem Kept.const (p : Prop) : Kept fun _ => p := fun _ _ _ h => h

theorem Kept.and {P Q : Spec → Prop} (hP : Kept P) (hQ : Kept Q) : Kept fun s => P s ∧ Q s :=
  fun s t hgrows h => ⟨hP s t hgrows h.1, hQ s t hgrows h.2⟩

theorem Kept.forall {ι : Sort _} {P : ι → Spec → Prop} (hP : ∀ i, Kept (P i)) : Kept fun s => ∀ i, P i s :=
  fun s t hgrows h i => hP i s t hgrows (h i)

theorem Kept.exists {ι : Sort _} {P : ι → Spec → Prop} (hP : ∀ i, Kept (P i)) : Kept fun s => ∃ i, P i s :=
  fun s t hgrows h => h.imp fun i => hP i s t hgrows

end Spec

namespace Building

open Spec (Kept)

variable {α β γ : Type} {x : Building α} {Q : α → Spec → Prop} {R : β → Spec → Prop}

/-! ## §2. What steps leave. -/

/-- If the step succeeds, the spec has grown, and its result and the spec after it meet the condition. -/
def Leaves (x : Building α) (Q : α → Spec → Prop) : Prop :=
  ∀ session a after, x.run.run session = (.ok a, after) → session.spec.Grows after.spec ∧ Q a after.spec

/-- The step was run with this result, and the spec has grown since. -/
def Passed (x : Building α) (a : α) (s : Spec) : Prop :=
  ∃ session after, x.run.run session = (.ok a, after) ∧ after.spec.Grows s

theorem Passed.kept (x : Building α) (a : α) : Kept (x.Passed a) := by
  intro s t hgrows h
  obtain ⟨session, after, hrun, hafter⟩ := h
  exact ⟨session, after, hrun, hafter.trans hgrows⟩

/-- What a step that was run has left, and a growing spec keeps. -/
theorem Passed.leaves {a : α} {s : Spec} (h : x.Passed a s) (hx : x.Leaves Q) (hQ : ∀ a, Kept (Q a)) : Q a s := by
  obtain ⟨session, after, hrun, hgrows⟩ := h
  exact hQ a _ _ hgrows (hx session a after hrun).2

namespace Leaves

theorem mono {Q' : α → Spec → Prop} (h : x.Leaves Q) (hsub : ∀ a s, Q a s → Q' a s) : x.Leaves Q' :=
  fun session a after hrun => (h session a after hrun).imp_right (hsub a after.spec)

/-- A step was run when it has been run. -/
theorem passed (h : x.Leaves Q) : x.Leaves fun a s => x.Passed a s :=
  fun session a after hrun => ⟨(h session a after hrun).1, session, after, hrun, .refl _⟩

theorem of_yields {P : α → List Change → Prop} (h : x.Yields P) : x.Leaves fun _ _ => True := by
  intro session a after hrun
  obtain ⟨changes, happly, -⟩ := h session a after hrun
  exact ⟨⟨changes, happly⟩, trivial⟩

theorem of_records {refs : α → List SchemaRef} (h : x.Records [] refs) : x.Leaves fun _ _ => True := of_yields h

/-- What is known of the result of a silent step. -/
theorem silent {P : α → Prop} (h : x.Silent) (hP : x.Gives P) : x.Leaves fun a _ => P a :=
  fun session a after hrun => ⟨(of_yields h session a after hrun).1, hP session a after hrun⟩

theorem pure {a : α} (h : ∀ s, Q a s) : Leaves (Pure.pure a) Q := by
  intro session b after hrun
  obtain ⟨rfl, rfl⟩ := run_pure_ok hrun
  exact ⟨.refl _, h _⟩

theorem throw {e : Error} : Leaves (throw e : Building α) Q := by
  intro session a after hrun
  have hpair : ((.error e : Except Error α), session) = (.ok a, after) := hrun
  exact absurd (Prod.mk.inj hpair).1 nofun

/-- What the first step leaves is kept by the second, which may depend on what the first one gives. -/
theorem known {P : α → Prop} {k : α → Building β} (hQ : ∀ a, Kept (Q a)) (hP : x.Gives P) (hx : x.Leaves Q)
    (hk : ∀ a, P a → (k a).Leaves fun b s => Q a s → R b s) : (x >>= k).Leaves R := by
  intro session b after hrun
  obtain ⟨a, middle, hfirst, hsecond⟩ := run_bind_ok hrun
  obtain ⟨hgrows, ha⟩ := hx session a middle hfirst
  obtain ⟨hgrows', hb⟩ := hk a (hP session a middle hfirst) middle b after hsecond
  exact ⟨hgrows.trans hgrows', hb (hQ a _ _ hgrows' ha)⟩

theorem bind {k : α → Building β} (hQ : ∀ a, Kept (Q a)) (hx : x.Leaves Q)
    (hk : ∀ a, (k a).Leaves fun b s => Q a s → R b s) : (x >>= k).Leaves R :=
  known (P := fun _ => True) hQ (fun _ _ _ _ => trivial) hx fun a _ => hk a

/-- Where only the result of the first step matters. -/
theorem given {P : α → Prop} {k : α → Building β} (hx : x.Leaves fun a _ => P a)
    (hk : ∀ a, P a → (k a).Leaves R) : (x >>= k).Leaves R := by
  intro session b after hrun
  obtain ⟨a, middle, hfirst, hsecond⟩ := run_bind_ok hrun
  obtain ⟨hgrows, ha⟩ := hx session a middle hfirst
  obtain ⟨hgrows', hb⟩ := hk a ha middle b after hsecond
  exact ⟨hgrows.trans hgrows', hb⟩

/-- Where nothing of the first step matters. -/
theorem after {P : α → List Change → Prop} {k : α → Building β} (hx : x.Yields P) (hk : ∀ a, (k a).Leaves R) :
    (x >>= k).Leaves R := given (of_yields hx) fun a _ => hk a

theorem recorded {refs : α → List SchemaRef} {k : α → Building β} (hx : x.Records [] refs)
    (hk : ∀ a, (k a).Leaves R) : (x >>= k).Leaves R := after hx hk

theorem map {f : α → β} (hx : x.Leaves fun a s => R (f a) s) : (f <$> x).Leaves R := by
  rw [map_eq_pure_bind]
  intro session b after hrun
  obtain ⟨a, middle, hfirst, hsecond⟩ := run_bind_ok hrun
  obtain ⟨rfl, rfl⟩ := run_pure_ok hsecond
  exact hx session a middle hfirst

theorem reading {r : Reading α} {k : α → Building β} (hk : ∀ a, (k a).Leaves R) :
    (liftM r >>= k : Building β).Leaves R := after (Silent.of_reading r) hk

theorem report {e : Event} {k : Unit → Building β} (hk : ∀ u, (k u).Leaves R) :
    (Building.report e >>= k).Leaves R := after (Silent.of_report e) hk

theorem lift {r : Except Error α} {k : α → Building β} (hk : ∀ a, r = .ok a → (k a).Leaves R) :
    (liftM r >>= k : Building β).Leaves R :=
  given (silent (Silent.of_lift r) fun _ _ _ hrun => (run_lift_ok hrun).1) hk

/-- A step that looks at the spec, which grows from there. -/
theorem asked {k : Spec → Building β} (hk : ∀ s, (k s).Leaves fun b t => s.Grows t → R b t) :
    (Building.spec >>= k).Leaves R := by
  intro session b after hrun
  obtain ⟨s, looked, hlook, hrun⟩ := run_bind_ok hrun
  obtain ⟨rfl, rfl⟩ := run_spec_ok hlook
  obtain ⟨hgrows, hb⟩ := hk session.spec session b after hrun
  exact ⟨hgrows, hb hgrows⟩

theorem spec {k : Spec → Building β} (hk : ∀ s, (k s).Leaves R) : (Building.spec >>= k).Leaves R :=
  asked fun s => (hk s).mono fun _ _ hb _ => hb

/-! ## §3. Lookups. -/

variable {m : Mapping} {key : String} {read : Node → Except Error α} {k : Lookup α → Building β}

theorem lookup (hmissing : m.node.value? key = none → ∀ l, l.optional = none → (k l).Leaves R)
    (hfound : ∀ n a l, m.node.value? key = some n → read n = .ok a → l.optional = some a → (k l).Leaves R) :
    (liftM (m.lookup key read) >>= k : Building β).Leaves R := by
  refine given (silent (Silent.of_reading _) (lookup_gives m key read)) fun l hl => ?_
  obtain ⟨hnone, hl⟩ | ⟨n, a, hsome, hread, hl⟩ := hl
  · exact hmissing hnone l hl
  · exact hfound n a l hsome hread hl

/-- A mapping that is looked up is in the same document. -/
theorem mapping {k : Lookup Mapping → Building β}
    (hmissing : m.node.value? key = none → ∀ l, l.optional = none → (k l).Leaves R)
    (hfound : ∀ c l, m.node.value? key = some c.node → c.document = m.document → l.optional = some c →
      (k l).Leaves R) : (liftM (m.mapping key) >>= k : Building β).Leaves R := by
  refine lookup hmissing fun n c l hn hread hl => ?_
  obtain ⟨hnode, hdocument⟩ := Mapping.of_ofNode hread
  exact hfound c l (hnode ▸ hn) hdocument hl

theorem sequence {k : Lookup Sequence → Building β}
    (hmissing : m.node.value? key = none → ∀ l, l.optional = none → (k l).Leaves R)
    (hfound : ∀ c l, m.node.value? key = some c.node → c.document = m.document → l.optional = some c →
      (k l).Leaves R) : (liftM (m.sequence key) >>= k : Building β).Leaves R := by
  refine lookup hmissing fun n c l hn hread hl => ?_
  obtain ⟨hnode, hdocument⟩ := Sequence.of_ofNode hread
  exact hfound c l (hnode ▸ hn) hdocument hl

/-- The text of a scalar is looked up. -/
theorem string {k : Lookup String → Building β}
    (h : ∀ l, l.optional = m.node.textAt? key → (k l).Leaves R) :
    (liftM (m.string key) >>= k : Building β).Leaves R := by
  refine lookup (fun hnone l hl => h l ?_) fun n text l hn hread hl => h l ?_
  · rw [hl, Node.textAt?, hnone]
    rfl
  · rw [hl, Node.textAt?, hn]
    exact (Mapping.scalarText_of_scalarAt hread).symm

/-- A value that is required is there. -/
theorem required {l : Lookup γ} {k : γ → Building β} (hk : ∀ c, l.optional = some c → (k c).Leaves R) :
    (liftM l.required >>= k : Building β).Leaves R :=
  lift fun c hc => hk c (Lookup.required_eq_ok.1 hc)

/-- A mapping that is looked up and read if it is there. -/
theorem optional {read : Mapping → Building γ} {default : γ} {k : γ → Building β} {F : γ → Spec → Prop}
    (hF : ∀ c, Kept (F c)) (hnone : m.node.value? key = none → ∀ s, F default s)
    (hsome : ∀ c, m.node.value? key = some c.node → c.document = m.document → (read c).Leaves F)
    (hk : ∀ a, (k a).Leaves fun b s => F a s → R b s) :
    (liftM (m.mapping key) >>= fun l => Building.optionally read default l.optional >>= k : Building β).Leaves R := by
  refine mapping (fun hmissing l hl => ?_) fun c l hc hdocument hl => ?_
  · rw [hl]
    exact bind hF (pure (hnone hmissing)) hk
  · rw [hl]
    exact bind hF (hsome c hc hdocument) hk

/-! ## §4. Lists. -/

theorem mapM {f : α → Building β} {F : α → β → Spec → Prop} (hF : ∀ a b, Kept (F a b)) {xs : List α}
    (h : ∀ a ∈ xs, (f a).Leaves (F a)) :
    (xs.mapM f).Leaves fun bs s => List.Forall₂ (fun a b => F a b s) xs bs := by
  induction xs with
  | nil => exact pure fun _ => .nil
  | cons a xs ih =>
    rw [List.mapM_cons]
    obtain ⟨hfirst, hrest⟩ := List.forall_mem_cons.1 h
    have hkept : ∀ bs : List β, Kept fun s => List.Forall₂ (fun a b => F a b s) xs bs :=
      fun bs s t hgrows hbs => hbs.imp fun a b => hF a b s t hgrows
    exact bind (hF a) hfirst fun b => bind hkept (ih hrest) fun bs => pure fun s hbs hb => .cons hb hbs

theorem forM {f : α → Building Unit} {F : α → Spec → Prop} (hF : ∀ a, Kept (F a)) {xs : List α}
    (h : ∀ a ∈ xs, (f a).Leaves fun _ => F a) : (xs.forM f).Leaves fun _ s => ∀ a ∈ xs, F a s := by
  induction xs with
  | nil => exact pure fun _ a ha => absurd ha List.not_mem_nil
  | cons a xs ih =>
    obtain ⟨hfirst, hrest⟩ := List.forall_mem_cons.1 h
    exact bind (fun _ => hF a) hfirst fun _ =>
      (ih hrest).mono fun _ s hxs ha => List.forall_mem_cons.2 ⟨ha, hxs⟩

/-- What each step of a fold makes of the result so far, told of the elements that were folded. -/
theorem foldlM {f : β → α → Building β} {I : List α → β → Prop}
    (h : ∀ done a b, I done b → (f b a).Leaves fun b' _ => I (done ++ [a]) b') {xs : List α} :
    ∀ {done : List α} {b : β}, I done b → (xs.foldlM f b).Leaves fun b' _ => I (done ++ xs) b' := by
  induction xs with
  | nil =>
    intro done b hb
    rw [List.append_nil]
    exact pure fun _ => hb
  | cons a xs ih =>
    intro done b hb
    rw [List.foldlM_cons]
    refine given (h done a b hb) fun b' hb' => ?_
    have hrest := ih hb'
    rwa [List.append_assoc, List.singleton_append] at hrest

/-- The entries of a mapping are its keys with the mappings under them. -/
theorem mappingEntries {k : List (String × Mapping) → Building β}
    (hk : ∀ entries, entries.map (fun e => (e.1, e.2.node)) = m.node.members →
      (∀ e ∈ entries, e.2.document = m.document) → (k entries).Leaves R) :
    (liftM m.mappingEntries >>= k : Building β).Leaves R :=
  given (silent (Silent.of_reading _) (mappingEntries_gives m)) fun entries h => hk entries h.1 h.2

/-- The items of a sequence that are read as mappings are in the same document. -/
theorem mappings {c : Sequence} {k : List Mapping → Building β}
    (hk : ∀ ms, ms.map (fun m => m.node) = c.node.items → (∀ m ∈ ms, m.document = c.document) → (k ms).Leaves R) :
    (liftM c.mappings >>= k : Building β).Leaves R :=
  lift fun ms hms => hk ms (Sequence.of_mappings hms).1 (Sequence.of_mappings hms).2

end Leaves

end Building

end OpenApi
