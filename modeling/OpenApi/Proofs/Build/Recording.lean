/-
  OpenApi.Proofs.Build.Recording — builds record the references that they store.

  Some references are known to be recorded before a step. A step records what it stores if each reference in
  a model or operation that it adds, and each in its result, is known or recorded by a change that it makes.
  What one step gives is known to the next, so it may be stored there.
-/
import OpenApi.Proofs.Build.Yields
import OpenApi.Proofs.Spec.Stored

namespace OpenApi

/-! ## §1. References of changes. -/

/-- The references that a change stores. -/
def Change.references : Change → List SchemaRef
  | .model _ m => m.references
  | .operation o => o.references
  | _ => []

/-- Each of the references is known, or one of the changes records it. -/
def Covered (known : List SchemaRef) (changes : List Change) (refs : List SchemaRef) : Prop :=
  ∀ r ∈ refs, r ∈ known ∨ Change.reference r ∈ changes

namespace Covered

variable {known new refs : List SchemaRef} {changes more : List Change}

theorem of_subset (h : refs ⊆ known) : Covered known changes refs := fun _ hr => .inl (h hr)

theorem subset {fewer : List SchemaRef} (h : Covered known changes refs) (hsub : fewer ⊆ refs) :
    Covered known changes fewer := fun r hr => h r (hsub hr)

theorem known_mono {better : List SchemaRef} (hsub : known ⊆ better) (h : Covered known changes refs) :
    Covered better changes refs := fun r hr => (h r hr).imp_left fun hk => hsub hk

theorem append_left (h : Covered known changes refs) : Covered known (changes ++ more) refs :=
  fun r hr => (h r hr).imp_right (List.mem_append_left _)

/-- What is covered with the references of earlier changes known is covered by all changes. -/
theorem append_right (hnew : Covered known changes new) (h : Covered (known ++ new) more refs) :
    Covered known (changes ++ more) refs := by
  intro r hr
  rcases h r hr with hknown | hmore
  · rcases List.mem_append.1 hknown with hknown | hrnew
    · exact .inl hknown
    · exact (hnew r hrnew).imp_right (List.mem_append_left _)
  · exact .inr (List.mem_append_right _ hmore)

end Covered

namespace Building

variable {α β : Type}

/-- What the step adds to the spec and what it gives has only references that are known or recorded. -/
def Records (known : List SchemaRef) (x : Building α) (refs : α → List SchemaRef) : Prop :=
  x.Yields fun a changes =>
    (∀ c ∈ changes, Covered known changes c.references) ∧ Covered known changes (refs a)

namespace Records

variable {known : List SchemaRef} {x : Building α} {refs : α → List SchemaRef}
  {more : β → List SchemaRef}

/-! ## §2. One step after another. -/

theorem mono {fewer : α → List SchemaRef} (h : x.Records known refs) (hsub : ∀ a, fewer a ⊆ refs a) :
    x.Records known fewer :=
  Yields.mono h fun a _ hQ => ⟨hQ.1, hQ.2.subset (hsub a)⟩

theorem known_mono {better : List SchemaRef} (h : x.Records known refs) (hsub : known ⊆ better) :
    x.Records better refs :=
  Yields.mono h fun _ _ hQ => ⟨fun c hc => (hQ.1 c hc).known_mono hsub, hQ.2.known_mono hsub⟩

theorem pure {a : α} (h : refs a ⊆ known) : Records known (pure a) refs :=
  Yields.pure ⟨fun _ hc => absurd hc List.not_mem_nil, .of_subset h⟩

theorem throw {e : Error} : Records known (throw e : Building α) refs := Yields.throw

/-- The references that the first step gives are known to the second. -/
theorem bind {g : α → Building β} (hx : x.Records known refs)
    (hg : ∀ a, (g a).Records (known ++ refs a) more) : (x >>= g).Records known more := by
  refine Yields.bind hx ?_
  rintro a changes ⟨hchanges, hrefs⟩
  refine Yields.mono (hg a) ?_
  rintro b changes' ⟨hchanges', hmore⟩
  refine ⟨fun c hc => ?_, hrefs.append_right hmore⟩
  rcases List.mem_append.1 hc with hc | hc
  · exact (hchanges c hc).append_left
  · exact hrefs.append_right (hchanges' c hc)

/-- A silent step records what it stores, for it stores nothing. -/
theorem silent (hx : x.Silent) (h : ∀ a, refs a ⊆ known) : x.Records known refs := by
  refine Yields.mono hx ?_
  rintro a _ rfl
  exact ⟨fun _ hc => absurd hc List.not_mem_nil, .of_subset (h a)⟩

/-- A silent step before another one changes nothing. -/
theorem after {g : α → Building β} (hx : x.Silent) (hg : ∀ a, (g a).Records known more) :
    (x >>= g).Records known more := by
  refine Yields.bind hx ?_
  rintro a _ rfl
  exact hg a

theorem reading {r : Reading α} {g : α → Building β} (hg : ∀ a, (g a).Records known more) :
    Records known (liftM r >>= g) more := after (.of_reading r) hg

theorem lift {r : Except Error α} {g : α → Building β} (hg : ∀ a, (g a).Records known more) :
    Records known (liftM r >>= g) more := after (.of_lift r) hg

theorem report {e : Event} {g : Unit → Building β} (hg : ∀ u, (g u).Records known more) :
    Records known (Building.report e >>= g) more := after (.of_report e) hg

theorem spec {g : Spec → Building β} (hg : ∀ s, (g s).Records known more) :
    Records known (Building.spec >>= g) more := Yields.spec hg

theorem map {f : α → β} (h : x.Records known fun a => more (f a)) : (f <$> x).Records known more := by
  rw [map_eq_pure_bind]
  exact h.bind fun a => pure (List.subset_append_right _ _)

theorem optionally {read : α → Building β} {default : β} (hread : ∀ a, (read a).Records known more)
    (hdefault : more default ⊆ known) (o : Option α) :
    (Building.optionally read default o).Records known more := by
  cases o with
  | none => exact pure hdefault
  | some a => exact hread a

/-! ## §3. Changes. -/

/-- A change that stores only what is known. -/
theorem update {f : Spec → Except Error Spec}
    (h : ∀ s t, f s = .ok t → ∃ c, s.apply c = .ok t ∧ c.references ⊆ known) :
    Records known (Building.update f) fun _ => [] := by
  refine Yields.update fun s t hf => ?_
  obtain ⟨c, happly, hsub⟩ := h s t hf
  refine ⟨c, happly, ?_, .of_subset (List.nil_subset _)⟩
  intro c' hc'
  rw [List.mem_singleton.1 hc']
  exact .of_subset hsub

/-- A reference that is recorded is known from then on. -/
theorem addReference (r : SchemaRef) : Records known (Building.addReference r) fun _ => [r] := by
  have hupdate : Records known (Building.update fun spec => .ok (spec.addReference r)) fun _ => [r] := by
    refine Yields.update fun s t hf => ⟨.reference r, hf, ?_, ?_⟩
    · intro c hc
      rw [List.mem_singleton.1 hc]
      exact .of_subset (List.nil_subset _)
    · intro q hq
      rw [List.mem_singleton.1 hq]
      exact .inr (List.mem_singleton_self _)
  unfold Building.addReference
  refine spec fun s => ?_
  split
  next => exact hupdate
  next => exact report fun _ => hupdate

/-! ## §4. Lists. -/

theorem mapM {f : α → Building β} {xs : List α} (h : ∀ a ∈ xs, (f a).Records known more) :
    (xs.mapM f).Records known fun bs => bs.flatMap more := by
  induction xs generalizing known with
  | nil => exact pure (List.nil_subset _)
  | cons a xs ih =>
    rw [List.mapM_cons]
    refine (h a List.mem_cons_self).bind fun b => ?_
    have hrest := ih fun a' ha' =>
      (h a' (List.mem_cons_of_mem _ ha')).known_mono (List.subset_append_left known (more b))
    refine hrest.bind fun bs => pure ?_
    rw [List.flatMap_cons]
    exact List.append_subset.2 ⟨List.subset_append_of_subset_left _ (List.subset_append_right _ _),
      List.subset_append_right _ _⟩

/-- Steps that give references give a list of references that are known or recorded. -/
theorem mapM_refs {f : α → Building SchemaRef} {xs : List α}
    (h : ∀ a ∈ xs, (f a).Records known fun r => [r]) : (xs.mapM f).Records known fun rs => rs :=
  (mapM h).mono fun rs => by simp

theorem foldlM {f : β → α → Building β} {xs : List α}
    (h : ∀ b, ∀ a ∈ xs, (f b a).Records (known ++ more b) more) :
    ∀ b, more b ⊆ known → (xs.foldlM f b).Records known more := by
  induction xs generalizing known with
  | nil => exact fun b hb => pure hb
  | cons a xs ih =>
    intro b hb
    rw [List.foldlM_cons]
    have hfirst := (h b a List.mem_cons_self).known_mono
      (List.append_subset.2 ⟨List.Subset.refl known, hb⟩)
    -- what the first step gives is known to the rest, so the fold starts anew with more known
    refine hfirst.bind fun b' => ih ?_ b' (List.subset_append_right _ _)
    intro c a' ha'
    refine (h c a' (List.mem_cons_of_mem _ ha')).known_mono ?_
    exact List.append_subset.2
      ⟨List.subset_append_of_subset_left _ (List.subset_append_left _ _), List.subset_append_right _ _⟩

theorem forM {f : α → Building Unit} {xs : List α} (h : ∀ a ∈ xs, (f a).Records known fun _ => []) :
    (xs.forM f).Records known fun _ => [] := by
  induction xs with
  | nil => exact pure (List.nil_subset _)
  | cons a xs ih =>
    have hrest := ih fun b hb => h b (List.mem_cons_of_mem _ hb)
    exact (h a List.mem_cons_self).bind fun _ => hrest.known_mono (List.subset_append_left _ _)

end Records

end Building

end OpenApi
