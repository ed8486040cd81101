/-
  OpenApi.Proofs.Build.SchemaReaders — reading a schema records the references in it.
-/
import OpenApi.Build.Schemas
import OpenApi.Proofs.Build.Recording
import OpenApi.Proofs.Keyed

namespace OpenApi.Build

open Building (Records Silent)

variable {known : List SchemaRef}

/-! ## §1. References and lists. -/

theorem readReference_records (m : Mapping) : Records known (readReference m) fun r => [r] := by
  unfold readReference
  refine .reading fun found => .lift fun raw => ?_
  split
  next => exact .throw
  next => exact .throw
  next r _ =>
    refine .reading fun _ => (Records.addReference r).bind fun _ => .pure ?_
    exact List.subset_append_right _ _

theorem readTexts_silent (m : Mapping) (key : String) : Silent (readTexts m key) := by
  unfold readTexts
  refine .reading fun found => ?_
  split
  next texts _ => exact .of_lift _
  next => exact .pure

theorem readEnumeration_records (m : Mapping) (owner : Owner) (values : Sequence) :
    Records known (readEnumeration m owner values) Schema.references := by
  unfold readEnumeration
  refine .lift fun texts => .reading fun typeName => ?_
  split
  next => exact .throw
  next => exact .pure (by simp [Schema.references])
  next => exact .reading fun description => .pure (by simp [Schema.references])

/-! ## §2. Parts of schemas. -/

section

variable {build : Mapping → Building Schema}

theorem readMapValues_records (hbuild : ∀ m, Records known (build m) Schema.references) (m : Mapping) :
    Records known (readMapValues build m) fun values => values.elim [] Schema.references := by
  unfold readMapValues
  split
  next =>
    refine .reading fun found => .lift fun values => ?_
    split
    next => exact .pure (by simp [freeForm, Schema.references])
    next =>
      refine Records.map ?_
      exact hbuild values
  next => exact .pure (List.nil_subset _)
  next => exact .pure (List.nil_subset _)
  next =>
    refine .reading fun allowed => .pure ?_
    cases allowed.getD false with
    | true => simp [freeForm, Schema.references]
    | false => simp

theorem readArray_records (hbuild : ∀ m, Records known (build m) Schema.references) (m : Mapping) :
    Records known (readArray build m) fun a => a.items.references := by
  unfold readArray
  refine .reading fun found => .lift fun node => (hbuild node).bind fun items => ?_
  refine .reading fun _ => .reading fun _ => .reading fun _ => .pure ?_
  exact List.subset_append_right _ _

theorem readProperty_records (hbuild : ∀ m, Records known (build m) Schema.references) (owner : Owner)
    (name : String) (required : Bool) (m : Mapping) :
    Records known (readProperty build owner name required m) fun p => p.schema.references := by
  unfold readProperty
  refine .reading fun _ => .reading fun _ => .reading fun _ => .reading fun _ => .reading fun _ => ?_
  exact (hbuild m).bind fun schema => .pure (List.subset_append_right _ _)

end

/-- Putting properties stores no other references than theirs. -/
theorem references_foldl_putProperty (properties : List Property) :
    referencesOfProperties (properties.foldl putProperty []) ⊆ referencesOfProperties properties := by
  intro r hr
  obtain ⟨p, hp, hrp⟩ := mem_referencesOfProperties.1 hr
  rcases Keyed.mem_putAll hp with hp | hp
  · exact absurd hp List.not_mem_nil
  · exact mem_referencesOfProperties.2 ⟨p, hp, hrp⟩

section

variable {build : Owner → Mapping → Building Schema}

theorem readProperties_records (hbuild : ∀ owner m, Records known (build owner m) Schema.references)
    (owner : Owner) (required : List String) (m : Mapping) :
    Records known (readProperties build owner required m) referencesOfProperties := by
  unfold readProperties
  refine .reading fun found => ?_
  split
  next => exact .pure (by simp)
  next properties _ =>
    refine .reading fun entries => ?_
    refine (Records.mapM fun entry _ => readProperty_records (hbuild _) owner _ _ _).mono ?_
    intro ps
    rw [referencesOfProperties_eq]
    exact List.Subset.refl _

theorem readObject_records (hbuild : ∀ owner m, Records known (build owner m) Schema.references)
    (owner : Owner) (m : Mapping) :
    Records known (readObject build owner m) referencesOfProperties := by
  unfold readObject
  refine .after (readTexts_silent m _) fun required => ?_
  refine (readProperties_records hbuild owner required m).bind fun ps => .pure ?_
  exact List.subset_append_of_subset_right _ (references_foldl_putProperty ps)

end

/-! ## §3. Schemas. -/

theorem readSchemaTo_records {height : Nat} :
    ∀ owner m, Records known (readSchemaTo height owner m) Schema.references := by
  -- the induction is on the height, and the split follows the shapes in the order in which they are tried
  induction height with
  | zero => exact fun owner m => .throw
  | succ height ih =>
    intro owner m
    unfold readSchemaTo
    dsimp only
    split
    next => exact ((readReference_records m).mono fun r => by simp).map
    split
    next => exact .throw
    refine .reading fun _ => .reading fun values => ?_
    split
    next values _ => exact readEnumeration_records m owner values
    split
    next =>
      refine .reading fun _ => ?_
      exact ((readObject_records ih owner m).mono fun ps => by simp).map
    refine (readMapValues_records (ih owner) m).bind fun values => ?_
    split
    next values => exact .reading fun _ => .pure (by simp)
    refine .reading fun found => .lift fun typeName => ?_
    split
    next =>
      refine Records.map ?_
      refine ((readArray_records (ih owner) m).mono fun a => by simp).known_mono ?_
      exact List.subset_append_left _ _
    next => exact .reading fun _ => .pure (by simp [Schema.references])

/-- **Reading a schema records the references in it.** -/
theorem readSchema_records (owner : Owner) (m : Mapping) :
    Records known (readSchema owner m) Schema.references := readSchemaTo_records owner m

end OpenApi.Build
