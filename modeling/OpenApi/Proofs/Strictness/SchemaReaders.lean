/-
  OpenApi.Proofs.Strictness.SchemaReaders — reading a schema of a document and of the trimmed one.

  A schema is read alike, and some key of it stays: the one that gives it its shape. So the values of a map are
  not taken for values of any shape.
-/
import OpenApi.Build.Schemas
import OpenApi.Proofs.Build.Nesting
import OpenApi.Proofs.Strictness.Lookups

namespace OpenApi.Build

open Trim (Follows)

variable {T : Trim} {m m' : Mapping}

/-! ## §1. References and lists. -/

theorem readReference_follows (h : T.Cuts m m') :
    T.Follows (readReference m) (readReference m') Eq (T.Keeps m "$ref") := by
  unfold readReference
  refine (Follows.string h "$ref").bind_first fun found found' hfound => ?_
  refine (Follows.required hfound).bind ?_
  rintro raw _ ⟨rfl, -⟩
  rw [h.file, h.file']
  split
  next => exact .throw
  next => exact .throw
  next r hr =>
    refine (Follows.ignore h _).bind fun _ _ _ => ?_
    exact (Follows.addReference (.inl ⟨raw, hr⟩)).bind fun _ _ _ => .pure rfl trivial

theorem readTexts_follows (h : T.Cuts m m') (key : String) :
    T.Follows (readTexts m key) (readTexts m' key) Eq (T.Keeps m key) := by
  unfold readTexts
  refine (Follows.sequence h key).bind_first fun found found' hfound => ?_
  cases hfound with
  | missing hl hl' =>
    rw [hl, hl']
    exact .pure rfl trivial
  | present hl hl' hcut _ =>
    rw [hl, hl']
    exact .texts hcut

theorem readEnumeration_follows (h : T.Cuts m m') (owner : Owner) {values values' : Sequence}
    (hvalues : T.CutsSequence values values') :
    T.Follows (readEnumeration m owner values) (readEnumeration m' owner values') Eq True := by
  unfold readEnumeration
  refine (Follows.texts hvalues).bind ?_
  rintro texts _ rfl
  refine (Follows.string h "type").bind fun valueType valueType' htype => ?_
  rw [htype.getD]
  split
  next => exact .throw
  next => exact .pure rfl trivial
  next =>
    refine (Follows.string h "description").bind fun description description' hdescription => ?_
    exact .pure (by rw [hdescription.same]) trivial

/-! ## §2. Parts of schemas. -/

section

variable {build build' : Mapping → Building Schema}

/-- The mapping says something about additional properties. -/
def HasRules (m : Mapping) : Prop :=
  m.kindOf "additionalProperties" ≠ none ∧ m.kindOf "additionalProperties" ≠ some .null

theorem HasRules.containsKey (h : HasRules m) : m.containsKey "additionalProperties" = true := by
  have hsome := Option.ne_none_iff_isSome.1 h.1
  unfold Mapping.kindOf at hsome
  rwa [Option.isSome_map] at hsome

/-- The same values come out, and none where nothing is said about additional properties. -/
def SameValues (m : Mapping) (values values' : Option Schema) : Prop :=
  values = values' ∧ (values.isSome = true → HasRules m)

/-- Rules that are a mapping give the schema of the values. -/
theorem readRules_follows (h : T.Cuts m m') (hrules : HasRules m)
    (hbuild : ∀ c c', T.Cuts c c' → T.Follows (build c) (build' c') Eq (c'.isEmpty = false)) :
    T.Follows
      (do
        let values ← (← m.mapping "additionalProperties").required
        if values.isEmpty then pure (some freeForm) else some <$> build values)
      (do
        let values ← (← m'.mapping "additionalProperties").required
        if values.isEmpty then pure (some freeForm) else some <$> build' values)
      (SameValues m) (T.Keeps m "additionalProperties") := by
  refine (Follows.mapping h "additionalProperties").bind_first fun found found' hfound => ?_
  refine (Follows.required hfound).bind ?_
  rintro values values' ⟨hvalues, -⟩
  cases hempty : values.isEmpty with
  | true =>
    rw [hvalues.isEmpty_of_isEmpty hempty]
    exact .pure ⟨rfl, fun _ => hrules⟩ trivial
  | false =>
    -- the schema of the values is read from some key, so they are not empty in the trimmed document either
    refine Follows.congr_right (G := values'.isEmpty = false) ?_ fun hempty' => by rw [hempty']
    refine ((hbuild values values' hvalues).showing fun hempty' => ⟨trivial, hempty'⟩).map ?_
    rintro schema _ rfl
    exact ⟨rfl, fun _ => hrules⟩

/-- Rules that are a boolean allow values of any shape or none. -/
theorem readAllowed_follows (h : T.Cuts m m') (hrules : HasRules m) :
    T.Follows
      (do
        let allowed := (← m.boolean "additionalProperties").getD false
        pure (if allowed then some freeForm else none))
      (do
        let allowed := (← m'.boolean "additionalProperties").getD false
        pure (if allowed then some freeForm else none))
      (SameValues m) (T.Keeps m "additionalProperties") := by
  refine (Follows.boolean h "additionalProperties").bind_first fun allowed allowed' hsame => ?_
  rw [hsame.getD]
  exact .pure ⟨rfl, fun _ => hrules⟩ trivial

/-- What is said about additional properties stays. Only a null may be trimmed away, and it says as little as
no key at all. -/
theorem readMapValues_follows (h : T.Cuts m m')
    (hbuild : ∀ c c', T.Cuts c c' → T.Follows (build c) (build' c') Eq (c'.isEmpty = false)) :
    T.Follows (readMapValues build m) (readMapValues build' m') (SameValues m)
      (HasRules m → T.Keeps m "additionalProperties") := by
  -- without rules for the values nothing is read, so the trim may take the key away
  have hnone : ¬ HasRules m → T.Follows (pure none : Building (Option Schema)) (pure none) (SameValues m)
      (HasRules m → T.Keeps m "additionalProperties") :=
    fun hno => .pure ⟨rfl, nofun⟩ fun hrules => absurd hrules hno
  unfold readMapValues
  split
  next hkind =>
    have hrules : HasRules m := by simp [HasRules, hkind]
    refine ((readRules_follows h hrules hbuild).showing fun hkeep =>
      ⟨fun _ => hkeep, hkeep⟩).congr_right fun hkeep => ?_
    rw [h.kindOf_kept hkeep, hkind]
  next hkind =>
    have hkind' : m'.kindOf "additionalProperties" = none := by
      rcases h.kindOf_cases "additionalProperties" with hkind' | hkind'
      · exact hkind'
      · exact hkind'.trans hkind
    rw [hkind']
    exact hnone fun hrules => hrules.1 hkind
  next hkind =>
    rcases h.kindOf_cases "additionalProperties" with hkind' | hkind'
    · rw [hkind']
      exact hnone fun hrules => hrules.2 hkind
    · rw [hkind', hkind]
      exact hnone fun hrules => hrules.2 hkind
  next kind hmapping hnull hkind =>
    have hrules : HasRules m := ⟨by simp [hkind], fun heq => hnull (Option.some.inj (hkind.symm.trans heq))⟩
    refine ((readAllowed_follows h hrules).showing fun hkeep =>
      ⟨fun _ => hkeep, hkeep⟩).congr_right fun hkeep => ?_
    rw [h.kindOf_kept hkeep, hkind]
    cases kind with
    | mapping => exact absurd rfl hmapping
    | null => exact absurd rfl hnull
    | sequence => rfl
    | scalar => rfl

theorem readArray_follows (h : T.Cuts m m')
    (hbuild : ∀ c c', T.Cuts c c' → T.Follows (build c) (build' c') Eq (c'.isEmpty = false)) :
    T.Follows (readArray build m) (readArray build' m') Eq True := by
  unfold readArray
  refine (Follows.mapping h "items").bind fun found found' hfound => ?_
  refine (Follows.required hfound).bind ?_
  rintro items items' ⟨hitems, -⟩
  refine (hbuild items items' hitems).bind ?_
  rintro schema _ rfl
  refine (Follows.boolean h "uniqueItems").bind fun unique unique' hunique => ?_
  refine (Follows.number h "minItems").bind fun least least' hleast => ?_
  refine (Follows.number h "maxItems").bind fun most most' hmost => ?_
  exact .pure (by rw [hunique.getD, hleast.same, hmost.same]) trivial

/-- A schema that is told by its type has that key. -/
theorem readTyped_follows (h : T.Cuts m m')
    (hbuild : ∀ c c', T.Cuts c c' → T.Follows (build c) (build' c') Eq (c'.isEmpty = false)) :
    T.Follows
      (do
        let typeName ← (← m.string "type").required
        if typeName = "array" then Schema.array <$> readArray build m
        else
          let format := (← m.string "format").optional
          pure (Schema.primitive ⟨typeName, format⟩))
      (do
        let typeName ← (← m'.string "type").required
        if typeName = "array" then Schema.array <$> readArray build' m'
        else
          let format := (← m'.string "format").optional
          pure (Schema.primitive ⟨typeName, format⟩))
      Eq (m'.isEmpty = false) := by
  refine ((Follows.string h "type").bind_both (G := m.containsKey "type" = true)
    fun found found' hfound => ?_).showing fun hshown => h.isEmpty_eq_false hshown.2 hshown.1
  refine (Follows.required hfound).bind ?_
  rintro typeName _ ⟨rfl, hkey⟩
  -- the type was found, so its key stays and the trimmed mapping is not empty
  refine Follows.showing (F := True) ?_ fun _ => hkey
  split
  next =>
    refine (readArray_follows h hbuild).map ?_
    rintro array _ rfl
    rfl
  next =>
    refine (Follows.string h "format").bind fun format format' hformat => ?_
    exact .pure (by rw [hformat.same]) trivial

theorem readProperty_follows (h : T.Cuts m m')
    (hbuild : T.Follows (build m) (build' m') Eq (m'.isEmpty = false)) (owner : Owner) (name : String)
    (required : Bool) :
    T.Follows (readProperty build owner name required m) (readProperty build' owner name required m') Eq
      True := by
  unfold readProperty
  refine (Follows.string h "description").bind fun description description' hdescription => ?_
  refine (Follows.value h "example").bind fun sample sample' hsample => ?_
  refine (Follows.boolean h "readOnly").bind fun readOnly readOnly' hreadOnly => ?_
  refine (Follows.boolean h "writeOnly").bind fun writeOnly writeOnly' hwriteOnly => ?_
  refine (Follows.boolean h "nullable").bind fun nullable nullable' hnullable => ?_
  refine hbuild.bind ?_
  rintro schema _ rfl
  refine .pure ?_ trivial
  rw [hdescription.same, hsample.same, hreadOnly.getD, hwriteOnly.getD, hnullable.getD]

end

section

variable {build build' : Owner → Mapping → Building Schema}

theorem readProperties_follows (h : T.Cuts m m')
    (hbuild : ∀ owner c c', T.Cuts c c' → T.Follows (build owner c) (build' owner c') Eq (c'.isEmpty = false))
    (owner : Owner) (required : List String) :
    T.Follows (readProperties build owner required m) (readProperties build' owner required m') Eq
      (T.Keeps m "properties") := by
  unfold readProperties
  refine (Follows.mapping h "properties").bind_first fun found found' hfound => ?_
  cases hfound with
  | missing hl hl' =>
    rw [hl, hl']
    exact .pure rfl trivial
  | present hl hl' hproperties _ =>
    rw [hl, hl']
    refine (Follows.mappingEntries hproperties).bind fun entries entries' hentries => ?_
    refine Follows.mapM_eq ?_ hentries
    rintro ⟨name, c⟩ ⟨_, c'⟩ ⟨rfl, hc⟩
    exact readProperty_follows hc (hbuild _ c c' hc) owner name _

theorem readObject_follows (h : T.Cuts m m')
    (hbuild : ∀ owner c c', T.Cuts c c' → T.Follows (build owner c) (build' owner c') Eq (c'.isEmpty = false))
    (owner : Owner) :
    T.Follows (readObject build owner m) (readObject build' owner m') Eq (T.Keeps m "properties") := by
  unfold readObject
  refine (readTexts_follows h "required").bind ?_
  rintro required _ rfl
  refine (readProperties_follows h hbuild owner required).bind_first ?_
  rintro properties _ rfl
  exact .pure rfl trivial

end

/-! ## §3. Schemas. -/

theorem readSchemaTo_follows (height : Nat) : ∀ (owner : Owner) (m m' : Mapping), T.Cuts m m' →
    T.Follows (readSchemaTo height owner m) (readSchemaTo height owner m') Eq (m'.isEmpty = false) := by
  induction height with
  | zero => exact fun _ _ _ _ => .throw
  | succ height ih =>
    intro owner m m' h
    unfold readSchemaTo
    dsimp only
    refine Follows.ite_containsKey h (fun hkey => ?_) fun _ => ?_
    · refine ((readReference_follows h).showing fun hkeep => ⟨h.isEmpty_eq_false hkey hkeep, hkeep⟩).map ?_
      rintro r _ rfl
      rfl
    split
    next => exact .throw
    next hnone =>
    rw [h.find?_eq_none hnone]
    refine (Follows.ignore h annotations).bind fun _ _ _ => ?_
    -- the key that gives the shape is `enum`, or it is one of those that are looked at after it
    refine ((Follows.sequence h "enum").bind_both (G := m.containsKey "enum" = true ∨ m'.isEmpty = false)
      fun values values' hvalues => ?_).showing fun hshown =>
        hshown.2.elim (fun hkey => h.isEmpty_eq_false hkey hshown.1) id
    cases hvalues with
    | present hl hl' hcut hkey =>
      rw [hl, hl']
      exact (readEnumeration_follows h owner hcut).showing fun _ => .inl hkey
    | missing hl hl' =>
      rw [hl, hl']
      refine Follows.showing ?_ .inr
      refine Follows.ite_containsKey h (fun hkey => ?_) fun _ => ?_
      · refine (Follows.ignore h _).bind fun _ _ _ => ?_
        refine ((readObject_follows h ih owner).showing fun hkeep =>
          ⟨h.isEmpty_eq_false hkey hkeep, hkeep⟩).map ?_
        rintro properties _ rfl
        rfl
      refine ((readMapValues_follows h (ih owner)).bind_both (G := HasRules m ∨ m'.isEmpty = false)
        ?_).showing fun hshown =>
          hshown.2.elim (fun hrules => h.isEmpty_eq_false hrules.containsKey (hshown.1 hrules)) id
      rintro values _ ⟨rfl, hrules⟩
      cases values with
      | some values =>
        exact (Follows.ignore h ["type"]).bind fun _ _ _ => .pure rfl (.inl (hrules rfl))
      | none =>
        exact (readTyped_follows h (ih owner)).showing .inr

/-- The lower bound of the trimmed mapping serves as well as that of the mapping. -/
theorem readSchemaTo_cut (h : T.Cuts m m') (owner : Owner) (c : Mapping) (hc : m'.Above c) :
    readSchemaTo m'.node.height owner c = readSchemaTo m.node.height owner c :=
  readSchemaTo_eq hc.1 hc.2.le (hc.2.le.trans h.height_le)

/-- **A schema of the trimmed document is read like that of the document.** -/
theorem readSchema_follows (h : T.Cuts m m') (owner : Owner) :
    T.Follows (readSchema owner m) (readSchema owner m') Eq True := by
  unfold readSchema
  rw [readSchemaTo_eq h.kind' le_rfl h.height_le]
  exact (readSchemaTo_follows _ _ _ _ h).showing fun _ => trivial

end OpenApi.Build
