/-
  OpenApi.Proofs.Pairs.SchemaReaders — reading schemas that belong together.

  A reader asks for keys by name, and the values are read in turn in the roles that they have under these keys. So
  every reader matches itself on mappings that belong together in its role. Where it reads parts with another reader, it
  does so if that one does; the heights of the two trees may differ, so both are read to the greater one.
-/
import OpenApi.Proofs.Build.Nesting
import OpenApi.Proofs.Pairs.Lookups

namespace OpenApi.Build

open Pairing (Matches Pair Rows)

variable {P : Pairing} {r : Role} {m m' : Mapping} {mapped : Bool}

/-! ## §1. References and lists. -/

theorem readReference_matches (h : P.Pair r m m') : P.Matches Eq (readReference m) (readReference m') := by
  unfold readReference
  apply (h.string (.inr rfl)).bind_required
  rintro raw _ rfl
  rw [h.filename]
  split
  next => exact .throw (h.invalidReferenceAt _ _)
  next => exact .throw (h.unsupportedAt _ _)
  next target _ =>
    exact (h.ignore _ rfl).lift.bind fun _ _ _ => (Matches.addReference target).bind fun _ _ _ => .pure rfl

theorem readTexts_matches (h : P.Pair r m m') {key : String} (hkey : r.Finds key) :
    P.Matches Eq (readTexts m key) (readTexts m' key) := by
  unfold readTexts
  refine (h.sequence hkey).lift.bind fun found found' hfound => ?_
  obtain ⟨texts, texts', hl, hl', htexts⟩ | ⟨hl, hl'⟩ := hfound.cases
  · rw [hl, hl']
    exact .ofExcept htexts.texts
  · rw [hl, hl']
    exact .pure rfl

theorem readEnumeration_matches (h : P.Pair r m m') (owner : Owner) {q : Role} {values values' : Sequence}
    (hvalues : P.Rows q values values') :
    P.Matches Eq (readEnumeration m owner values) (readEnumeration m' owner values') := by
  unfold readEnumeration
  apply (Mirrors.ofExcept hvalues.texts).bind
  rintro texts _ rfl
  refine (h.string (.inr rfl)).lift.bind fun valueType valueType' htype => ?_
  rw [htype.getD]
  split
  next => exact .throw (h.invalidValueAt _ _)
  next => exact .pure rfl
  next =>
    refine (h.string (.inr rfl)).lift.bind fun description description' hdescription => ?_
    exact .pure (by rw [hdescription.same])

/-! ## §2. Parts of schemas. -/

section

variable {build build' : Mapping → Building Schema}

/-- Where no map is declared, there are no values of one. -/
theorem readMapValues_none
    (h : m.kindOf "additionalProperties" = none ∨ m.kindOf "additionalProperties" = some .null) :
    readMapValues build m = pure none := by
  unfold readMapValues
  rcases h with h | h
  · rw [h]
  · rw [h]

theorem readMapValues_matches (h : P.Pair (.schema mapped) m m')
    (hbuild : ∀ c c', P.Pair (.schema true) c c' → P.Matches Eq (build c) (build' c')) :
    P.Matches Eq (readMapValues build m) (readMapValues build' m') := by
  -- the key has one kind on both sides, or tells nothing on either: absent, or null
  rcases h.kindOf (.inr rfl : Role.Finds _ "additionalProperties") with hsame | ⟨hnone, hnone'⟩
  · unfold readMapValues
    rw [hsame]
    split
    next =>
      apply (h.mapping (.inr rfl)).bind_required
      intro values values' hvalues
      rw [hvalues.isEmpty]
      split
      next => exact .pure rfl
      next => exact (hbuild values values' hvalues).map fun _ _ => congrArg some
    next => exact .pure rfl
    next => exact .pure rfl
    next =>
      refine (h.boolean (.inr rfl)).lift.bind fun allowed allowed' hallowed => ?_
      exact .pure (by rw [hallowed.getD])
  · rw [readMapValues_none hnone, readMapValues_none hnone']
    exact .pure rfl

theorem readArray_matches (h : P.Pair r m m') (hitems : r.under "items" = .schema false)
    (hbuild : ∀ c c', P.Pair (.schema false) c c' → P.Matches Eq (build c) (build' c')) :
    P.Matches Eq (readArray build m) (readArray build' m') := by
  unfold readArray
  apply (h.mapping (.inr rfl)).bind_required
  intro items items' hpair
  rw [hitems] at hpair
  apply (hbuild items items' hpair).bind
  rintro schema _ rfl
  refine (h.boolean (.inr rfl)).lift.bind fun unique unique' hunique => ?_
  refine (h.number (.inr rfl)).lift.bind fun least least' hleast => ?_
  refine (h.number (.inr rfl)).lift.bind fun most most' hmost => ?_
  exact .pure (by rw [hunique.getD, hleast.same, hmost.same])

theorem readProperty_matches (h : P.Pair (.schema mapped) m m') (hbuild : P.Matches Eq (build m) (build' m'))
    (owner : Owner) (name : String) (required : Bool) :
    P.Matches Eq (readProperty build owner name required m) (readProperty build' owner name required m') := by
  unfold readProperty
  refine (h.string (.inr rfl)).lift.bind fun description description' hdescription => ?_
  refine (h.value (.inr rfl) rfl).lift.bind fun sample sample' hsample => ?_
  refine (h.boolean (.inr rfl)).lift.bind fun readOnly readOnly' hreadOnly => ?_
  refine (h.boolean (.inr rfl)).lift.bind fun writeOnly writeOnly' hwriteOnly => ?_
  refine (h.boolean (.inr rfl)).lift.bind fun nullable nullable' hnullable => ?_
  apply hbuild.bind
  rintro schema _ rfl
  apply Mirrors.pure
  rw [hdescription.same, hsample.same, hreadOnly.getD, hwriteOnly.getD, hnullable.getD]

end

section

variable {build build' : Owner → Mapping → Building Schema}

theorem readProperties_matches (h : P.Pair r m m') (hproperties : r.under "properties" = .table (.schema false))
    (hbuild : ∀ owner c c', P.Pair (.schema false) c c' → P.Matches Eq (build owner c) (build' owner c'))
    (owner : Owner) (required : List String) :
    P.Matches Eq (readProperties build owner required m) (readProperties build' owner required m') := by
  unfold readProperties
  refine (h.mapping (.inr rfl)).lift.bind fun found found' hfound => ?_
  rw [hproperties] at hfound
  obtain ⟨properties, properties', hl, hl', hpair⟩ | ⟨hl, hl'⟩ := hfound.cases
  · rw [hl, hl']
    refine hpair.mappingEntries.lift.bind fun entries entries' hentries => ?_
    apply Mirrors.mapM_eq (Q := Pair.SameEntry P (.schema false)) _ hentries
    rintro ⟨name, c⟩ ⟨_, c'⟩ ⟨rfl, hc⟩
    exact readProperty_matches hc (hbuild _ c c' hc) owner name _
  · rw [hl, hl']
    exact .pure rfl

theorem readObject_matches (h : P.Pair r m m') (hproperties : r.under "properties" = .table (.schema false))
    (hbuild : ∀ owner c c', P.Pair (.schema false) c c' → P.Matches Eq (build owner c) (build' owner c'))
    (owner : Owner) : P.Matches Eq (readObject build owner m) (readObject build' owner m') := by
  unfold readObject
  apply (readTexts_matches h (.inr rfl)).bind
  rintro required _ rfl
  apply (readProperties_matches h hproperties hbuild owner required).bind
  rintro properties _ rfl
  exact .pure rfl

end

/-! ## §3. Schemas. -/

theorem readSchemaTo_matches (height : Nat) : ∀ {mapped : Bool} (owner : Owner) (m m' : Mapping),
    P.Pair (.schema mapped) m m' → P.Matches Eq (readSchemaTo height owner m) (readSchemaTo height owner m') := by
  induction height with
  | zero => exact fun _ _ _ h => .throw (h.unsupported _)
  | succ height ih =>
    intro mapped owner m m' h
    unfold readSchemaTo
    dsimp only
    -- the same shape is found, since the same deciding keys are there
    rw [h.containsKey List.mem_cons_self]
    split
    next => exact (readReference_matches h).map fun _ _ => congrArg Schema.ref
    have hcompositions : ∀ key ∈ compositions, key ∈ (Role.schema mapped).deciding :=
      fun _ hkey => List.mem_cons_of_mem _ (List.mem_cons_of_mem _ hkey)
    rw [h.find?_containsKey hcompositions]
    split
    next => exact .throw (h.unsupportedAt _ _)
    next =>
    refine (h.ignore _ rfl).lift.bind fun _ _ _ => (h.sequence (.inr rfl)).lift.bind fun values values' hvalues => ?_
    obtain ⟨items, items', hl, hl', hitems⟩ | ⟨hl, hl'⟩ := hvalues.cases
    · rw [hl, hl']
      exact readEnumeration_matches h owner hitems
    rw [hl, hl']
    dsimp only
    rw [h.containsKey (List.mem_cons_of_mem _ List.mem_cons_self)]
    split
    next =>
      refine (h.ignore _ rfl).lift.bind fun _ _ _ => ?_
      exact (readObject_matches h rfl ih owner).map fun _ _ => congrArg Schema.object
    next =>
    apply (readMapValues_matches h (ih owner)).bind
    rintro values _ rfl
    cases values with
    | some values => exact (h.ignore _ rfl).lift.bind fun _ _ _ => .pure rfl
    | none =>
      apply (h.string (.inr rfl)).bind_required
      rintro typeName _ rfl
      split
      next => exact (readArray_matches h rfl (ih owner)).map fun _ _ => congrArg Schema.array
      next =>
        refine (h.string (.inr rfl)).lift.bind fun format format' hformat => ?_
        exact .pure (by rw [hformat.same])

theorem readSchema_matches (h : P.Pair (.schema mapped) m m') (owner : Owner) :
    P.Matches Eq (readSchema owner m) (readSchema owner m') := by
  unfold readSchema
  rw [readSchemaTo_eq h.kind le_rfl (Nat.le_max_left _ m'.node.height),
    readSchemaTo_eq h.kind' le_rfl (Nat.le_max_right m.node.height _)]
  exact readSchemaTo_matches _ owner m m' h

/-- Schemas below a mapping may be read to any height that is not less than its own. -/
theorem readSchemaTo_below {height : Nat} (h : m.node.height ≤ height) (owner : Owner) {c : Mapping}
    (hc : m.Above c) :
    readSchemaTo m.node.height owner c = readSchemaTo height owner c :=
  readSchemaTo_eq hc.1 (Nat.le_of_lt hc.2) (Nat.le_trans (Nat.le_of_lt hc.2) h)

end OpenApi.Build
