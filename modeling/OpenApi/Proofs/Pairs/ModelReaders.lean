/-
  OpenApi.Proofs.Pairs.ModelReaders — reading named schemas that belong together.

  The keys that decide which kind of model it is are there in both schemas or in none, so they are models of one kind.
-/
import OpenApi.Build.Models
import OpenApi.Proofs.Pairs.SchemaReaders

namespace OpenApi.Build

open Pairing (Matches Pair)

variable {P : Pairing} {r : Role} {m m' : Mapping}

/-! ## §1. Parts of any height. -/

theorem readObject_below (h : P.Pair r m m') (hproperties : r.under "properties" = .table (.schema false))
    (owner : Owner) : P.Matches Eq (readObject (readSchemaTo m.node.height) owner m)
      (readObject (readSchemaTo m'.node.height) owner m') := by
  -- reading to the greater height is the same on both sides
  rw [readObject_congr fun owner c => readSchemaTo_below (Nat.le_max_left _ m'.node.height) owner,
    readObject_congr fun owner c => readSchemaTo_below (Nat.le_max_right m.node.height _) owner]
  exact readObject_matches h hproperties (readSchemaTo_matches _) owner

theorem readProperties_below (h : P.Pair r m m') (hproperties : r.under "properties" = .table (.schema false))
    (owner : Owner) (required : List String) :
    P.Matches Eq (readProperties (readSchemaTo m.node.height) owner required m)
      (readProperties (readSchemaTo m'.node.height) owner required m') := by
  rw [readProperties_congr fun owner c => readSchemaTo_below (Nat.le_max_left _ m'.node.height) owner,
    readProperties_congr fun owner c => readSchemaTo_below (Nat.le_max_right m.node.height _) owner]
  exact readProperties_matches h hproperties (readSchemaTo_matches _) owner required

theorem readArray_below (h : P.Pair r m m') (hitems : r.under "items" = .schema false) (owner : Owner) :
    P.Matches Eq (readArray (readSchemaTo m.node.height owner) m)
      (readArray (readSchemaTo m'.node.height owner) m') := by
  rw [readArray_congr fun c => readSchemaTo_below (Nat.le_max_left _ m'.node.height) owner,
    readArray_congr fun c => readSchemaTo_below (Nat.le_max_right m.node.height _) owner]
  exact readArray_matches h hitems (readSchemaTo_matches _ owner)

/-! ## §2. AllOf models. -/

theorem readMember_matches (h : P.Pair .member m m') (model : AllOfModel) :
    P.Matches Eq (readMember model m) (readMember model m') := by
  have hdeciding : ∀ key ∈ ["$ref", "properties", "required"], m'.containsKey key = m.containsKey key :=
    fun key hkey => h.containsKey hkey
  unfold readMember
  -- so both are members of the same kind
  rw [hdeciding "$ref" (by simp), hdeciding "properties" (by simp), hdeciding "required" (by simp), h.inert]
  split
  next =>
    apply (readReference_matches h).bind
    rintro target _ rfl
    exact .pure rfl
  split
  next =>
    refine (h.ignore _ rfl).lift.bind fun _ _ _ => ?_
    apply (readObject_below h rfl _).bind
    rintro object _ rfl
    apply (readTexts_matches h (.inr rfl)).bind
    rintro required _ rfl
    exact .pure rfl
  split
  next =>
    refine (h.ignore _ rfl).lift.bind fun _ _ _ => ?_
    apply (readTexts_matches h (.inr rfl)).bind
    rintro required _ rfl
    exact .pure rfl
  split
  next => exact (h.ignore _ rfl).lift.bind fun _ _ _ => (Matches.report _ _).bind fun _ _ _ => .pure rfl
  next => exact .throw (h.unsupported _)

theorem readAllOf_matches (h : P.Pair .model m m') (name : String) (description : Option String) :
    P.Matches Eq (readAllOf name description m) (readAllOf name description m') := by
  unfold readAllOf
  refine (h.ignore _ rfl).lift.bind fun _ _ _ => (readTexts_matches h (.inr rfl)).bind ?_
  rintro required _ rfl
  apply (h.sequence (.inr rfl)).bind_required
  intro members members' hmembers
  apply (Mirrors.ofExcept hmembers.mappings).bind
  intro ms ms' hms
  have hfold : P.Matches Eq (ms.foldlM readMember ⟨name, description, required, [], []⟩)
      (ms'.foldlM readMember ⟨name, description, required, [], []⟩) := by
    refine Mirrors.foldlM (Q := P.Pair .member) ?_ hms _ _ rfl
    rintro model _ c c' rfl hc
    exact readMember_matches hc model
  apply hfold.bind
  rintro model _ rfl
  exact .pure rfl

/-! ## §3. OneOf models. -/

theorem readTarget_matches (h : P.Pair (.table r) m m') (value : String) :
    P.Matches Eq (readTarget m value) (readTarget m' value) := by
  unfold readTarget
  apply (h.string (.inl rfl)).bind_required
  rintro raw _ rfl
  rw [h.filename]
  split
  next => exact .throw (h.invalidReferenceAt _ _)
  next target _ => exact (Matches.addReference target).bind fun _ _ _ => .pure rfl

theorem readDiscriminator_matches (h : P.Pair (.table (.table r)) m m') :
    P.Matches Eq (readDiscriminator m) (readDiscriminator m') := by
  unfold readDiscriminator
  refine (h.string (.inl rfl)).lift.bind fun name name' hname => ?_
  refine (h.mapping (.inl rfl)).lift.bind fun found found' hfound => ?_
  obtain ⟨mapping, mapping', hl, hl', hmapping⟩ | ⟨hl, hl'⟩ := hfound.cases
  · have hlisted : mapping'.keys = mapping.keys := hmapping.keys rfl
    rw [hl, hl', hname.same]
    dsimp only
    rw [hlisted]
    have hentries : P.Matches Eq (mapping.keys.mapM (readTarget mapping))
        (mapping.keys.mapM (readTarget mapping')) := by
      refine Mirrors.mapM_eq (Q := Eq) ?_ (List.forall₂_refl _)
      rintro value _ rfl
      exact readTarget_matches hmapping value
    apply hentries.bind
    rintro entries _ rfl
    exact .pure rfl
  · -- no mapping on either side: no target is read
    rw [hl, hl', hname.same]
    exact .pure rfl

theorem readOneOf_matches (h : P.Pair .model m m') (name : String) (description : Option String) :
    P.Matches Eq (readOneOf name description m) (readOneOf name description m') := by
  unfold readOneOf
  refine (h.ignore _ rfl).lift.bind fun _ _ _ => ?_
  apply (h.sequence (.inr rfl)).bind_required
  intro members members' hmembers
  apply (Mirrors.ofExcept hmembers.mappings).bind
  intro ms ms' hms
  refine (Mirrors.mapM_eq (Q := P.Pair .free) ?_ hms).bind ?_
  · intro c c' hc
    rw [hc.containsKey List.mem_cons_self]
    split
    next => exact readReference_matches hc
    next => exact .throw (hc.unsupported _)
  rintro refs _ rfl
  refine (h.mapping (.inr rfl)).lift.bind fun found found' hfound => ?_
  obtain ⟨d, d', hl, hl', hd⟩ | ⟨hl, hl'⟩ := hfound.cases
  · rw [hl, hl']
    apply (readDiscriminator_matches hd).bind
    rintro discriminator _ rfl
    exact .pure rfl
  · rw [hl, hl']
    exact .pure rfl

/-! ## §4. Models. -/

theorem readGeneric_matches (h : P.Pair .model m m') (name : String) (description : Option String) :
    P.Matches Eq (readGeneric name description m) (readGeneric name description m') := by
  unfold readGeneric
  refine (h.ignore _ rfl).lift.bind fun _ _ _ => (readTexts_matches h (.inr rfl)).bind ?_
  rintro required _ rfl
  apply (readProperties_below h rfl _ _).bind
  rintro properties _ rfl
  exact .pure rfl

theorem readEnum_matches (h : P.Pair .model m m') (name : String) (description : Option String) :
    P.Matches Eq (readEnum name description m) (readEnum name description m') := by
  unfold readEnum
  apply (h.sequence (.inr rfl)).bind_required
  intro values values' hvalues
  apply (Mirrors.ofExcept hvalues.texts).bind
  rintro texts _ rfl
  split
  next => exact .throw (h.invalidValueAt _ _)
  next =>
    refine (h.string (.inr rfl)).lift.bind fun valueType valueType' htype => ?_
    exact .pure (by rw [htype.getD])

theorem readModel_matches (h : P.Pair .model m m') (name : String) :
    P.Matches Eq (readModel name m) (readModel name m') := by
  -- the four keys that decide the kind are among those that a pair agrees on
  have hdeciding : ∀ key ∈ ["properties", "enum", "allOf", "oneOf"], m'.containsKey key = m.containsKey key :=
    fun key hkey => h.containsKey hkey
  unfold readModel
  refine (h.ignore _ rfl).lift.bind fun _ _ _ => ?_
  refine (h.string (.inr rfl)).lift.bind fun description description' hdescription => ?_
  rw [hdescription.same, hdeciding "properties" (by simp), hdeciding "enum" (by simp), hdeciding "allOf" (by simp),
    hdeciding "oneOf" (by simp)]
  split
  next => exact (readGeneric_matches h name _).map fun _ _ => congrArg Model.generic
  split
  next => exact (readEnum_matches h name _).map fun _ _ => congrArg Model.enumeration
  split
  next => exact (readAllOf_matches h name _).map fun _ _ => congrArg Model.allOf
  split
  next => exact (readOneOf_matches h name _).map fun _ _ => congrArg Model.oneOf
  refine (h.string (.inr rfl)).lift.bind fun typeName typeName' htype => ?_
  rw [htype.same]
  split
  next =>
    apply (readArray_below h rfl _).bind
    rintro array _ rfl
    exact .pure rfl
  next => exact .throw (h.unsupported _)

theorem declareModel_matches (h : P.Pair .model m m') (name : String) :
    P.Matches Eq (declareModel name m) (declareModel name m') := by
  unfold declareModel
  apply (readModel_matches h name).bind
  rintro model _ rfl
  rw [h.filename]
  exact (Matches.report _ _).bind fun _ _ _ => Matches.update _

theorem readModels_matches (m m' : Mapping) (h : P.Pair (.table .model) m m') :
    P.Matches Eq (readModels m) (readModels m') := by
  unfold readModels
  refine h.mappingEntries.lift.bind fun entries entries' hentries => Mirrors.forM ?_ hentries
  rintro ⟨name, c⟩ ⟨_, c'⟩ ⟨rfl, hc⟩
  exact declareModel_matches hc name

end OpenApi.Build
