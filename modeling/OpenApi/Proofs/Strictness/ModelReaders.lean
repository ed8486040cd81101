/-
  OpenApi.Proofs.Strictness.ModelReaders — reading a named schema of a document and of the trimmed one.

  The kind of a model is that of the first of some keys that is there; reading it marks that key, so the trimmed
  schema has the same kind.
-/
import OpenApi.Build.Models
import OpenApi.Proofs.Strictness.SchemaReaders

namespace OpenApi.Build

open Trim (Follows)

variable {T : Trim} {m m' : Mapping}

/-! ## §1. AllOf models. -/

theorem readMember_follows (h : T.Cuts m m') (model : AllOfModel) :
    T.Follows (readMember model m) (readMember model m') Eq True := by
  unfold readMember
  -- the key that decides a branch is read there, so the trim keeps it and the second run decides alike
  refine Follows.ite_containsKey h (fun _ => ?_) fun _ => Follows.ite_containsKey h (fun _ => ?_) fun _ =>
    Follows.ite_containsKey h (fun _ => ?_) fun _ => ?_
  · refine ((readReference_follows h).showing fun hkeep => ⟨trivial, hkeep⟩).bind_first ?_
    rintro r _ rfl
    exact .pure rfl trivial
  · refine (Follows.ignore h _).bind fun _ _ _ => ?_
    rw [readObject_congr (readSchemaTo_cut h)]
    refine ((readObject_follows h (readSchemaTo_follows _) _).showing fun hkeep =>
      ⟨trivial, hkeep⟩).bind_first ?_
    rintro object _ rfl
    refine ((readTexts_follows h "required").bind ?_)
    rintro required _ rfl
    exact .pure rfl trivial
  · refine (Follows.ignore h _).bind fun _ _ _ => ?_
    refine ((readTexts_follows h "required").showing fun hkeep => ⟨trivial, hkeep⟩).bind_first ?_
    rintro required _ rfl
    exact .pure rfl trivial
  split
  next hinert =>
    -- a member with annotations only loses some of them at most
    rw [h.all_keys hinert, if_pos rfl]
    refine (Follows.ignore h _).bind fun _ _ _ => Follows.report.bind fun _ _ _ => ?_
    exact .pure rfl trivial
  next => exact .throw

theorem readAllOf_follows (h : T.Cuts m m') (name : String) (description : Option String) :
    T.Follows (readAllOf name description m) (readAllOf name description m') Eq (T.Keeps m "allOf") := by
  unfold readAllOf
  refine (Follows.ignore h _).bind fun _ _ _ => (readTexts_follows h "required").bind ?_
  rintro required _ rfl
  refine (Follows.sequence h "allOf").bind_first fun found found' hfound => ?_
  refine (Follows.required hfound).bind ?_
  rintro members members' ⟨hmembers, -⟩
  refine (Follows.mappings hmembers).bind fun ms ms' hms => ?_
  refine (Follows.foldlM (Q := T.Cuts) (fun model c c' hc => readMember_follows hc model) hms _).bind ?_
  rintro model _ rfl
  exact .pure rfl trivial

/-! ## §2. OneOf models. -/

theorem readTarget_follows (h : T.Cuts m m') (value : String) :
    T.Follows (readTarget m value) (readTarget m' value) Eq (T.Keeps m value) := by
  unfold readTarget
  refine (Follows.string h value).bind_first fun found found' hfound => ?_
  refine (Follows.required hfound).bind ?_
  rintro raw _ ⟨rfl, -⟩
  rw [h.file, h.file']
  split
  next => exact .throw
  next r hr => exact (Follows.addReference (.inl ⟨raw, hr⟩)).bind fun _ _ _ => .pure rfl trivial

theorem readDiscriminator_follows (h : T.Cuts m m') :
    T.Follows (readDiscriminator m) (readDiscriminator m') Eq True := by
  unfold readDiscriminator
  refine (Follows.string h "propertyName").bind fun name name' hname => ?_
  refine (Follows.mapping h "mapping").bind fun found found' hfound => ?_
  cases hfound with
  | missing hl hl' =>
    rw [hl, hl', hname.same]
    exact .pure rfl trivial
  | present hl hl' hmapping _ =>
    rw [hl, hl', hname.same]
    refine (Follows.mapM_keys hmapping fun value => readTarget_follows hmapping value).bind
      fun entries entries' hentries => ?_
    rw [List.forall₂_eq_eq_eq] at hentries
    rw [hentries]
    exact .pure rfl trivial

theorem readOneOf_follows (h : T.Cuts m m') (name : String) (description : Option String) :
    T.Follows (readOneOf name description m) (readOneOf name description m') Eq (T.Keeps m "oneOf") := by
  unfold readOneOf
  refine (Follows.ignore h _).bind fun _ _ _ => ?_
  refine (Follows.sequence h "oneOf").bind_first fun found found' hfound => ?_
  refine (Follows.required hfound).bind ?_
  rintro members members' ⟨hmembers, -⟩
  refine (Follows.mappings hmembers).bind fun ms ms' hms => ?_
  refine (Follows.mapM_eq ?_ hms).bind ?_
  · intro c c' hc
    exact Follows.ite_containsKey hc
      (fun _ => (readReference_follows hc).showing fun hkeep => ⟨trivial, hkeep⟩) fun _ => .throw
  rintro refs _ rfl
  refine (Follows.mapping h "discriminator").bind fun found found' hfound => ?_
  cases hfound with
  | missing hl hl' =>
    rw [hl, hl']
    exact .pure rfl trivial
  | present hl hl' hd _ =>
    rw [hl, hl']
    refine (readDiscriminator_follows hd).bind ?_
    rintro discriminator _ rfl
    exact .pure rfl trivial

/-! ## §3. Models. -/

theorem readGeneric_follows (h : T.Cuts m m') (name : String) (description : Option String) :
    T.Follows (readGeneric name description m) (readGeneric name description m') Eq
      (T.Keeps m "properties") := by
  unfold readGeneric
  refine (Follows.ignore h _).bind fun _ _ _ => (readTexts_follows h "required").bind ?_
  rintro required _ rfl
  rw [readProperties_congr (readSchemaTo_cut h)]
  refine (readProperties_follows h (readSchemaTo_follows _) _ _).bind_first ?_
  rintro properties _ rfl
  exact .pure rfl trivial

theorem readEnum_follows (h : T.Cuts m m') (name : String) (description : Option String) :
    T.Follows (readEnum name description m) (readEnum name description m') Eq (T.Keeps m "enum") := by
  unfold readEnum
  refine (Follows.sequence h "enum").bind_first fun found found' hfound => ?_
  refine (Follows.required hfound).bind ?_
  rintro values values' ⟨hvalues, -⟩
  refine (Follows.texts hvalues).bind ?_
  rintro texts _ rfl
  split
  next => exact .throw
  next =>
    refine (Follows.string h "type").bind fun valueType valueType' htype => ?_
    exact .pure (by rw [htype.getD]) trivial

/-- **A model of the trimmed document is read like that of the document.** -/
theorem readModel_follows (h : T.Cuts m m') (name : String) :
    T.Follows (readModel name m) (readModel name m') Eq True := by
  -- each kind of model reads the key that it was chosen by
  have hkeeps : ∀ {key : String}, T.Keeps m key → True ∧ T.Keeps m key := fun hkeep => ⟨trivial, hkeep⟩
  unfold readModel
  refine (Follows.ignore h _).bind fun _ _ _ => ?_
  refine (Follows.string h "description").bind fun description description' hdescription => ?_
  rw [hdescription.same]
  refine Follows.ite_containsKey h (fun _ => ?_) fun _ => Follows.ite_containsKey h (fun _ => ?_) fun _ =>
    Follows.ite_containsKey h (fun _ => ?_) fun _ => Follows.ite_containsKey h (fun _ => ?_) fun _ => ?_
  · exact ((readGeneric_follows h name _).showing hkeeps).map fun _ _ => congrArg _
  · exact ((readEnum_follows h name _).showing hkeeps).map fun _ _ => congrArg _
  · exact ((readAllOf_follows h name _).showing hkeeps).map fun _ _ => congrArg _
  · exact ((readOneOf_follows h name _).showing hkeeps).map fun _ _ => congrArg _
  refine (Follows.string h "type").bind fun typeName typeName' htype => ?_
  rw [htype.same]
  split
  next =>
    rw [readArray_congr (readSchemaTo_cut h _)]
    refine (readArray_follows h (readSchemaTo_follows _ _)).bind ?_
    rintro array _ rfl
    exact .pure rfl trivial
  next => exact .throw

theorem declareModel_follows (h : T.Cuts m m') (name : String) :
    T.Follows (declareModel name m) (declareModel name m') (fun _ _ => True) True := by
  unfold declareModel
  refine (readModel_follows h name).bind ?_
  rintro model _ rfl
  refine Follows.report.bind fun _ _ _ => ?_
  rw [h.file, h.file']
  exact .update fun s t hf => ⟨.model T.file model, hf, rfl⟩

theorem readModels_follows (h : T.Cuts m m') :
    T.Follows (readModels m) (readModels m') (fun _ _ => True) True := by
  unfold readModels
  refine (Follows.mappingEntries h).bind fun entries entries' hentries => Follows.forM ?_ hentries
  rintro ⟨name, c⟩ ⟨_, c'⟩ ⟨rfl, hc⟩
  exact declareModel_follows hc name

end OpenApi.Build
