/-
  OpenApi.Proofs.Spec.Tables — the tables of models, and what keeps them in step.

  A spec has its models in an arena, their files in a second list, and their numbers in two tables, by name and by
  reference text. Each is written on its own when a model is added (`withModel`), so it is a fact about the calls
  and not about the tables that they tell the same: that they are in step (`InStep`) holds of a spec without content and
  is kept by every model that is accepted (`InStep.withModel`).
-/
import Mathlib.Data.List.Basic
import OpenApi.Proofs.Keyed
import OpenApi.Proofs.Outcome
import OpenApi.Proofs.Text.Ordered
import OpenApi.Spec.Basic

namespace OpenApi.Spec

variable {s t : Spec} {file name text : String} {m : Model} {n : Nat} {d : Declared} {r : SchemaRef}

/-! ## §1. Numbers. -/

/-- A model and its file stand under one number in two tables. -/
theorem getElem?_models : s.models[n]? = some d ↔ s.modelFile? n = some d.file ∧ s.model? n = some d.model := by
  unfold models modelFile? model?
  rw [List.getElem?_zipWith_eq_some]
  constructor
  · rintro ⟨f, m, hf, hm, rfl⟩
    exact ⟨hf, hm⟩
  · rintro ⟨hf, hm⟩
    exact ⟨d.file, d.model, hf, hm, rfl⟩

/-- A model that stands with its file is one of the arena. -/
theorem mem_arena_of_mem_models (h : d ∈ s.models) : d.model ∈ s.arena := by
  obtain ⟨n, hn⟩ := List.mem_iff_getElem?.1 h
  exact List.mem_of_getElem? (getElem?_models.1 hn).2

theorem modelNumber_eq_ok : s.modelNumber r = .ok n ↔ s.numberAt? r.reference = some n := by
  unfold modelNumber
  cases s.numberAt? r.reference with
  | none => simp
  | some k => simp

/-- A reference resolves just if it leads to a number that a model has. -/
theorem getModel_eq_ok : s.getModel r = .ok m ↔ ∃ n, s.modelNumber r = .ok n ∧ s.model? n = some m := by
  unfold getModel
  rw [Outcome.bind_eq_ok]
  refine exists_congr fun n => and_congr_right fun _ => ?_
  cases hm : s.model? n with
  | none => exact ⟨nofun, nofun⟩
  | some m' => exact ⟨fun h => congrArg some (Except.ok.inj h), fun h => congrArg Except.ok (Option.some.inj h)⟩

/-- The names that are listed are those that are taken. -/
theorem mem_modelNames : name ∈ s.modelNames ↔ s.declares name = true := by
  unfold modelNames declares numberNamed?
  rw [Text.mem_ordered, Keyed.value?_isSome]

theorem modelNamed?_eq_some : s.modelNamed? name = some m ↔ ∃ n, s.numberNamed? name = some n ∧ s.model? n = some m :=
  Option.bind_eq_some_iff

theorem declared?_eq_some : s.declared? text = some d ↔ ∃ n, s.numberAt? text = some n ∧ s.models[n]? = some d :=
  Option.bind_eq_some_iff

/-- Is the model one of those of the spec? -/
def IsDeclared (s : Spec) (m : Model) : Prop := m ∈ s.arena

/-- The names of the models, in the order of their declarations. -/
def names (s : Spec) : List String := s.arena.map Model.name

theorem IsDeclared.name_mem (h : s.IsDeclared m) : m.name ∈ s.names := List.mem_map_of_mem h

/-- A model that a reference resolves to is declared. -/
theorem isDeclared_of_getModel (h : s.getModel r = .ok m) : s.IsDeclared m := by
  obtain ⟨n, -, hm⟩ := getModel_eq_ok.1 h
  exact List.mem_of_getElem? hm

/-- A model that is found by its name is declared. -/
theorem isDeclared_of_modelNamed? (h : s.modelNamed? name = some m) : s.IsDeclared m := by
  obtain ⟨n, -, hm⟩ := modelNamed?_eq_some.1 h
  exact List.mem_of_getElem? hm

theorem mem_modelNames_of_modelNamed? (h : s.modelNamed? name = some m) : name ∈ s.modelNames := by
  obtain ⟨n, hn, -⟩ := modelNamed?_eq_some.1 h
  exact mem_modelNames.2 (Option.isSome_iff_exists.2 ⟨n, hn⟩)

/-! ## §2. One more model. -/

theorem numberNamed?_withModel :
    (s.withModel file m).numberNamed? name = if m.name = name then some s.count else s.numberNamed? name :=
  Keyed.value?_put

theorem numberAt?_withModel : (s.withModel file m).numberAt? text =
    if SchemaRef.place file m.name = text then some s.count else s.numberAt? text := Keyed.value?_put

theorem arena_withModel : (s.withModel file m).arena = s.arena ++ [m] := rfl

theorem modelFiles_withModel : (s.withModel file m).modelFiles = s.modelFiles ++ [file] := rfl

theorem mem_modelNames_withModel :
    name ∈ (s.withModel file m).modelNames ↔ m.name = name ∨ name ∈ s.modelNames := by
  rw [mem_modelNames, mem_modelNames]
  unfold declares
  rw [numberNamed?_withModel]
  split
  next h => simp [h]
  next h => simp [h]

/-- Models keep their numbers. -/
theorem model?_withModel (h : s.model? n = some m) (file : String) (m' : Model) :
    (s.withModel file m').model? n = some m := by
  unfold model? at h ⊢
  rw [arena_withModel, List.getElem?_append_left (List.getElem?_eq_some_iff.1 h).1]
  exact h

theorem model?_count_withModel : (s.withModel file m).model? s.count = some m := List.getElem?_concat_length

/-- A model that is added is found under its name. -/
theorem modelNamed?_withModel_self : (s.withModel file m).modelNamed? m.name = some m := by
  unfold modelNamed?
  rw [numberNamed?_withModel, if_pos rfl]
  exact model?_count_withModel

/-- Models stay under their names when one is added whose name is free. -/
theorem modelNamed?_withModel_of_free {m' : Model} (hfree : s.declares m'.name = false)
    (h : s.modelNamed? name = some m) : (s.withModel file m').modelNamed? name = some m := by
  obtain ⟨n, hn, hm⟩ := modelNamed?_eq_some.1 h
  have hother : m'.name ≠ name := by
    rintro rfl
    exact absurd (Option.isSome_iff_exists.2 ⟨n, hn⟩) (Bool.eq_false_iff.1 hfree)
  refine modelNamed?_eq_some.2 ⟨n, ?_, model?_withModel hm file m'⟩
  rw [numberNamed?_withModel, if_neg hother, hn]

/-- What an accepted model does to a spec: it gets the next number, and all tables are told. -/
theorem addNumbered_ok (h : s.addNumbered file m = .ok (n, t)) :
    s.declares m.name = false ∧ n = s.count ∧ t = s.withModel file m := by
  unfold addNumbered at h
  split at h
  next => exact absurd h nofun
  next hnew =>
    obtain ⟨rfl, rfl⟩ := Prod.mk.inj (Except.ok.inj h)
    exact ⟨Bool.eq_false_iff.2 hnew, rfl, rfl⟩

theorem addModel_ok (h : s.addModel file m = .ok t) : s.declares m.name = false ∧ t = s.withModel file m := by
  obtain ⟨⟨n, u⟩, hadd, rfl⟩ := Outcome.map_eq_ok.1 h
  obtain ⟨hnew, -, hu⟩ := addNumbered_ok hadd
  exact ⟨hnew, hu⟩

/-- A model is accepted just if its name is free. -/
theorem addModel_of_free (h : s.declares m.name = false) (file : String) :
    s.addModel file m = .ok (s.withModel file m) := by
  unfold addModel addNumbered
  rw [h]
  rfl

theorem addModel_of_taken (h : s.declares m.name = true) (file : String) :
    s.addModel file m = .error ⟨.duplicateModel m.name, none⟩ := by
  unfold addModel addNumbered
  rw [h]
  rfl

/-! ## §3. Tables in step. -/

/-- The tables of models tell the same. -/
structure InStep (s : Spec) : Prop where
  /-- There is a file for each model. -/
  files : s.modelFiles.length = s.arena.length
  /-- A name leads to a model of that name. -/
  named : ∀ name n, s.numberNamed? name = some n → ∃ m, s.model? n = some m ∧ m.name = name
  /-- The name of each model leads somewhere. -/
  names : ∀ m ∈ s.arena, s.declares m.name = true
  /-- A reference text leads to a model that it names. -/
  placed : ∀ text n, s.numberAt? text = some n → ∃ d, s.models[n]? = some d ∧ d.place = text
  /-- The reference text of each model leads somewhere. -/
  places : ∀ d ∈ s.models, (s.numberAt? d.place).isSome = true

theorem inStep_empty (entryFile : String) : (empty entryFile).InStep where
  files := rfl
  named _ _ h := absurd h nofun
  names _ h := absurd h List.not_mem_nil
  placed _ _ h := absurd h nofun
  places _ h := absurd h List.not_mem_nil

theorem models_withModel (hs : s.modelFiles.length = s.arena.length) :
    (s.withModel file m).models = s.models ++ [⟨file, m⟩] := by
  unfold models
  rw [arena_withModel, modelFiles_withModel, List.zipWith_append hs]
  rfl

namespace InStep

/-- **Tables in step stay so when a model is added.** Each table is written on its own: what a name or a text led to
before keeps its number, and the number that is written last is that of the new model. -/
theorem withModel (hs : s.InStep) (file : String) (m : Model) : (s.withModel file m).InStep where
  files := by
    rw [arena_withModel, modelFiles_withModel, List.length_append, List.length_append, hs.files]
    rfl
  named name n h := by
    rw [numberNamed?_withModel] at h
    split at h
    next hname =>
      rw [← Option.some.inj h]
      exact ⟨m, model?_count_withModel, hname⟩
    next =>
      obtain ⟨m', hm', hname⟩ := hs.named name n h
      exact ⟨m', model?_withModel hm' file m, hname⟩
  names m' hm' := by
    unfold declares
    rw [numberNamed?_withModel]
    split
    next => rfl
    next hname =>
      rcases List.mem_append.1 hm' with hold | hnew
      · exact hs.names m' hold
      · exact absurd (List.mem_singleton.1 hnew ▸ rfl) hname
  placed text n h := by
    rw [models_withModel hs.files]
    rw [numberAt?_withModel] at h
    split at h
    next hplace =>
      -- the new model stands at the end of both lists, which are equally long
      have hlength : s.models.length = s.count := by
        unfold models count
        rw [List.length_zipWith, hs.files, Nat.min_self]
      rw [← Option.some.inj h, ← hlength]
      exact ⟨⟨file, m⟩, List.getElem?_concat_length, hplace⟩
    next =>
      obtain ⟨d, hd, hplace⟩ := hs.placed text n h
      exact ⟨d, by rw [List.getElem?_append_left (List.getElem?_eq_some_iff.1 hd).1, hd], hplace⟩
  places d hd := by
    rw [models_withModel hs.files] at hd
    rw [numberAt?_withModel]
    split
    next => rfl
    next hplace =>
      rcases List.mem_append.1 hd with hold | hnew
      · exact hs.places d hold
      · exact absurd (List.mem_singleton.1 hnew ▸ rfl) hplace

variable (hs : s.InStep)

include hs

theorem length_models : s.models.length = s.count := by
  unfold models count
  rw [List.length_zipWith, hs.files, Nat.min_self]

/-- The models without their files are those of the arena. -/
theorem map_model_models : s.models.map Declared.model = s.arena := by
  refine List.ext_getElem (by rw [List.length_map, hs.length_models, count]) fun n _ _ => ?_
  simp [models]

/-- Each model has its file. -/
theorem exists_file (h : s.model? n = some m) : ∃ file, s.modelFile? n = some file := by
  have hlt : n < s.modelFiles.length := hs.files ▸ (List.getElem?_eq_some_iff.1 h).1
  exact ⟨_, List.getElem?_eq_getElem hlt⟩

theorem isDeclared_iff : s.IsDeclared m ↔ ∃ d ∈ s.models, d.model = m := by
  constructor
  · intro h
    obtain ⟨n, hn⟩ := List.mem_iff_getElem?.1 h
    obtain ⟨file, hfile⟩ := hs.exists_file hn
    have hat : s.models[n]? = some ⟨file, m⟩ := getElem?_models.2 ⟨hfile, hn⟩
    exact ⟨⟨file, m⟩, List.mem_of_getElem? hat, rfl⟩
  · rintro ⟨d, hd, rfl⟩
    exact mem_arena_of_mem_models hd

/-- The names that are taken are those of the models. -/
theorem declares_iff : s.declares name = true ↔ name ∈ s.names := by
  constructor
  · intro h
    obtain ⟨n, hn⟩ := Option.isSome_iff_exists.1 h
    obtain ⟨m, hm, rfl⟩ := hs.named name n hn
    exact IsDeclared.name_mem (List.mem_of_getElem? hm)
  · intro h
    obtain ⟨m, hm, rfl⟩ := List.mem_map.1 h
    exact hs.names m hm

/-- A model that is found by a name has it. -/
theorem name_of_modelNamed? (h : s.modelNamed? name = some m) : m.name = name := by
  obtain ⟨n, hn, hm⟩ := modelNamed?_eq_some.1 h
  obtain ⟨m', hm', hname⟩ := hs.named name n hn
  rw [hm] at hm'
  exact Option.some.inj hm' ▸ hname

theorem declares_eq_false : s.declares name = false ↔ name ∉ s.names := by
  rw [← hs.declares_iff, Bool.not_eq_true]

/-- A reference text leads to a number just if it leads to a model. -/
theorem isSome_declared? : (s.declared? text).isSome = (s.numberAt? text).isSome := by
  unfold declared?
  cases hn : s.numberAt? text with
  | none => rfl
  | some n =>
    obtain ⟨d, hd, -⟩ := hs.placed text n hn
    rw [Option.bind_some, hd]
    rfl

/-- A reference names no model if there is none in its place. -/
theorem declared?_eq_none : s.declared? text = none ↔ ∀ d ∈ s.models, d.place ≠ text := by
  rw [← Option.not_isSome_iff_eq_none, hs.isSome_declared?]
  constructor
  · rintro hnone d hd rfl
    exact hnone (hs.places d hd)
  · intro hother hsome
    obtain ⟨n, hn⟩ := Option.isSome_iff_exists.1 hsome
    obtain ⟨d, hd, hplace⟩ := hs.placed text n hn
    exact hother d (List.mem_of_getElem? hd) hplace

/-- A model that a reference names is in the place that it tells. -/
theorem place_of_declared? (h : s.declared? text = some d) : d ∈ s.models ∧ d.place = text := by
  obtain ⟨n, hn, hd⟩ := declared?_eq_some.1 h
  obtain ⟨e, he, hplace⟩ := hs.placed text n hn
  rw [hd] at he
  exact ⟨List.mem_of_getElem? hd, Option.some.inj he ▸ hplace⟩

/-- **A reference that leads to a number leads to a model**: no number is out of range. -/
theorem getModel_eq : s.getModel r = match s.declared? r.reference with
    | some d => .ok d.model
    | none => .error ⟨.missingReference r.reference s.modelNames, none⟩ := by
  cases hn : s.numberAt? r.reference with
  | none =>
    unfold getModel modelNumber declared?
    rw [hn]
    rfl
  | some n =>
    obtain ⟨d, hd, -⟩ := hs.placed _ n hn
    rw [getModel_eq_ok.2 ⟨n, modelNumber_eq_ok.2 hn, (getElem?_models.1 hd).2⟩, declared?_eq_some.2 ⟨n, hn, hd⟩]

/-- What a reference text names when there is one more model. -/
theorem declared?_withModel (file : String) (m : Model) (text : String) : (s.withModel file m).declared? text =
    if SchemaRef.place file m.name = text then some ⟨file, m⟩ else s.declared? text := by
  unfold declared?
  rw [numberAt?_withModel, models_withModel hs.files]
  split
  next =>
    rw [Option.bind_some, ← hs.length_models]
    exact List.getElem?_concat_length
  next =>
    cases hn : s.numberAt? text with
    | none => rfl
    | some n =>
      obtain ⟨d, hd, -⟩ := hs.placed text n hn
      rw [Option.bind_some, Option.bind_some]
      exact List.getElem?_append_left (List.getElem?_eq_some_iff.1 hd).1

/-- What stands under a name when there is one more model. -/
theorem modelNamed?_withModel (file : String) (m : Model) (name : String) :
    (s.withModel file m).modelNamed? name = if m.name = name then some m else s.modelNamed? name := by
  unfold modelNamed?
  rw [numberNamed?_withModel]
  split
  next => exact model?_count_withModel
  next =>
    cases hn : s.numberNamed? name with
    | none => rfl
    | some n =>
      obtain ⟨m', hm', -⟩ := hs.named name n hn
      rw [Option.bind_some, Option.bind_some, hm']
      exact model?_withModel hm' file m

end InStep

end OpenApi.Spec
