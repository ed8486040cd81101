/-
  OpenApi.Proofs.Spec.Numbers — the numbers of models.

  Models are numbered in the order in which they are declared, and a name or a reference leads to a number. Where tables
  are in step, names are distinct and files are named without number sign, these ways to a model agree
  (`ModelsIndexed`): each model is found by its number, by its name and by the reference to it, and no other reference
  leads to it. Every run of calls keeps it so, no later call changes what a reference leads to, and a model is refused
  just if its name is taken. Main statement: `modelsIndexed_of_run`.
-/
import OpenApi.Proofs.Reference
import OpenApi.Proofs.Spec.Runs

namespace OpenApi.Spec

variable {s t : Spec} {r : SchemaRef} {n k : Nat} {m m' : Model} {file file' name : String} {calls more : List Change}

/-! ## §1. Names and places tell numbers. -/

theorem lt_of_model? (h : s.model? n = some m) : n < s.count := (List.getElem?_eq_some_iff.1 h).1

theorem name_of_model? (h : s.model? n = some m) : s.names[n]? = some m.name := by
  unfold model? at h
  unfold names
  rw [List.getElem?_map, h]
  rfl

/-- Where names are distinct, a name tells the number. -/
theorem NamesDistinct.number_eq (hs : s.NamesDistinct) (hn : s.model? n = some m) (hk : s.model? k = some m')
    (h : m.name = m'.name) : n = k := by
  have hlt : n < s.names.length := by
    unfold names
    rw [List.length_map]
    exact lt_of_model? hn
  refine (List.getElem?_inj hlt hs).1 ?_
  rw [name_of_model? hn, name_of_model? hk, h]

namespace InStep

variable (hs : s.InStep) (hdistinct : s.NamesDistinct)

include hs

/-- There is a model with a number just if there is a file with it. -/
theorem isSome_modelFile? : (s.modelFile? n).isSome = true ↔ n < s.count := by
  unfold modelFile? count
  rw [← hs.files, isSome_getElem?]

/-- The declared models are those that stand with their files, under the same numbers. -/
theorem declaredModels_eq : s.declaredModels = s.models.zipIdx.map fun e => (e.2, e.1.model) := by
  unfold declaredModels
  rw [← hs.map_model_models, List.zipIdx_map, List.map_map]
  rfl

include hdistinct

/-- A name leads to a number just if the model with that number has the name. -/
theorem numberNamed?_eq_some : s.numberNamed? name = some n ↔ ∃ m, s.model? n = some m ∧ m.name = name := by
  refine ⟨hs.named name n, ?_⟩
  rintro ⟨m, hn, rfl⟩
  obtain ⟨k, hk⟩ := Option.isSome_iff_exists.1 (hs.names m (List.mem_of_getElem? hn))
  -- the name leads to some model of that name, and there is one only
  obtain ⟨m', hm', hname⟩ := hs.named m.name k hk
  rw [hk, hdistinct.number_eq hm' hn hname]

/-- A model is found by its name just if it has a number and that name. -/
theorem modelNamed?_eq_some : s.modelNamed? name = some m ↔ ∃ n, s.model? n = some m ∧ m.name = name := by
  constructor
  · intro h
    obtain ⟨n, -, hm⟩ := Spec.modelNamed?_eq_some.1 h
    exact ⟨n, hm, hs.name_of_modelNamed? h⟩
  · rintro ⟨n, hm, hname⟩
    exact Spec.modelNamed?_eq_some.2 ⟨n, (hs.numberNamed?_eq_some hdistinct).2 ⟨m, hm, hname⟩, hm⟩

/-- A model is found by its name just if it is declared and has the name. -/
theorem modelNamed?_eq_some_iff : s.modelNamed? name = some m ↔ s.IsDeclared m ∧ m.name = name := by
  rw [hs.modelNamed?_eq_some hdistinct]
  unfold IsDeclared model?
  rw [List.mem_iff_getElem?, exists_and_right]

/-- Just the text that names a model leads to its number. -/
theorem modelNumber_eq_ok (hplain : s.FilesPlain) (hm : s.model? n = some m) (hfile : s.modelFile? n = some file) :
    s.modelNumber r = .ok n ↔ r.reference = SchemaRef.place file m.name := by
  have hat : s.models[n]? = some ⟨file, m⟩ := getElem?_models.2 ⟨hfile, hm⟩
  rw [Spec.modelNumber_eq_ok]
  constructor
  · intro h
    obtain ⟨d, hd, hplace⟩ := hs.placed _ n h
    rw [hat] at hd
    rw [← hplace, ← Option.some.inj hd]
    rfl
  · intro h
    have hmem : ⟨file, m⟩ ∈ s.models := List.mem_of_getElem? hat
    obtain ⟨k, hk⟩ := Option.isSome_iff_exists.1 (hs.places _ hmem)
    -- the text leads to some model in that place, which has the same name since no file has a number sign
    obtain ⟨d, hd, hplace⟩ := hs.placed _ k hk
    have hname : m.name = d.model.name :=
      (SchemaRef.place_inj (hplain _ hmem) (hplain d (List.mem_of_getElem? hd)) hplace.symm).2
    rw [h, hdistinct.number_eq hm (getElem?_models.1 hd).2 hname]
    exact hk

end InStep

/-! ## §2. Specs whose models are indexed. -/

/-- The ways to the models of a spec agree. -/
structure ModelsIndexed (s : Spec) : Prop where
  /-- The numbers below the count are those of the models. -/
  numbers : ∀ n, (s.model? n).isSome = true ↔ n < s.count
  /-- The same numbers have files. -/
  files : ∀ n, (s.modelFile? n).isSome = true ↔ n < s.count
  /-- The models are listed with their numbers, as they stand with their files. -/
  declared : s.declaredModels = s.models.zipIdx.map fun e => (e.2, e.1.model)
  /-- No two numbers have models of one name. -/
  distinct : ∀ n k m m', s.model? n = some m → s.model? k = some m' → m.name = m'.name → n = k
  /-- A name leads to the number of the model with that name. -/
  named : ∀ name n, s.numberNamed? name = some n ↔ ∃ m, s.model? n = some m ∧ m.name = name
  /-- Under a name stands the declared model of that name. -/
  found : ∀ name m, s.modelNamed? name = some m ↔ ∃ n, s.model? n = some m ∧ m.name = name
  /-- The reference to a model resolves to it. -/
  resolved : ∀ n m file, s.model? n = some m → s.modelFile? n = some file →
    s.getModel (.toModel file m.name) = .ok m
  /-- No other reference leads to its number. -/
  only : ∀ n m file r, s.model? n = some m → s.modelFile? n = some file →
    (s.modelNumber r = .ok n ↔ r.reference = SchemaRef.place file m.name)
  /-- A reference that leads to a number resolves to the model with that number: none is out of range. -/
  agree : ∀ r n, s.modelNumber r = .ok n → ∃ m, s.model? n = some m ∧ s.getModel r = .ok m

/-- **Where tables are in step, names are distinct and files plain, the models are indexed.** -/
theorem InStep.modelsIndexed (hs : s.InStep) (hdistinct : s.NamesDistinct) (hplain : s.FilesPlain) :
    s.ModelsIndexed where
  numbers n := by
    unfold model? count
    rw [isSome_getElem?]
  files _ := hs.isSome_modelFile?
  declared := hs.declaredModels_eq
  distinct _ _ _ _ hn hk h := hdistinct.number_eq hn hk h
  named _ _ := hs.numberNamed?_eq_some hdistinct
  found _ _ := hs.modelNamed?_eq_some hdistinct
  resolved _ _ _ hm hfile := getModel_eq_ok.2 ⟨_, (hs.modelNumber_eq_ok hdistinct hplain hm hfile).2 rfl, hm⟩
  only _ _ _ _ hm hfile := hs.modelNumber_eq_ok hdistinct hplain hm hfile
  agree r n h := by
    obtain ⟨d, hd, -⟩ := hs.placed _ n (Spec.modelNumber_eq_ok.1 h)
    have hm : s.model? n = some d.model := (getElem?_models.1 hd).2
    exact ⟨d.model, hm, getModel_eq_ok.2 ⟨n, h, hm⟩⟩

/-! ## §3. Runs. -/

/-- The calls name files without number sign. -/
def CallsPlain (calls : List Change) : Prop := ∀ file m, .model file m ∈ calls → '#' ∉ file.toList

/-- The models that a run adds are those that its calls declare. -/
theorem call_of_mem_run {d : Declared} (hs : s.InStep) (hd : d ∈ (s.run calls).models) :
    d ∈ s.models ∨ .model d.file d.model ∈ calls := by
  rw [models_run hs, List.mem_append, Change.mem_declared] at hd
  exact hd.imp_right fun hmem => (accepted_sublist calls s).subset hmem

theorem filesPlain_run (hs : s.InStep) (hplain : s.FilesPlain) (hcalls : CallsPlain calls) :
    (s.run calls).FilesPlain := by
  intro d hd
  rcases call_of_mem_run hs hd with hmem | hmem
  · exact hplain d hmem
  · exact hcalls _ _ hmem

theorem filesPlain_empty (entryFile : String) : (empty entryFile).FilesPlain := by
  intro d hd
  exact absurd hd List.not_mem_nil

/-- A run keeps the models and files under the numbers that were given before. -/
theorem getElem?_models_run {d : Declared} (hs : s.InStep) (calls : List Change) (hn : s.models[n]? = some d) :
    (s.run calls).models[n]? = some d := by
  rw [models_run hs, List.getElem?_append_left (List.getElem?_eq_some_iff.1 hn).1]
  exact hn

/-- A run keeps what references lead to, and so what they resolve to. -/
theorem modelNumber_run (hs : s.InStep) (hdistinct : (s.run calls).NamesDistinct) (hplain : (s.run calls).FilesPlain)
    (h : s.modelNumber r = .ok n) :
    (s.run calls).modelNumber r = .ok n ∧ (s.run calls).getModel r = s.getModel r := by
  obtain ⟨d, hd, hplace⟩ := hs.placed _ n (modelNumber_eq_ok.1 h)
  obtain ⟨hfile, hm⟩ := getElem?_models.1 (getElem?_models_run hs calls hd)
  have hlater : (s.run calls).modelNumber r = .ok n :=
    ((hs.run calls).modelNumber_eq_ok hdistinct hplain hm hfile).2 hplace.symm
  have hbefore : s.getModel r = .ok d.model := getModel_eq_ok.2 ⟨n, h, (getElem?_models.1 hd).2⟩
  exact ⟨hlater, by rw [hbefore, getModel_eq_ok.2 ⟨n, hlater, hm⟩]⟩

/-- **The models at the end of every run can be found by number, by name and by reference.** They are those of the
accepted calls in their order; a reference that leads to a number keeps leading to it, and so to its model; and a call
to add a model fails just if an earlier call declares its name, in whatever file, and then changes nothing, but tells
the next number otherwise. -/
theorem modelsIndexed_of_run (entryFile : String) (calls : List Change) (hcalls : CallsPlain calls) :
    let s := (empty entryFile).run calls
    s.ModelsIndexed ∧
      s.models = ((empty entryFile).accepted calls).filterMap Change.declared? ∧
      (∀ more r n, CallsPlain more → s.modelNumber r = .ok n →
        (s.run more).modelNumber r = .ok n ∧ (s.run more).getModel r = s.getModel r) ∧
      ∀ file m,
        ((∃ e, s.addModel file m = .error e) ↔ ∃ other m', .model other m' ∈ calls ∧ m'.name = m.name) ∧
          ((∃ e, s.addModel file m = .error e) → s.after (.model file m) = s) ∧
          ∀ n t, s.addNumbered file m = .ok (n, t) →
            s.addModel file m = .ok t ∧ n = s.count ∧ t.model? n = some m ∧ t.modelFile? n = some file := by
  intro s
  have hempty : (empty entryFile).InStep := inStep_empty entryFile
  have hs : s.InStep := hempty.run calls
  have hplain : s.FilesPlain := filesPlain_run hempty (filesPlain_empty entryFile) hcalls
  have hdistinct : s.NamesDistinct := (made_run entryFile calls).namesDistinct
  refine ⟨hs.modelsIndexed hdistinct hplain, models_run hempty calls, ?_, ?_⟩
  · intro more r n hmore h
    -- numbers last because the longer run declares each name once as well
    have hlater : (s.run more).NamesDistinct := by
      have hmade := (made_run entryFile (calls ++ more)).namesDistinct
      rwa [run_append] at hmade
    exact modelNumber_run hs hlater (filesPlain_run hs hplain hmore) h
  · intro file m
    refine ⟨?_, ?_, ?_⟩
    · rw [addModel_eq_error hs, mem_names_run hempty]
      have hnone : m.name ∉ (empty entryFile).names := List.not_mem_nil
      simp [hnone]
    · rintro ⟨e, he⟩
      exact after_of_error (c := .model file m) he
    · intro n t h
      obtain ⟨-, rfl, rfl⟩ := addNumbered_ok h
      have hadd : s.addModel file m = .ok (s.withModel file m) := by
        unfold addModel
        rw [h]
        rfl
      have hcount : s.count = s.modelFiles.length := hs.files.symm
      refine ⟨hadd, rfl, model?_count_withModel, ?_⟩
      rw [hcount]
      exact List.getElem?_concat_length

/-! ## §4. A clinic. -/

namespace Clinic

def dog : Model := .generic ⟨"Dog", none, []⟩

def owner : Model := .generic ⟨"Owner", none, []⟩

/-- Two files declare dogs, and a reference comes before the model that it names. -/
def arrivals : List Change :=
  [.model "api.yaml" dog, .reference (.toModel "people.yaml" "Owner"), .model "people.yaml" dog,
    .model "people.yaml" owner]

theorem callsPlain : CallsPlain arrivals := by
  intro file m h
  have hfile : file = "api.yaml" ∨ file = "people.yaml" := by
    simp [arrivals] at h
    grind
  rcases hfile with rfl | rfl
  · decide
  · decide

end Clinic

/-- In the clinic the second dog is refused, so the owner has the second number. -/
theorem modelsIndexed_of_clinic :
    CallsPlain Clinic.arrivals ∧
      let s := (empty "api.yaml").run Clinic.arrivals
      s.names = ["Dog", "Owner"] ∧ s.modelNumber (.toModel "people.yaml" "Owner") = .ok 1 ∧ s.ModelsIndexed := by
  refine ⟨Clinic.callsPlain, by decide, by decide, ?_⟩
  exact (modelsIndexed_of_run "api.yaml" Clinic.arrivals Clinic.callsPlain).1

end OpenApi.Spec
