/-
  OpenApi.Proofs.Operations.Parameters — the parameters that an operation ends up with.

  An operation has the parameters of its path item, each overridden by its own of the same name and place. An own
  parameter replaces the first one only, so a pair that the path item repeats stays repeated, and its later
  declarations are not overridden (`repeated_of_build`). Main statement: `parameters_of_readPaths`.
-/
import OpenApi.Proofs.Build.Additions
import OpenApi.Proofs.Build.Validation
import OpenApi.Proofs.Keyed

namespace OpenApi

namespace Build

open Building (Gives Steady)

/-! ## §1. Overriding. -/

/-- Parameters of a path item overridden by those of an operation: how names and places follow each other, and what
stands under each. They are distinct just if those of the path item are. -/
structure Overridden (common own parameters : List Parameter) : Prop where
  /-- What the path item declares keeps its position, what else the operation declares follows in the order in which
  it first comes. -/
  keys : parameters.map parameterKey = common.map parameterKey ++
    ((own.map parameterKey).filter fun k => k ∉ common.map parameterKey).eraseDups
  /-- The first parameter of a name and place is the last one that the operation declares, or else that of the path
  item. -/
  found : ∀ k, Keyed.find? parameterKey k parameters =
    (Keyed.find? parameterKey k own.reverse).or (Keyed.find? parameterKey k common)
  /-- What the path item declares again stays as it is. -/
  repeated : ∀ (i : Nat) (p : Parameter), common[i]? = some p →
    parameterKey p ∈ (common.take i).map parameterKey → parameters[i]? = some p
  distinct : (parameters.map parameterKey).Nodup ↔ (common.map parameterKey).Nodup

theorem overridden_putAll (common own : List Parameter) :
    Overridden common own (Keyed.putAll parameterKey common own) where
  keys := by convert (Keyed.map_putAll own : _ = common.map parameterKey ++ _)
  found _ := Keyed.find?_putAll
  repeated _ _ hp hrepeats := Keyed.getElem?_putAll hp hrepeats own
  distinct := Keyed.nodup_putAll_iff own

/-- An operation has its place in the document, and the parameters of its item overridden by its own. -/
theorem readOperation_overridden (defaults : Defaults) (path : String) (common : List Parameter) (method : HttpMethod)
    (m : Mapping) : (readOperation defaults path common method m).Gives fun o => o.path = path ∧ o.method = method ∧
      ∃ own, (readParameters (some (Text.pascalCase o.operationId)) m).outcome = .ok own ∧
        Overridden common own o.parameters := by
  unfold readOperation
  refine .after fun _ => .after fun _ => .after fun _ => .after fun _ => .after fun tags => ?_
  refine Gives.bind (Steady.gives (readParameters_steady _ m)) fun own houtcome => ?_
  refine .after fun _ => .after fun bodies => .after fun _ => .after fun responses => .after fun _ => .after fun _ => ?_
  exact .pure ⟨rfl, rfl, own, houtcome, overridden_putAll common own⟩

/-! ## §2. Paths. -/

/-- **The parameters of operations.** When paths are read, each operation that is added stands in them under its path
and method, and has the parameters of its path item overridden by its own. So no two of them share name and place
just if no two of the path item do. -/
theorem parameters_of_readPaths {defaults : Defaults} {paths : Mapping} {session after : Session}
    (h : (readPaths defaults paths).run.run session = (.ok (), after)) :
    ∀ o ∈ after.spec.operations, o ∈ session.spec.operations ∨
      ∃ common m own, StandsIn paths o.path common o.method m ∧
        (readParameters (some (Text.pascalCase o.operationId)) m).outcome = .ok own ∧
        Overridden common own o.parameters := by
  -- only the reader of one operation adds an operation, so the fact is shown there and carried up the loops
  have hadded : (readPaths defaults paths).Makes fun c => ∀ o, c.operation? = some o →
      ∃ common m own, StandsIn paths o.path common o.method m ∧
        (readParameters (some (Text.pascalCase o.operationId)) m).outcome = .ok own ∧
        Overridden common own o.parameters := by
    refine readPaths_makes (fun path common method m s o t hstands hrun o' ho' => ?_) fun c hmodels o ho => ?_
    · obtain rfl : o = o' := Option.some.inj ho'
      obtain ⟨rfl, rfl, own, hown, hover⟩ := readOperation_overridden defaults path common method m s o t hrun
      exact ⟨common, m, own, hstands, hown, hover⟩
    · exact absurd (hmodels.operation.symm.trans ho) nofun
  obtain ⟨changes, happly, hchanges⟩ := hadded session () after h
  intro o ho
  rw [Spec.applyAll_operations happly] at ho
  rcases List.mem_append.1 ho with hold | hnew
  · exact .inl hold
  · obtain ⟨c, hc, hadds⟩ := List.mem_filterMap.1 hnew
    exact .inr (hchanges c hc o hadds)

/-! ## §3. A repeated parameter. -/

namespace Overriding

open Listing (members)

/-- A parameter of a primitive type. -/
def parameter (name place type : String) : Node :=
  members [("name", .string name), ("in", .string place), ("required", .bool true),
    ("schema", members [("type", .string type)])]

/-- Paths with one operation, with parameters of its item and of its own. -/
def paths (common own : List Node) : Node :=
  members [("/pets", members [("parameters", .sequence common), ("get", members [("parameters", .sequence own)])])]

/-- The document with these paths. -/
def document (common own : List Node) : Document where
  source := ⟨"", "api.yaml"⟩
  format := .yaml
  root := members [("paths", paths common own)]

/-- What tells the parameters of an operation apart, with the types of those that are primitive. -/
def types (o : Operation) : List ((String × ParameterLocation) × Option String) :=
  o.parameters.map fun p => (parameterKey p, p.schema.primitive?.map Primitive.typeName)

theorem keys_of_types (o : Operation) : (types o).map Prod.fst = o.parameters.map parameterKey := by
  simp [types]

/-- Parameters with distinct names. -/
def plain : List Node := [parameter "id" "path" "string", parameter "limit" "query" "integer"]

/-- Own parameters, one of which is declared twice. -/
def twice : List Node :=
  [parameter "sort" "query" "string", parameter "limit" "query" "string", parameter "limit" "query" "boolean"]

end Overriding

open Overriding in
/-- The last own `limit` stands in the place of the `limit` of the path item. -/
theorem parameters_of_plain :
    ∃ after, (readPaths ⟨"default", []⟩ ⟨document plain twice, paths plain twice, ["paths"]⟩).run.run
        ⟨.none, .empty "api.yaml", []⟩ = (.ok (), after) ∧
      ∃ o ∈ after.spec.operations, types o =
          [(("id", .path), some "string"), (("limit", .query), some "boolean"), (("sort", .query), some "string")] ∧
        ∃ common own, Overridden common own o.parameters ∧ (common.map parameterKey).Nodup := by
  obtain ⟨after, hrun, htypes⟩ := Building.exists_of_run
    (readPaths ⟨"default", []⟩ ⟨document plain twice, paths plain twice, ["paths"]⟩) ⟨.none, .empty "api.yaml", []⟩
    (fun after => after.spec.operations.map types)
    (by decide +kernel : _ = some ())
    (by decide +kernel : _ =
      [[(("id", .path), some "string"), (("limit", .query), some "boolean"), (("sort", .query), some "string")]])
  obtain ⟨o, ho, htypes⟩ := List.map_eq_singleton_iff.1 htypes
  rcases parameters_of_readPaths hrun o (ho ▸ List.mem_singleton_self o) with hold | ⟨common, m, own, -, -, hover⟩
  · exact absurd hold List.not_mem_nil
  · refine ⟨after, hrun, o, ho ▸ List.mem_singleton_self o, htypes, common, own, hover, hover.distinct.1 ?_⟩
    rw [← keys_of_types, htypes]
    decide

open Overriding in
/-- A path item declares `limit` twice, and an operation overrides it: the second declaration of the item stays. -/
theorem repeated_of_build :
    ∃ s, (build (.memory [("api.yaml", .ok (document
        [parameter "limit" "query" "integer", parameter "limit" "query" "string"]
        [parameter "limit" "query" "boolean"]))]) {} "api.yaml").2 = .ok s ∧
      ∃ o ∈ s.operations, types o = [(("limit", .query), some "boolean"), (("limit", .query), some "string")] ∧
        ¬ (o.parameters.map parameterKey).Nodup := by
  obtain ⟨s, hbuild, htypes⟩ := Outcome.exists_of_map (show ((build (.memory [("api.yaml", .ok (document
      [parameter "limit" "query" "integer", parameter "limit" "query" "string"]
      [parameter "limit" "query" "boolean"]))]) {} "api.yaml").2.map fun s => s.operations.map types).toOption =
    some [[(("limit", .query), some "boolean"), (("limit", .query), some "string")]] by decide +kernel)
  obtain ⟨o, ho, htypes⟩ := List.map_eq_singleton_iff.1 htypes
  refine ⟨s, hbuild, o, ho ▸ List.mem_singleton_self o, htypes, ?_⟩
  rw [← keys_of_types, htypes]
  decide

end Build

end OpenApi
