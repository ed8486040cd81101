/-
  OpenApi.Build.Security — reading security schemes and requirements.
-/
import OpenApi.Build.Session

namespace OpenApi.Build

/-- Reads one entry of a list of requirements: each of its keys is a scheme, with scopes. -/
def readEntry (m : Mapping) : Building (List SecurityRequirement) :=
  m.keys.mapM fun scheme => do
    let scopes ← (← (← m.sequence scheme).required).texts
    pure ⟨scheme, scopes⟩

/-- Reads a list of requirements. An empty entry makes authentication optional and adds nothing. -/
def readRequirements (security : Sequence) : Building (List SecurityRequirement) := do
  let entries ← (← security.mappings).mapM readEntry
  pure entries.flatten

/-- Reads a security scheme. -/
def readScheme (key : String) (m : Mapping) : Building SecurityScheme := do
  m.ignore ["description", "flows", "openIdConnectUrl"]
  let schemeType ← (← m.string "type").required
  let name := (← m.string "name").optional
  let location := (← m.oneOf ParameterLocation "in").optional
  let scheme := (← m.string "scheme").optional
  let bearerFormat := (← m.string "bearerFormat").optional
  pure ⟨key, schemeType, name, location, scheme, bearerFormat⟩

/-- Reads a security scheme into the spec. -/
def declareScheme (key : String) (m : Mapping) : Building Unit := do
  let scheme ← readScheme key m
  Building.report (.builtSecurityScheme key scheme.schemeType)
  Building.update fun spec => .ok (spec.addSecurityScheme scheme)

/-- Reads all security schemes into the spec. -/
def readSchemes (schemes : Mapping) : Building Unit := do
  (← schemes.mappingEntries).forM fun entry => declareScheme entry.1 entry.2

end OpenApi.Build
