/-
  OpenApi.Build.Entry — reading whole documents.

  The entry document gives information, servers, models, operations and security schemes; a document that
  is only referenced gives its models, and everything else in it is passed over.
-/
import OpenApi.Build.Models
import OpenApi.Build.Operations
import OpenApi.Build.Options

namespace OpenApi.Build

/-! ## §1. Information and servers. -/

/-- Reads whom to ask. -/
def readContact (m : Mapping) : Building Contact := do
  let name := (← m.string "name").optional
  let email := (← m.string "email").optional
  let url := (← m.string "url").optional
  pure ⟨name, email, url⟩

/-- Reads what the API says about itself. -/
def readInfo (m : Mapping) : Building Info := do
  m.ignore ["license", "termsOfService", "summary"]
  let contact ←
    Building.optionally (fun m => some <$> readContact m) none (← m.mapping "contact").optional
  let title := (← m.string "title").optional
  let description := (← m.string "description").optional
  let version := (← m.string "version").optional
  pure ⟨title, description, version, contact⟩

/-- Reads what the API says about itself into the spec. -/
def declareInfo (m : Mapping) : Building Unit := do
  let info ← readInfo m
  Building.update fun spec => .ok { spec with info }

/-- Reads a server. -/
def readServer (m : Mapping) : Building Server := do
  m.ignore ["variables"]
  let url ← (← m.string "url").required
  let description := (← m.string "description").optional
  let name := (← m.string "name").optional
  pure ⟨url, description, name⟩

/-- Reads the servers. Where none is declared the API is served at an empty URL. -/
def readServers (root : Mapping) : Building (List Server) := do
  match (← root.sequence "servers").optional with
  | none => pure [⟨"", none, none⟩]
  | some servers =>
    match ← (← servers.mappings).mapM readServer with
    | [] => pure [⟨"", none, none⟩]
    | servers => pure servers

/-! ## §2. Documents. -/

/-- Reads the models among the components of a document. -/
def readComponentModels (components : Mapping) : Building Unit := do
  Building.optionally readModels () (← components.mapping "schemas").optional

/-- Reads the security schemes among the components of a document. -/
def readComponentSchemes (components : Mapping) : Building Unit := do
  Building.optionally readSchemes () (← components.mapping "securitySchemes").optional

/-- Reads the security requirements that hold for all operations. -/
def readCommonSecurity (root : Mapping) : Building (List SecurityRequirement) := do
  Building.optionally readRequirements [] (← root.sequence "security").optional

/-- Reads the entry document. -/
def readEntryDocument (options : Options) (root : Mapping) : Building Unit := do
  root.ignore ["openapi", "tags", "externalDocs"]
  Building.optionally declareInfo () (← root.mapping "info").optional
  let servers ← readServers root
  Building.update fun spec => .ok { spec with servers }
  let components := (← root.mapping "components").optional
  Building.optionally readComponentModels () components
  let security ← readCommonSecurity root
  Building.optionally (readPaths ⟨options.defaultTag, security⟩) () (← root.mapping "paths").optional
  Building.optionally readComponentSchemes () components

/-- Keys of the root that say nothing about models. -/
def foreignKeys : List String :=
  ["openapi", "info", "servers", "paths", "security", "tags", "externalDocs", "webhooks"]

/-- Reads a document that is only referenced. -/
def readForeignDocument (root : Mapping) : Building Unit := do
  root.ignore foreignKeys
  match (← root.mapping "components").optional with
  | none => pure ()
  | some components =>
    -- only schemas can be named from outside
    components.ignore (components.keys.filter fun key => key != "schemas")
    readComponentModels components

end OpenApi.Build
