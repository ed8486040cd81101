/-
  OpenApi.Build.Basic — from documents to a spec.

  A build reads the entry document and then, round by round, every document that references name and that
  was not read yet. A document that cannot be read leaves its references unresolved. At the end come the
  checks that the options ask for.
-/
import OpenApi.Build.Entry
import OpenApi.Loader.Basic
import OpenApi.Spec.Composition

namespace OpenApi.Build

/-! ## §1. Loading. -/

/-- Loads a document and reports what happened on the way. -/
def load (loader : Loader) (name : String) : Building Document := do
  let (events, result) := loader.load name
  events.forM Building.report
  result

/-- Reads a document from its root, with marks of its own, and gives these marks. -/
def readWith (read : Mapping → Building Unit) (d : Document) : Building Usage :=
  ExceptT.mk fun session =>
    let step : Building Unit := do
      let root ← d.mapping
      read root
    -- each document has marks of its own, so those of the one before are put away
    let (result, session) := step.run.run { session with usage := .none }
    (result.map fun _ => session.usage, session)

/-- What a build has looked at so far. -/
structure Visited where
  /-- The names under which documents were looked for or known. -/
  names : List String
  /-- The documents that were read, in this order, with the marks on their keys. -/
  documents : List (Document × Usage)

/-- Notes a document that was read after it was asked for by a name. -/
def Visited.add (v : Visited) (name : String) (d : Document) (u : Usage) : Visited :=
  ⟨d.filename :: name :: v.names, v.documents ++ [(d, u)]⟩

/-- Notes a name that leads to no document. -/
def Visited.skip (v : Visited) (name : String) : Visited := { v with names := name :: v.names }

/-! ## §2. Referenced documents. -/

/-- Reads a document that references name. -/
def readReferenced (loader : Loader) (v : Visited) (file : String) : Building Visited := do
  let (events, result) := loader.load file
  events.forM Building.report
  match result with
  | .error e =>
    -- no error yet: only the check of references asks for its models
    if e.errorClass = .io then
      Building.report (.unreadableDocument file e.message)
      pure (v.skip file)
    else throw e
  | .ok d =>
    Building.report (.loadingReferenced file)
    let usage ← readWith readForeignDocument d
    pure (v.add file d usage)

/-- The files that references name and that were not looked at yet. -/
def pending (v : Visited) (spec : Spec) : List String :=
  spec.referencedFiles.filter fun file => !v.names.contains file

/-- Reads the pending documents, and those that they name in turn. A round that leads to another one
reads a document with a new model, so there are at most as many rounds as documents. -/
def readPending (loader : Loader) : (rounds : Nat) → Visited → Building Visited
  | 0, v => pure v
  | rounds + 1, v => do
    match pending v (← Building.spec) with
    | [] => pure v
    | files =>
      let v ← files.foldlM (readReferenced loader) v
      readPending loader rounds v

/-! ## §3. Checks. -/

/-- The checks that the options ask for. -/
def check (options : Options) (v : Visited) (spec : Spec) : Except Error Unit := do
  if options.validateReferences then
    spec.validateReferences
    spec.checkCompositions
  if options.strict then
    v.documents.forM fun entry => entry.1.checkUnused entry.2

/-! ## §4. Builds. -/

/-- Reads the entry document that has a name, and all documents that references lead to from there. -/
def readAll (loader : Loader) (options : Options) (entry : String) : Building Visited := do
  let d ← load loader entry
  Building.update fun _ => .ok (.empty d.filename)
  let usage ← readWith (readEntryDocument options) d
  readPending loader (loader.size + 2) ⟨[d.filename, entry], [(d, usage)]⟩

/-- Builds the spec whose entry document has a name. -/
def buildSpec (loader : Loader) (options : Options) (entry : String) : Building Spec := do
  let v ← readAll loader options entry
  let spec ← Building.spec
  check options v spec
  Building.report
    (.builtSpec spec.entryFile v.documents.length spec.count spec.operations.length)
  pure spec

/-- Builds a spec and tells what happened. -/
def build (loader : Loader) (options : Options) (entry : String) :
    List Event × Except Error Spec :=
  let (result, session) := (buildSpec loader options entry).run.run ⟨.none, .empty entry, []⟩
  (session.events, result)

/-- Builds the spec of a text. -/
def ofText (options : Options) (text filename : String) : List Event × Except Error Spec :=
  build (.ofTexts [(filename, text)]) options filename

/-- Builds the spec of a file and the documents it references. -/
def ofFile (files : Disk) (options : Options) (path : String) : List Event × Except Error Spec :=
  let (loader, filename) := Loader.ofFile files path
  build loader options filename

end OpenApi.Build
