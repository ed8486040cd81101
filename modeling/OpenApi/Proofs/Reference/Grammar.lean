/-
  OpenApi.Proofs.Reference.Grammar — the texts that are references, and their parts.

  A reference is a path, the anchor and a name (`Written`). It is read by cutting it at its first number sign; its
  parts are told by cutting the place that it names once more, at the first number sign and at the last slash. Both
  agree: neither the file nor the name holds the character that the place is cut at. Main statement:
  `parsed_of_written`.
-/
import OpenApi.Proofs.Files.Parts
import OpenApi.Proofs.Spec.Runs
import OpenApi.Proofs.Spec.Stored
import OpenApi.Proofs.Url.Marks

namespace OpenApi.SchemaRef

open Text Url

variable {raw declaredIn file name : String} {path : List Char} {r : SchemaRef}

/-! ## §1. Texts of references. -/

/-- The text is a reference in a document: a path, then the anchor and a name. -/
structure Written (raw declaredIn : String) (path : List Char) (file name : String) : Prop where
  text : raw.toList = path ++ anchor.toList ++ name.toList
  chars : ∀ c ∈ raw.toList, isReferenceChar c = true
  /-- The path ends at the first number sign. -/
  plain : '#' ∉ path
  /-- Without a path the file is the document itself. -/
  file : if path = [] then file = declaredIn else resolveFile path declaredIn.toList = some file.toList
  named : name ≠ "" ∧ '/' ∉ name.toList ∧ '#' ∉ name.toList

theorem Written.isPathText (h : Written raw declaredIn path file name) : IsPathText path := fun c hc =>
  isPathChar_of_isReferenceChar (h.chars c (by simp [h.text, hc])) fun heq => h.plain (heq ▸ hc)

theorem Written.isSchemaName (h : Written raw declaredIn path file name) : IsSchemaName name.toList := by
  obtain ⟨hne, hslash, hmark⟩ := h.named
  refine SchemaRef.isSchemaName (fun c hc => h.chars c (by simp [h.text, hc])) ?_ hslash hmark
  rwa [ne_eq, String.toList_eq_nil_iff]

theorem Written.resolved (h : Written raw declaredIn path file name) :
    (if path.isEmpty then some declaredIn.toList else resolveFile path declaredIn.toList) = some file.toList := by
  have hfile := h.file
  cases path with
  | nil => rw [if_pos rfl] at hfile; rw [hfile]; rfl
  | cons c path => exact hfile

/-- What is written is read. -/
theorem Written.parse (h : Written raw declaredIn path file name) :
    parse raw declaredIn = .ok ⟨place file name, raw, declaredIn⟩ := by
  have hread := parse_eq h.isPathText h.isSchemaName h.resolved
  simpa [← h.text] using hread

/-- What is read was written. -/
theorem written_of_parse (h : SchemaRef.parse raw declaredIn = .ok r) :
    ∃ path file name, Written raw declaredIn path file name := by
  obtain ⟨path, file, name, htext, hpath, hname, hfile, -⟩ := of_parse h
  have hslash : '/' ∉ name := hname.text.slash_not_mem
  have hmark : '#' ∉ name := hname.text.isPathText.not_mem (by decide)
  refine ⟨path, .ofList file, .ofList name, ?_, htext ▸ isReferenceChar_of_mem hpath hname.text,
    hpath.not_mem (by decide), ?_, ?_, ?_⟩
  · rw [htext, String.toList_ofList]
  · cases path with
    | nil => rw [if_pos rfl, ← Option.some.inj hfile, String.ofList_toList]
    | cons c path => rw [if_neg (List.cons_ne_nil _ _), String.toList_ofList]; exact hfile
  · rw [ne_eq, ← String.toList_eq_nil_iff, String.toList_ofList]
    exact hname.ne_nil
  · rw [String.toList_ofList]
    exact ⟨hslash, hmark⟩

/-! ## §2. Files. -/

theorem markFree_root : root.MarkFree where
  scheme := by decide
  authority := by
    rintro a ⟨⟩
    exact ⟨List.not_mem_nil, List.not_mem_nil, by decide⟩
  path := by
    intro s hs
    rw [List.mem_singleton.1 hs]
    exact List.not_mem_nil
  query := fun _ hq => absurd hq nofun

/-- A file that is resolved holds no number sign. -/
theorem mark_not_mem_of_resolveFile {path declaredIn file : List Char} (hpath : '#' ∉ path)
    (h : resolveFile path declaredIn = some file) : '#' ∉ file := by
  unfold resolveFile at h
  split at h
  next => exact absurd h nofun
  next base hbase =>
    split at h
    next => exact absurd h nofun
    next url hurl =>
      -- The file is what follows the root in the text of the joined address, and that has no fragment.
      have htext : '#' ∉ url.text := mark_not_mem_text_of_join (markFree_root.join hbase) hpath hurl
      have hafter : afterHead root.text url.text = some file := (fileIn_eq_some h).1
      rw [afterHead_eq_some hafter] at htext
      exact fun hmem => htext (List.mem_append_right _ hmem)

theorem Written.mark_not_mem_file (h : Written raw declaredIn path file name) (hdeclared : '#' ∉ declaredIn.toList) :
    '#' ∉ file.toList := by
  have hfile := h.file
  split at hfile
  next => rwa [hfile]
  next => exact mark_not_mem_of_resolveFile h.plain hfile

/-! ## §3. Parts. -/

/-- A place in a file without number sign resolves just if a model of the name is declared in the file. -/
theorem resolves_iff_declared {s : Spec} (hs : s.InStep) (hplain : s.FilesPlain) (hr : r.reference = place file name)
    (hfile : '#' ∉ file.toList) : s.Resolves r ↔ ∃ d ∈ s.models, d.file = file ∧ d.model.name = name := by
  have hplace : ∀ d ∈ s.models, place d.file d.model.name = r.reference → d.file = file ∧ d.model.name = name :=
    fun d hd heq => place_inj (hplain d hd) hfile (heq.trans hr)
  unfold Spec.Resolves
  constructor
  · rintro ⟨m, hm⟩
    rw [hs.getModel_eq] at hm
    cases hd : s.declared? r.reference with
    | none =>
      rw [hd] at hm
      exact absurd hm nofun
    | some d =>
      obtain ⟨hmem, hat⟩ := hs.place_of_declared? hd
      exact ⟨d, hmem, hplace d hmem hat⟩
  · rintro ⟨d, hd, rfl, rfl⟩
    rw [hs.getModel_eq]
    cases hfound : s.declared? r.reference with
    | none => exact absurd hr.symm (hs.declared?_eq_none.1 hfound d hd)
    | some e => exact ⟨e.model, rfl⟩

/-- **References are read as they are written.** A text is read just if it is a path, the anchor and a name; and then
the parts of what is read are the name and the file of the path, the place that they make is the one that was read, and
in files without number sign it resolves just if a model of that name is declared in that file. The tables of the spec
must be in step, as those of every spec that is made by calls are (`Spec.Made.inStep`). -/
theorem parsed_of_written (hdeclared : '#' ∉ declaredIn.toList) (raw : String) :
    ((∃ r, SchemaRef.parse raw declaredIn = .ok r) ↔ ∃ path file name, Written raw declaredIn path file name) ∧
      ∀ r path file name, SchemaRef.parse raw declaredIn = .ok r → Written raw declaredIn path file name →
        r.className = name ∧ r.file = file ∧ (toModel r.file r.className).same r = true ∧
          ∀ s : Spec, s.InStep → s.FilesPlain → (s.Resolves r ↔ ∃ d ∈ s.models, d.file = file ∧ d.model.name = name) := by
  refine ⟨⟨fun ⟨r, hr⟩ => written_of_parse hr, fun ⟨path, file, name, h⟩ => ⟨_, h.parse⟩⟩, ?_⟩
  intro r path file name hr h
  -- Neither part holds what the place is cut at: the file no number sign, the name no slash.
  have hreference : r.reference = place file name := by rw [← Except.ok.inj (h.parse.symm.trans hr)]
  have hplain : '#' ∉ file.toList := h.mark_not_mem_file hdeclared
  have hname : r.className = name := (className_eq_iff hreference).2 h.named.2.1
  have hfile : r.file = file := file_eq hreference hplain
  have hsame : (toModel r.file r.className).same r = true := by
    rw [hname, hfile]
    exact decide_eq_true hreference.symm
  exact ⟨hname, hfile, hsame, fun s hs hfiles => resolves_iff_declared hs hfiles hreference hplain⟩

/-- A reference out of a directory and into the next is read, and resolves where its file declares a pet. -/
theorem parsed_of_written_of_pet :
    '#' ∉ "specs/api.yaml".toList ∧
      ∃ r, SchemaRef.parse "../common/./pet.yaml#/components/schemas/Pet" "specs/api.yaml" = .ok r ∧
        r.className = "Pet" ∧ r.file = "common/pet.yaml" ∧
          let s : Spec := .ofModels "specs/api.yaml" [⟨"common/pet.yaml", .generic ⟨"Pet", none, []⟩⟩]
          s.InStep ∧ s.FilesPlain ∧ s.Resolves r := by
  have hdeclared : '#' ∉ "specs/api.yaml".toList := by decide
  -- the path climbs out of `specs` and steps over a single dot
  have hwritten : Written "../common/./pet.yaml#/components/schemas/Pet" "specs/api.yaml"
      "../common/./pet.yaml".toList "common/pet.yaml" "Pet" :=
    ⟨by decide, List.all_eq_true.1 (by decide), by decide, by decide +kernel, by decide⟩
  obtain ⟨hread, hparts⟩ := parsed_of_written hdeclared "../common/./pet.yaml#/components/schemas/Pet"
  obtain ⟨r, hr⟩ := hread.2 ⟨_, _, _, hwritten⟩
  obtain ⟨hname, hfile, -, hresolves⟩ := hparts _ _ _ _ hr hwritten
  refine ⟨hdeclared, r, hr, hname, hfile, ?_⟩
  let s : Spec := .ofModels "specs/api.yaml" [⟨"common/pet.yaml", .generic ⟨"Pet", none, []⟩⟩]
  have hmodels : s.models = [⟨"common/pet.yaml", .generic ⟨"Pet", none, []⟩⟩] := rfl
  have hstep : s.InStep := (Spec.made_ofModels _ _).inStep
  have hplain : s.FilesPlain := by
    intro d hd
    rw [hmodels] at hd
    rw [List.mem_singleton.1 hd]
    decide
  exact ⟨hstep, hplain, (hresolves s hstep hplain).2 ⟨_, hmodels ▸ List.mem_cons_self, rfl, rfl⟩⟩

end OpenApi.SchemaRef
