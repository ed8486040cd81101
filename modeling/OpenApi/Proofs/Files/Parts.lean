/-
  OpenApi.Proofs.Files.Parts — the parts of references.

  A reference that is read is a path, the anchor and the name of a schema, and its file is resolved from the path
  (`of_parse`); every path that resolves makes a reference (`parse_eq`). Between documents that are named without dots
  the file is the target of the path (`file_of_parse`).
-/
import OpenApi.Proofs.Files.Resolving
import OpenApi.Proofs.Reference

namespace OpenApi.SchemaRef

open Text Url

variable {path name s : List Char}

theorem isPathChar_of_isReferenceChar {c : Char} (h : isReferenceChar c = true) (hc : c ≠ '#') :
    isPathChar c = true := by
  simp only [isReferenceChar, Bool.or_eq_true, List.contains_eq_mem, decide_eq_true_eq, List.mem_cons,
    List.not_mem_nil, or_false] at h
  simp only [isPathChar, isNameChar, Bool.or_eq_true, List.contains_eq_mem, decide_eq_true_eq, List.mem_cons,
    List.not_mem_nil, or_false]
  tauto

theorem isReferenceChar_of_isPathChar {c : Char} (h : isPathChar c = true) : isReferenceChar c = true := by
  simp only [isPathChar, isNameChar, Bool.or_eq_true, List.contains_eq_mem, decide_eq_true_eq, List.mem_cons,
    List.not_mem_nil, or_false] at h
  simp only [isReferenceChar, Bool.or_eq_true, List.contains_eq_mem, decide_eq_true_eq, List.mem_cons,
    List.not_mem_nil, or_false]
  tauto

/-- The name of a schema in a reference. -/
structure IsSchemaName (name : List Char) : Prop where
  text : IsName name
  ne_nil : name ≠ []

theorem nameAfterAnchor_append (hname : IsSchemaName name) :
    nameAfterAnchor (anchor.toList ++ name) = some name := by
  have hmarks : (name.any fun d => d = '/' || d = '#') = false := by
    refine List.any_eq_false.2 fun d hd => ?_
    have hslash : d ≠ '/' := fun heq => hname.text.slash_not_mem (heq ▸ hd)
    have hhash : d ≠ '#' := ne_of_isPathChar (hname.text.isPathText d hd) (by decide)
    simp [hslash, hhash]
  unfold nameAfterAnchor
  rw [afterHead_append]
  cases hcases : name with
  | nil => exact absurd hcases hname.ne_nil
  | cons c rest =>
    rw [hcases] at hmarks
    exact if_neg (by simp [hmarks])

theorem of_nameAfterAnchor (h : nameAfterAnchor s = some name) :
    s = anchor.toList ++ name ∧ name ≠ [] ∧ '/' ∉ name ∧ '#' ∉ name := by
  unfold nameAfterAnchor at h
  split at h
  next c rest hafter =>
    split at h
    next => exact absurd h nofun
    next hmarks =>
      rw [← Option.some.inj h]
      refine ⟨afterHead_eq_some hafter, List.cons_ne_nil _ _, fun hmem => hmarks ?_, fun hmem => hmarks ?_⟩
      · exact List.any_eq_true.2 ⟨'/', hmem, by decide⟩
      · exact List.any_eq_true.2 ⟨'#', hmem, by decide⟩
  next => exact absurd h nofun

/-- Characters of references that are neither slashes nor number signs make a name. -/
theorem isSchemaName (hchars : ∀ c ∈ name, isReferenceChar c = true) (hne : name ≠ []) (hslash : '/' ∉ name)
    (hmark : '#' ∉ name) : IsSchemaName name := by
  refine ⟨fun c hc => ?_, hne⟩
  have hc' : isPathChar c = true := isPathChar_of_isReferenceChar (hchars c hc) fun heq => hmark (heq ▸ hc)
  have hslash' : c ≠ '/' := fun heq => hslash (heq ▸ hc)
  simpa [isPathChar, hslash'] using hc'

/-- A reference that is read has a path, the anchor and a name, and its file is resolved from the path. -/
theorem of_parse {raw declaredIn : String} {r : SchemaRef} (h : parse raw declaredIn = .ok r) :
    ∃ path file name, raw.toList = path ++ anchor.toList ++ name ∧ IsPathText path ∧ IsSchemaName name ∧
      (if path.isEmpty then some declaredIn.toList else resolveFile path declaredIn.toList) = some file ∧
      r.reference = place (String.ofList file) (String.ofList name) := by
  unfold parse at h
  dsimp only at h
  split at h
  next => exact absurd h nofun
  next hchars =>
    have hall : ∀ c ∈ raw.toList, isReferenceChar c = true := by
      have hall : raw.toList.all isReferenceChar = true := by simp at hchars; simpa using hchars.2
      exact List.all_eq_true.1 hall
    split at h
    next => exact absurd h nofun
    -- the cut at the first mark leaves a path without one, so the path holds path characters only
    next path rest hcut =>
      obtain ⟨hraw, hpath⟩ := splitFirst_eq_some hcut
      have htext : IsPathText path := fun c hc =>
        isPathChar_of_isReferenceChar (hall c (hraw ▸ List.mem_append_left _ hc)) fun heq => hpath (heq ▸ hc)
      split at h
      next => exact absurd h nofun
      next file hfile =>
        split at h
        next => exact absurd h nofun
        next name hname =>
          obtain ⟨hrest, hne, hslash, hmark⟩ := of_nameAfterAnchor hname
          have hparts : raw.toList = path ++ anchor.toList ++ name := by rw [hraw, hrest, List.append_assoc]
          refine ⟨path, file, name, hparts, htext, isSchemaName ?_ hne hslash hmark, hfile, ?_⟩
          · exact fun c hc => hall c (hparts ▸ List.mem_append_right _ hc)
          · rw [← Except.ok.inj h]

/-- All characters of a path, the anchor and a name may stand in references. -/
theorem isReferenceChar_of_mem (hpath : IsPathText path) (hname : IsName name) :
    ∀ c ∈ path ++ anchor.toList ++ name, isReferenceChar c = true := by
  intro c hc
  rcases List.mem_append.1 hc with hc | hc
  · rcases List.mem_append.1 hc with hc | hc
    · exact isReferenceChar_of_isPathChar (hpath c hc)
    · have hall : anchor.toList.all isReferenceChar = true := by decide
      exact List.all_eq_true.1 hall c hc
  · exact isReferenceChar_of_isPathChar (hname.isPathText c hc)

/-- What is read of a path, the anchor and a name. -/
theorem parse_eq {declaredIn : String} {file : List Char} (hpath : IsPathText path) (hname : IsSchemaName name)
    (hfile : (if path.isEmpty then some declaredIn.toList else resolveFile path declaredIn.toList) = some file) :
    parse (String.ofList (path ++ anchor.toList ++ name)) declaredIn =
      .ok ⟨place (String.ofList file) (String.ofList name), String.ofList (path ++ anchor.toList ++ name),
        declaredIn⟩ := by
  have hanchor : anchor.toList = '#' :: "/components/schemas/".toList := by decide
  have hchars : (path ++ anchor.toList ++ name).all isReferenceChar = true :=
    List.all_eq_true.2 (isReferenceChar_of_mem hpath hname.text)
  have hempty : (path ++ anchor.toList ++ name).isEmpty = false := by simp [hanchor]
  have hcut : splitFirst '#' (path ++ anchor.toList ++ name) =
      some (path, "/components/schemas/".toList ++ name) := by
    rw [hanchor, List.append_assoc, List.cons_append]
    exact splitFirst_append (hpath.not_mem (by decide)) _
  have hrest : '#' :: ("/components/schemas/".toList ++ name) = anchor.toList ++ name := by
    rw [hanchor, List.cons_append]
  -- each check of the parser is one of the facts above
  unfold parse
  rw [String.toList_ofList]
  dsimp only
  rw [hchars, hempty]
  simp only [hcut, hfile, hrest, nameAfterAnchor_append hname]
  rfl

/-- The file of a reference that is read is its target. -/
theorem file_of_parse {raw declaredIn : String} {r : SchemaRef} (hdoc : IsDocumentName declaredIn.toList)
    (h : parse raw declaredIn = .ok r) :
    ∃ path name, raw.toList = path ++ anchor.toList ++ name ∧ IsPathText path ∧
      r.file.toList = joinWith ['/'] (target declaredIn.toList path) ∧ r.file.toList ≠ [] := by
  obtain ⟨path, file, name, hraw, hpath, -, hfile, hreference⟩ := of_parse h
  have htarget : file = joinWith ['/'] (target declaredIn.toList path) ∧ file ≠ [] := by
    cases path with
    | nil =>
      have hdocument : file = declaredIn.toList := (Option.some.inj hfile).symm
      refine ⟨?_, hdocument ▸ hdoc.ne_nil⟩
      rw [hdocument]
      exact (joinWith_pieces '/' _).symm
    | cons c rest => exact file_of_resolveFile hdoc hpath (List.cons_ne_nil _ _) hfile
  have hmark : '#' ∉ file := htarget.1 ▸ mark_not_mem_target hdoc hpath
  have hr : r.file.toList = file := by
    rw [file_eq hreference (by rwa [String.toList_ofList]), String.toList_ofList]
  exact ⟨path, name, hraw, hpath, hr ▸ htarget.1, hr ▸ htarget.2⟩

end OpenApi.SchemaRef
