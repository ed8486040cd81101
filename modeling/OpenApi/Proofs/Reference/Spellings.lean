/-
  OpenApi.Proofs.Reference.Spellings — different spellings of one target.

  Between documents that are named without dots, a path is normalized as a mere list of names: a single dot is left
  out, and two dots take the name before them away (`normal?`). Where that never leads above the root, the file of a
  reference is the normalized path, so references are the same just if their normalized paths and their names are.
  Main statement: `normalizedOf`.
-/
import OpenApi.Proofs.Files.Parts

namespace OpenApi.SchemaRef

open Text Url

variable {raw declaredIn name : String} {front segments target : List (List Char)} {path : List Char} {r : SchemaRef}

/-! ## §1. Normalized paths. -/

/-- The path is made of names, of which the last leads to a file. -/
structure IsFilePath (path : List Char) : Prop where
  text : IsPathText path
  nonempty : ∀ p ∈ names path, p ≠ []
  last : ∀ p, (names path).getLast? = some p → isDots p = false

/-- Names that are left are among those that were there. -/
theorem forall_normal {P : List Char → Prop} (hfront : ∀ p ∈ front, P p) (hsegments : ∀ p ∈ segments, P p)
    (h : normal? front segments = some target) : ∀ p ∈ target, P p := by
  induction segments generalizing front with
  | nil => rwa [← Option.some.inj h]
  | cons p rest ih =>
    obtain ⟨hp, hrest⟩ := List.forall_mem_cons.1 hsegments
    unfold normal? at h
    split at h
    next => exact ih hfront hrest h
    next =>
      split at h
      next =>
        split at h
        next => cases h
        next => exact ih (fun q hq => hfront q (List.dropLast_subset _ hq)) hrest h
      next => exact ih (List.forall_mem_append.2 ⟨hfront, List.forall_mem_singleton.2 hp⟩) hrest h

/-- Names without dots lead on as they are. -/
theorem normal_append (hsegments : ∀ p ∈ segments, isDots p = false) (rest : List (List Char)) :
    normal? front (segments ++ rest) = normal? (front ++ segments) rest := by
  induction segments generalizing front with
  | nil => rw [List.append_nil, List.nil_append]
  | cons p segments ih =>
    obtain ⟨hp, hmore⟩ := List.forall_mem_cons.1 hsegments
    rw [List.cons_append, normal_name hp, ih hmore, List.append_assoc, List.singleton_append]

/-- A path to a file is normalized by walking along it, unless it leads above the root. -/
theorem walk_of_normal (hlast : ∀ p, segments.getLast? = some p → isDots p = false)
    (h : normal? front segments = some target) : walk front segments = target := by
  -- A walk leaves dots at the end of a path standing as an empty name, and two dots at the root without effect; the
  -- hypotheses exclude just these.
  induction segments generalizing front with
  | nil => exact Option.some.inj h
  | cons p rest ih =>
    cases rest with
    | nil =>
      have hdots : isDots p = false := hlast p rfl
      rw [normal_name hdots] at h
      unfold walk
      rw [hdots, if_neg Bool.false_ne_true]
      exact Option.some.inj h
    | cons q rest =>
      have hrest : ∀ p, (q :: rest).getLast? = some p → isDots p = false :=
        fun p hp => hlast p (List.getLast?_cons_cons.trans hp)
      show walk (step front p) (q :: rest) = target
      by_cases hdots : isDots p = true
      · unfold normal? at h
        unfold step
        rcases Bool.or_eq_true_iff.1 hdots with hdot | hup
        · obtain rfl : p = ['.'] := of_decide_eq_true hdot
          rw [if_pos rfl] at h
          exact ih hrest h
        · obtain rfl : p = ['.', '.'] := of_decide_eq_true hup
          rw [if_neg (by decide), if_pos rfl] at h
          split at h
          next => exact absurd h (Option.some_ne_none target).symm
          next => exact ih hrest h
      · have hplain : isDots p = false := Bool.eq_false_iff.2 hdots
        obtain ⟨hdot, hup⟩ := Bool.or_eq_false_iff.1 hplain
        rw [normal_name hplain] at h
        unfold step
        rw [if_neg (of_decide_eq_false hup), if_neg (of_decide_eq_false hdot)]
        exact ih hrest h

/-! ## §2. Spellings. -/

/-- The text is a reference in a document, and leads to the target by names alone. -/
inductive Spells (raw declaredIn : String) (target : List (List Char)) (name : String) : Prop
  /-- A path is followed from the directory of the document. -/
  | across (path : List Char) (document : IsDocumentName declaredIn.toList) (leads : IsFilePath path)
      (named : IsSchemaName name.toList) (text : raw.toList = path ++ anchor.toList ++ name.toList)
      (normalized : normal? [] ((names declaredIn.toList).dropLast ++ names path) = some target)
  /-- Without a path the target is in the document itself. -/
  | within (document : IsDocumentName declaredIn.toList) (named : IsSchemaName name.toList)
      (text : raw.toList = anchor.toList ++ name.toList) (normalized : names declaredIn.toList = target)

theorem IsFilePath.ne_nil (h : IsFilePath path) : path ≠ [] := by
  rintro rfl
  exact h.nonempty [] List.mem_cons_self rfl

/-- The target of a spelling is where its path leads. -/
theorem Spells.exists_path (h : Spells raw declaredIn target name) :
    ∃ path, IsPathText path ∧ path.head? ≠ some '/' ∧ raw.toList = path ++ anchor.toList ++ name.toList ∧
      SchemaRef.target declaredIn.toList path = target ∧ target ≠ [[]] := by
  have hnonempty : (∀ p ∈ target, p ≠ []) → target ≠ [[]] := by
    rintro h rfl
    exact h [] List.mem_cons_self rfl
  cases h with
  | across path hdoc hpath _ htext hnormal =>
    have hslash : path.head? ≠ some '/' := head_ne_slash hpath.nonempty
    have hplain : ∀ p ∈ (names declaredIn.toList).dropLast, p ≠ [] ∧ isDots p = false :=
      fun p hp => hdoc.plain p (List.dropLast_subset _ hp)
    -- The directory of the document is normalized already.
    rw [normal_append fun p hp => (hplain p hp).2, List.nil_append] at hnormal
    have htarget : ∀ p ∈ target, p ≠ [] := forall_normal (fun p hp => (hplain p hp).1) hpath.nonempty hnormal
    refine ⟨path, hpath.text, hslash, htext, ?_, hnonempty htarget⟩
    rw [target_relative hpath.ne_nil hslash]
    exact walk_of_normal hpath.last hnormal
  | within hdoc _ htext hnormal =>
    refine ⟨[], fun _ hc => absurd hc List.not_mem_nil, nofun, htext, hnormal, hnonempty fun p hp => ?_⟩
    exact (hdoc.plain p (hnormal ▸ hp)).1

theorem Spells.document (h : Spells raw declaredIn target name) : IsDocumentName declaredIn.toList := by
  cases h with
  | across _ hdoc => exact hdoc
  | within hdoc => exact hdoc

theorem Spells.named (h : Spells raw declaredIn target name) : IsSchemaName name.toList := by
  cases h with
  | across _ _ _ hname => exact hname
  | within _ hname => exact hname

/-- The names of the target are told by its text, which holds no number sign. -/
theorem Spells.plain (h : Spells raw declaredIn target name) :
    names (joinWith ['/'] target) = target ∧ '#' ∉ joinWith ['/'] target := by
  obtain ⟨path, hpath, -, -, rfl, -⟩ := h.exists_path
  exact ⟨names_target h.document hpath, mark_not_mem_target h.document hpath⟩

/-- A spelling is read, and its file is the target. -/
theorem Spells.parse (h : Spells raw declaredIn target name) :
    SchemaRef.parse raw declaredIn = .ok ⟨place (.ofList (joinWith ['/'] target)) name, raw, declaredIn⟩ := by
  obtain ⟨path, hpath, hslash, htext, htarget, hempty⟩ := h.exists_path
  have hhost : path.take 2 ≠ ['/', '/'] := by
    intro htwo
    cases path with
    | nil => exact absurd htwo nofun
    | cons c path => exact hslash (congrArg some (List.cons.inj htwo).1)
  have hfile := resolved_target h.document hpath hhost (htarget ▸ hempty)
  have hread := parse_eq hpath h.named hfile
  rw [← htext, String.ofList_toList, String.ofList_toList, htarget] at hread
  exact hread

/-- **References are compared by their normalized paths.** A reference in a document, both without dots where they
must not be, is read; its file is the path of the document's directory and its own, normalized; and it is the same as
another such reference just if both lead to one target and name, whatever documents they stand in and however they
are spelled. -/
theorem normalizedOf (h : Spells raw declaredIn target name) :
    ∃ r, SchemaRef.parse raw declaredIn = .ok r ∧ r.file.toList = joinWith ['/'] target ∧ r.className = name ∧
      ∀ raw' declaredIn' target' name' r', Spells raw' declaredIn' target' name' →
        SchemaRef.parse raw' declaredIn' = .ok r' → (same r r' = true ↔ target = target' ∧ name = name') := by
  have hfile : '#' ∉ (String.ofList (joinWith ['/'] target)).toList := by
    rw [String.toList_ofList]
    exact h.plain.2
  refine ⟨_, h.parse, ?_, ?_, ?_⟩
  · rw [file_eq rfl hfile, String.toList_ofList]
  · exact (className_eq_iff rfl).2 h.named.text.slash_not_mem
  · intro raw' declaredIn' target' name' r' h' hr'
    have hfile' : '#' ∉ (String.ofList (joinWith ['/'] target')).toList := by
      rw [String.toList_ofList]
      exact h'.plain.2
    rw [← Except.ok.inj (h'.parse.symm.trans hr')]
    unfold same
    rw [decide_eq_true_eq]
    -- the place tells the file and the name, and the joined file tells the names it was joined from
    constructor
    · intro hplace
      obtain ⟨hfiles, hnames⟩ := place_inj hfile hfile' hplace
      have hjoined : joinWith ['/'] target = joinWith ['/'] target' := String.ofList_injective hfiles
      exact ⟨by rw [← h.plain.1, hjoined, h'.plain.1], hnames⟩
    · rintro ⟨rfl, rfl⟩
      rfl

/-- One file told from two directories: up and down again through others, and by its name alone. Three dots are the name
of a directory like any other. -/
theorem normalizedOf_of_directories :
    Spells "../common/./.../../pet.yaml#/components/schemas/Pet" "specs/api.yaml"
        ["common".toList, "pet.yaml".toList] "Pet" ∧
      Spells "pet.yaml#/components/schemas/Pet" "common/all.yaml" ["common".toList, "pet.yaml".toList] "Pet" ∧
      ∃ r r', SchemaRef.parse "../common/./.../../pet.yaml#/components/schemas/Pet" "specs/api.yaml" = .ok r ∧
        SchemaRef.parse "pet.yaml#/components/schemas/Pet" "common/all.yaml" = .ok r' ∧ same r r' = true := by
  have hname : IsSchemaName "Pet".toList := ⟨List.all_eq_true.1 (by decide), by decide⟩
  have hspecs : IsDocumentName "specs/api.yaml".toList := ⟨List.all_eq_true.1 (by decide), by decide⟩
  have hcommon : IsDocumentName "common/all.yaml".toList := ⟨List.all_eq_true.1 (by decide), by decide⟩
  have hlast : isDots "pet.yaml".toList = false := by decide
  have hup : IsFilePath "../common/./.../../pet.yaml".toList := by
    have hnames : (names "../common/./.../../pet.yaml".toList).getLast? = some "pet.yaml".toList := by decide
    refine ⟨List.all_eq_true.1 (by decide), by decide, fun p hp => ?_⟩
    rwa [← Option.some.inj (hnames.symm.trans hp)]
  have hhere : IsFilePath "pet.yaml".toList := by
    have hnames : (names "pet.yaml".toList).getLast? = some "pet.yaml".toList := by decide
    refine ⟨List.all_eq_true.1 (by decide), by decide, fun p hp => ?_⟩
    rwa [← Option.some.inj (hnames.symm.trans hp)]
  have hleft : Spells "../common/./.../../pet.yaml#/components/schemas/Pet" "specs/api.yaml"
      ["common".toList, "pet.yaml".toList] "Pet" := .across _ hspecs hup hname (by decide) (by decide)
  have hright : Spells "pet.yaml#/components/schemas/Pet" "common/all.yaml"
      ["common".toList, "pet.yaml".toList] "Pet" := .across _ hcommon hhere hname (by decide) (by decide)
  -- one theorem on each side, and the comparison from the left one
  obtain ⟨r, hr, -, -, hsame⟩ := normalizedOf hleft
  obtain ⟨r', hr', -, -, -⟩ := normalizedOf hright
  exact ⟨hleft, hright, r, r', hr, hr', (hsame _ _ _ _ r' hright hr').2 ⟨rfl, rfl⟩⟩

end OpenApi.SchemaRef
