/-
  OpenApi.Proofs.Files.Escapes — which references stay below the directory of the documents.

  The file of a reference is to be relative, so that it is read below the directory of the documents, and a reference
  that leads above that directory is to be refused. Both are checked on the URL that a path is resolved to, where it
  is too late: the URL starts with the root in any case. So a reference escapes to the root of the disk just if its
  walk leaves an empty name in front of others, for which the path needs two slashes in a row; and one that leads
  above the root is refused only if it has no file, but goes on from the root otherwise. A path without either is
  followed as it is written (`LeadsTo.kept`). Main statement: `filesOf`; both defects are run in `filesOf_fails`.
-/
import OpenApi.Proofs.Files.Parts
import OpenApi.Proofs.Loader.Below

namespace OpenApi

open Text Url SchemaRef

/-! ## §1. Walks on a disk. -/

namespace Disk

variable {files : Disk} {base place : Names} {front segments : List (List Char)}

/-- Names that are neither empty nor dots. -/
def ArePlain (names : List (List Char)) : Prop := ∀ p ∈ names, p ≠ [] ∧ isDots p = false

theorem ArePlain.dropLast (h : ArePlain front) : ArePlain front.dropLast := fun p hp => h p (List.dropLast_subset _ hp)

/-- After a plain name, two dots lead back. -/
theorem follow_back {p : List Char} {next : Names} (hp : p ≠ [] ∧ isDots p = false)
    (hdown : files.follow base p = some next) (hup : files.isDirectory next = true) :
    files.follow next ['.', '.'] = some base := by
  obtain ⟨hdot, hdots⟩ := Bool.or_eq_false_iff.1 hp.2
  have hidle : FilePath.isIdle p = false := by
    unfold FilePath.isIdle
    rw [hdot, Bool.or_false, List.isEmpty_eq_false_iff]
    exact hp.1
  rw [follow_down hidle (of_decide_eq_false hdots) (isDirectory_of_follow hdown)] at hdown
  rw [follow_up hup, ← Option.some.inj hdown, List.dropLast_concat]

/-- Where dots follow plain names, one gets to the directory where the walk is. -/
theorem foldlM_dots {p : List Char} {rest : List (List Char)} (hfront : ArePlain front) (hp : isDots p = true)
    (hclimb : p = ['.', '.'] → front ≠ []) (h : (front ++ p :: rest).foldlM files.follow base = some place) :
    ∃ at_, (step front p).foldlM files.follow base = some at_ ∧ files.isDirectory at_ = true ∧
      rest.foldlM files.follow at_ = some place := by
  rw [List.foldlM_append] at h
  obtain ⟨at_, hat, h⟩ := Option.bind_eq_some_iff.1 h
  rw [List.foldlM_cons] at h
  obtain ⟨next, hnext, hrest⟩ := Option.bind_eq_some_iff.1 h
  have hdirectory : files.isDirectory at_ = true := isDirectory_of_follow hnext
  rcases Bool.or_eq_true_iff.1 hp with hdot | hup
  · obtain rfl : p = ['.'] := of_decide_eq_true hdot
    rw [follow_idle rfl hdirectory] at hnext
    obtain rfl := Option.some.inj hnext
    exact ⟨at_, hat, hdirectory, hrest⟩
  · obtain rfl : p = ['.', '.'] := of_decide_eq_true hup
    obtain ⟨before, q, rfl⟩ : ∃ before q, front = before ++ [q] :=
      ⟨_, _, (List.dropLast_concat_getLast (hclimb rfl)).symm⟩
    -- the step up undoes the last step down
    rw [List.foldlM_append] at hat
    obtain ⟨above, habove, hat⟩ := Option.bind_eq_some_iff.1 hat
    rw [List.foldlM_cons] at hat
    obtain ⟨_, hdown, hat⟩ := Option.bind_eq_some_iff.1 hat
    obtain rfl := Option.some.inj hat
    have hq := hfront q (List.mem_append_right _ (List.mem_singleton_self q))
    rw [follow_back hq hdown hdirectory] at hnext
    obtain rfl := Option.some.inj hnext
    refine ⟨above, ?_, isDirectory_of_follow hdown, hrest⟩
    unfold step
    rw [if_pos rfl, List.dropLast_concat]
    exact habove

/-- Dots that do not lead above the root come after a name, or lead nowhere, and what follows does not lead above it
either. -/
theorem of_dots {p : List Char} {rest : List (List Char)} (hfront : ArePlain front) (hp : isDots p = true)
    (hclimb : normal? front (p :: rest) ≠ none) :
    (p = ['.', '.'] → front ≠ []) ∧ ArePlain (step front p) ∧ normal? (step front p) rest ≠ none := by
  rcases Bool.or_eq_true_iff.1 hp with hdot | hup
  · obtain rfl : p = ['.'] := of_decide_eq_true hdot
    exact ⟨fun heq => absurd heq (by decide), hfront, hclimb⟩
  · obtain rfl : p = ['.', '.'] := of_decide_eq_true hup
    have hne : front ≠ [] := by
      rintro rfl
      exact hclimb rfl
    refine ⟨fun _ => hne, hfront.dropLast, ?_⟩
    unfold normal? at hclimb
    rw [if_neg (by decide), if_pos rfl, if_neg (by simpa using hne)] at hclimb
    exact hclimb

/-- **A walk that stays below the root leads where the names lead that are walked along.** -/
theorem foldlM_walk (hfront : ArePlain front) (hsegments : ∀ p ∈ segments.dropLast, p ≠ [])
    (hclimb : normal? front segments ≠ none) (h : (front ++ segments).foldlM files.follow base = some place) :
    (walk front segments).foldlM files.follow base = some place := by
  induction segments generalizing front with
  | nil =>
    rw [List.append_nil] at h
    exact h
  | cons p rest ih =>
    have htail : (p :: rest).dropLast.tail = rest.dropLast := List.tail_dropLast
    have hlater : ∀ q ∈ rest.dropLast, q ≠ [] := fun q hq => hsegments q (List.mem_of_mem_tail (htail ▸ hq))
    by_cases hp : isDots p = true
    · obtain ⟨hdown, hplain, hstays⟩ := of_dots hfront hp hclimb
      obtain ⟨at_, hat, hdirectory, hrest⟩ := foldlM_dots hfront hp hdown h
      cases rest with
      | nil =>
        -- dots at the end lead to a directory, which the walk tells by an empty name
        unfold walk
        rw [if_pos hp, List.foldlM_append, hat, ← Option.some.inj hrest]
        show [([] : List Char)].foldlM files.follow at_ = some at_
        rw [List.foldlM_cons, follow_idle rfl hdirectory]
        rfl
      | cons q rest =>
        refine ih hplain hlater hstays ?_
        rw [List.foldlM_append, hat]
        exact hrest
    · have hplain : isDots p = false := Bool.eq_false_iff.2 hp
      cases rest with
      | nil =>
        unfold walk
        rw [if_neg hp]
        exact h
      | cons q rest =>
        rw [List.dropLast_cons_of_ne_nil (List.cons_ne_nil _ _)] at hsegments
        have hp' : ArePlain (front ++ [p]) :=
          List.forall_mem_append.2 ⟨hfront, List.forall_mem_singleton.2 ⟨hsegments p List.mem_cons_self, hplain⟩⟩
        rw [normal_name hplain] at hclimb
        obtain ⟨hdot, hup⟩ := Bool.or_eq_false_iff.1 hplain
        show (walk (step front p) (q :: rest)).foldlM files.follow base = some place
        unfold step
        rw [if_neg (of_decide_eq_false hup), if_neg (of_decide_eq_false hdot)]
        refine ih hp' hlater hclimb ?_
        rw [List.append_assoc]
        exact h

end Disk

namespace SchemaRef

variable {doc path file : List Char}

/-! ## §2. Where references lead. -/

/-- The path as it is written, from the directory of the document. -/
def beside (doc path : List Char) : List Char := joinWith ['/'] ((names doc).dropLast ++ names path)

/-- What is known of the file of a reference, given the path that it writes. -/
structure LeadsTo (doc path file : List Char) : Prop where
  /-- It is where the walk along the path ends. -/
  walked : names file = target doc path
  /-- No name in it is dots. -/
  no_dots : ∀ p ∈ names file, p ≠ ['.'] ∧ p ≠ ['.', '.']
  /-- It is relative just if the walk leaves no empty name in front. -/
  relative : file.head? ≠ some '/' ↔ (target doc path).head? ≠ some []
  /-- The walk leaves none where no two slashes stand in a row in the path. -/
  single : ¬ ['/', '/'] <:+: path → (target doc path).head? ≠ some []
  /-- If it is relative, it is read below the directory of the documents. -/
  below : file.head? ≠ some '/' → ∀ files root text, Loader.readFile files (FilePath.under root file) = .ok text →
    ∃ base place bytes, files.reach root = some base ∧ base <+: place ∧ (place, bytes) ∈ files.files ∧
      Utf8.decode? bytes = some text.toList
  /-- If it is not, the directory of the documents plays no part in where it is read. -/
  outside : file.head? = some '/' → ∀ root, FilePath.under root file = file
  /-- Where neither two slashes stand in a row nor the path leads above the root, what is read is what stands where the
  path leads as it is written. -/
  kept : path ≠ [] → path.head? ≠ some '/' → ¬ ['/', '/'] <:+: path →
    normal? (names doc).dropLast (names path) ≠ none → ∀ files root text,
      Loader.readFile files (FilePath.under root (beside doc path)) = .ok text →
        Loader.readFile files (FilePath.under root file) = .ok text

/-- The names of a path that is written in a document. -/
theorem names_beside (hdoc : IsDocumentName doc) (hpath : IsPathText path) :
    names (beside doc path) = (names doc).dropLast ++ names path := by
  have hne : (names doc).dropLast ++ names path ≠ [] := List.append_ne_nil_of_right_ne_nil _ (pieces_ne_nil _ _)
  refine pieces_joinWith (by decide) hne fun p hp d hd => decide_eq_false fun heq => ?_
  have hname : IsName p := (List.mem_append.1 hp).elim (hdoc.isName p) (hpath.isName p)
  exact hname.slash_not_mem (heq ▸ hd)

/-- A path that is written in a document is relative, unless it starts with a slash. -/
theorem head_beside (hdoc : IsDocumentName doc) (hpath : IsPathText path) (hne : path ≠ [])
    (hslash : path.head? ≠ some '/') : (beside doc path).head? ≠ some '/' := by
  have hnames : ∀ p ∈ (names doc).dropLast ++ names path, IsName p :=
    List.forall_mem_append.2 ⟨hdoc.isName, hpath.isName⟩
  have hpathText : joinWith ['/'] (names path) = path := joinWith_pieces '/' path
  have hfirst : (names path).head? ≠ some [] := by
    have htext : joinWith ['/'] (names path) ≠ [] := by
      rwa [hpathText]
    have hhead := head_joinWith hpath.isName htext
    rw [hpathText] at hhead
    exact fun heq => hslash (hhead.2 heq)
  have hhead : ((names doc).dropLast ++ names path).head? ≠ some [] := by
    cases hfront : (names doc).dropLast with
    | nil => exact hfirst
    | cons p front =>
      have hp : p ∈ names doc := List.dropLast_subset _ (hfront ▸ List.mem_cons_self)
      exact fun heq => (hdoc.plain p hp).1 (Option.some.inj heq)
  have hempty : (names doc).dropLast ++ names path ≠ [[]] := fun heq => hhead (by rw [heq]; rfl)
  have htext : beside doc path ≠ [] :=
    joinWith_ne_nil (List.append_ne_nil_of_right_ne_nil _ (pieces_ne_nil _ _)) hempty
  exact fun heq => hhead ((head_joinWith hnames htext).1 heq)

/-- Such a path is followed as it is written. -/
theorem kept_of_walk (hdoc : IsDocumentName doc) (hpath : IsPathText path) (hne : path ≠ [])
    (hslash : path.head? ≠ some '/') (hsingle : ¬ ['/', '/'] <:+: path)
    (hclimb : normal? (names doc).dropLast (names path) ≠ none) (hfile : file.head? ≠ some '/')
    (hwalked : names file = target doc path) {files : Disk} {root : List Char} {text : String}
    (h : Loader.readFile files (FilePath.under root (beside doc path)) = .ok text) :
    Loader.readFile files (FilePath.under root file) = .ok text := by
  refine Loader.readFile_of_reach (fun place hplace => ?_) h
  obtain ⟨base, hbase, hwritten⟩ := (Disk.reach_under (head_beside hdoc hpath hne hslash)).1 hplace
  refine (Disk.reach_under hfile).2 ⟨base, hbase, ?_⟩
  have hnames : (names (beside doc path)).foldlM files.follow base = some place := hwritten
  show (names file).foldlM files.follow base = some place
  rw [names_beside hdoc hpath] at hnames
  rw [hwalked, target_relative hne hslash]
  have hfront : Disk.ArePlain (names doc).dropLast := fun p hp => hdoc.plain p (List.dropLast_subset _ hp)
  exact Disk.foldlM_walk hfront (nonempty_of_mem_dropLast_names hsingle hslash) hclimb hnames

theorem leadsTo_of_parse {raw declaredIn : String} {r : SchemaRef} (hdoc : IsDocumentName declaredIn.toList)
    (h : parse raw declaredIn = .ok r) :
    ∃ path name, raw.toList = path ++ anchor.toList ++ name ∧ LeadsTo declaredIn.toList path r.file.toList := by
  obtain ⟨path, name, hraw, hpath, hfile, hne⟩ := file_of_parse hdoc h
  have hnames : ∀ p ∈ target declaredIn.toList path, IsName p := fun p hp => (of_mem_target hdoc hpath p hp).1
  have hwalked : names r.file.toList = target declaredIn.toList path := by
    rw [hfile]
    exact names_target hdoc hpath
  have hdots : ∀ p ∈ names r.file.toList, p ≠ ['.'] ∧ p ≠ ['.', '.'] := by
    intro p hp
    have hplain := (of_mem_target hdoc hpath p (hwalked ▸ hp)).2
    unfold isDots at hplain
    simpa using hplain
  have hrooted : r.file.toList.head? = some '/' ↔ (target declaredIn.toList path).head? = some [] := by
    rw [hfile] at hne ⊢
    exact head_joinWith hnames hne
  -- two readings of an empty first name: the root, or a target of that name only, which the parser refuses
  have hsingle : ¬ ['/', '/'] <:+: path → (target declaredIn.toList path).head? ≠ some [] := by
    refine fun hsingle => head_target_of_single hdoc hsingle fun heq => hne ?_
    rw [hfile, heq]
    rfl
  refine ⟨path, name, hraw, hwalked, hdots, not_congr hrooted, hsingle, ?_, ?_, ?_⟩
  · exact fun hrelative files root text hread =>
      Loader.exists_below_of_readFile hrelative (fun hup => (hdots _ hup).2 rfl) hread
  · intro hslash root
    obtain ⟨rest, hrest⟩ := List.head?_eq_some_iff.1 hslash
    rw [hrest]
    rfl
  · exact fun hpne hslash hdouble hclimb files root text hread =>
      kept_of_walk hdoc hpath hpne hslash hdouble hclimb (fun hhead => hsingle hdouble (hrooted.1 hhead)) hwalked hread

/-- A path without host makes a reference just if its walk leads to a file. -/
theorem parse_iff {declaredIn : String} {path name : List Char} (hdoc : IsDocumentName declaredIn.toList)
    (hpath : IsPathText path) (hname : IsSchemaName name) (hhost : path.take 2 ≠ ['/', '/']) :
    (∃ r, parse (String.ofList (path ++ anchor.toList ++ name)) declaredIn = .ok r) ↔
      target declaredIn.toList path ≠ [[]] := by
  constructor
  · rintro ⟨r, hr⟩ hempty
    obtain ⟨path', name', hraw, hpath', hfile, hne⟩ := file_of_parse hdoc hr
    -- both are what stands before the first number sign
    have hsame : path = path' := by
      have hanchor : anchor.toList = '#' :: "/components/schemas/".toList := by decide
      rw [String.toList_ofList, hanchor, List.append_assoc, List.append_assoc, List.cons_append, List.cons_append] at hraw
      have hmark : ∀ {s}, IsPathText s → '#' ∉ s := fun hs => hs.not_mem (by decide)
      have hcut := splitFirst_append (hmark hpath) ("/components/schemas/".toList ++ name)
      rw [hraw, splitFirst_append (hmark hpath')] at hcut
      exact (congrArg Prod.fst (Option.some.inj hcut)).symm
    rw [← hsame, hempty] at hfile
    exact hne hfile
  · exact fun hempty => ⟨_, parse_eq hpath hname (resolved_target hdoc hpath hhost hempty)⟩

/-- **Where references lead.** The file of a reference in a document is where the walk along its path ends, without
dots. It stays below the directory of the documents just if the walk leaves no empty name in front, as it does not where
no two slashes stand in a row; and if the path does not lead above the root either, what is read is what stands where
the path leads. Of the paths without host only those are refused that lead to no file: one that leads above the root
goes on from there, and is refused just if what follows leads to no file. -/
theorem filesOf {declaredIn : String} (hdoc : IsDocumentName declaredIn.toList) :
    (∀ raw r, parse raw declaredIn = .ok r →
      ∃ path name, raw.toList = path ++ anchor.toList ++ name ∧ LeadsTo declaredIn.toList path r.file.toList) ∧
    (∀ path name, IsPathText path → IsSchemaName name → path.take 2 ≠ ['/', '/'] →
      ((∃ r, parse (String.ofList (path ++ anchor.toList ++ name)) declaredIn = .ok r) ↔
        target declaredIn.toList path ≠ [[]])) ∧
    (∀ path, path ≠ [] → path.head? ≠ some '/' → normal? (names declaredIn.toList).dropLast (names path) = none →
      ∃ before after, names path = before ++ ['.', '.'] :: after ∧
        target declaredIn.toList path = walk [] (['.', '.'] :: after)) := by
  refine ⟨fun raw r h => leadsTo_of_parse hdoc h, fun path name hpath hname hhost => parse_iff hdoc hpath hname hhost, ?_⟩
  intro path hne hslash hclimb
  rw [target_relative hne hslash]
  exact walk_of_climb hclimb

/-- Two documents of one name: one beside the directory of the documents, one in it. -/
def outerAndInner : Disk where
  files := [(["pet.yaml".toList], [111]), (["specs".toList, "pet.yaml".toList], [105])]
  directories := []

/-- A reference that leads above the root is resolved, and one with two slashes in a row is read outside the directory
of the documents. -/
theorem filesOf_fails :
    IsDocumentName "api.yaml".toList ∧
      (∃ r, parse "../pet.yaml#/components/schemas/Pet" "api.yaml" = .ok r ∧ r.file = "pet.yaml") ∧
      ∃ r, parse ".//pet.yaml#/components/schemas/Pet" "api.yaml" = .ok r ∧ r.file = "/pet.yaml" ∧
        Loader.readFile outerAndInner (FilePath.under "/specs".toList r.file.toList) = .ok "o" ∧
        Loader.readFile outerAndInner (FilePath.under "/specs".toList "pet.yaml".toList) = .ok "i" := by
  have hchars : "api.yaml".toList.all isPathChar = true := by decide
  refine ⟨⟨List.all_eq_true.1 hchars, by decide⟩, ?_, ?_⟩
  · refine ⟨.mk "pet.yaml#/components/schemas/Pet" "../pet.yaml#/components/schemas/Pet" "api.yaml", ?_, ?_⟩
    · decide +kernel
    · decide +kernel
  · refine ⟨.mk "/pet.yaml#/components/schemas/Pet" ".//pet.yaml#/components/schemas/Pet" "api.yaml", ?_, ?_, ?_, ?_⟩
    · decide +kernel
    · decide +kernel
    · decide +kernel
    · decide +kernel

/-- A path that steps up and down again from a directory is kept, and is read below the root. -/
theorem filesOf_of_specs :
    IsDocumentName "specs/api.yaml".toList ∧
      ∃ r, parse "../common/./pet.yaml#/components/schemas/Pet" "specs/api.yaml" = .ok r ∧
        r.file = "common/pet.yaml" ∧ ∃ path name,
          "../common/./pet.yaml#/components/schemas/Pet".toList = path ++ anchor.toList ++ name ∧
            LeadsTo "specs/api.yaml".toList path r.file.toList := by
  have hchars : "specs/api.yaml".toList.all isPathChar = true := by decide
  have hdoc : IsDocumentName "specs/api.yaml".toList := ⟨List.all_eq_true.1 hchars, by decide⟩
  have hparse : parse "../common/./pet.yaml#/components/schemas/Pet" "specs/api.yaml" =
      .ok ⟨"common/pet.yaml#/components/schemas/Pet", "../common/./pet.yaml#/components/schemas/Pet",
        "specs/api.yaml"⟩ := by decide +kernel
  exact ⟨hdoc, _, hparse, by decide +kernel, (filesOf hdoc).1 _ _ hparse⟩

end SchemaRef

end OpenApi
