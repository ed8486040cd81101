/-
  OpenApi.Proofs.Files.Targets — where paths in documents lead.

  Between documents that are named without dots, the target of a path is where the walk along it ends (`target`): it
  starts in the directory of the document, or at the root. No dots are left in a target. An empty name can stand in
  front of one only if two slashes stand in a row in the path (`head_target_of_single`), and a path that leads above
  the root goes on from the root (`walk_of_climb`).
-/
import OpenApi.Proofs.Text.Cut
import OpenApi.Proofs.Url.Authorities

namespace OpenApi.SchemaRef

open Text Url

variable {doc path s : List Char} {front segments : List (List Char)}

/-! ## §1. Documents and targets. -/

/-- The name of a document: names that are neither empty nor dots, with slashes between them. -/
structure IsDocumentName (doc : List Char) : Prop where
  text : IsPathText doc
  plain : ∀ p ∈ names doc, p ≠ [] ∧ isDots p = false

/-- Where a path in a document leads. Two slashes introduce a host, one leads to the root. -/
def target (doc path : List Char) : List (List Char) :=
  match path with
  | [] => names doc
  | '/' :: '/' :: rest => walk [] (names (afterHost rest))
  | '/' :: rest => walk [] (names rest)
  | path => walk (names doc).dropLast (names path)

theorem IsDocumentName.ne_nil (h : IsDocumentName doc) : doc ≠ [] := by
  rintro rfl
  exact (h.plain [] List.mem_cons_self).1 rfl

/-- A text of names that are not empty starts with none of the slashes between them. -/
theorem head_ne_slash (h : ∀ p ∈ names s, p ≠ []) : s.head? ≠ some '/' := by
  intro hhead
  obtain ⟨rest, rfl⟩ : ∃ rest, s = '/' :: rest := by
    cases s with
    | nil => exact absurd hhead nofun
    | cons c rest => exact ⟨rest, by rw [Option.some.inj hhead]⟩
  have hempty : [] ∈ names ('/' :: rest) := by
    unfold names
    rw [pieces_cons_of_eq (by decide)]
    exact List.mem_cons_self
  exact h [] hempty rfl

/-- A document is named relative to the root. -/
theorem IsDocumentName.head_ne_slash (h : IsDocumentName doc) : doc.head? ≠ some '/' :=
  SchemaRef.head_ne_slash fun p hp => (h.plain p hp).1

theorem IsDocumentName.isName (h : IsDocumentName doc) : ∀ p ∈ (names doc).dropLast, IsName p :=
  fun p hp => h.text.isName p (List.dropLast_subset _ hp)

theorem no_names : ∀ p ∈ ([] : List (List Char)), IsName p := fun _ hp => absurd hp List.not_mem_nil

/-- The names of a target are names, and none is dots. -/
theorem of_mem_target (hdoc : IsDocumentName doc) (hpath : IsPathText path) :
    ∀ p ∈ target doc path, IsName p ∧ isDots p = false := by
  have hplain : ∀ p ∈ (names doc).dropLast, isDots p = false :=
    fun p hp => (hdoc.plain p (List.dropLast_subset _ hp)).2
  have hnone : ∀ p ∈ ([] : List (List Char)), isDots p = false := fun _ hp => absurd hp List.not_mem_nil
  unfold target
  split
  next => exact fun p hp => ⟨hdoc.text.isName p hp, (hdoc.plain p hp).2⟩
  next rest =>
    have hrest : IsPathText (afterHost rest) := hpath.of_cons.2.of_cons.2.afterHost
    exact fun p hp => ⟨isName_of_mem_walk no_names hrest.isName p hp, no_dots_in_walk hnone p hp⟩
  next rest _ =>
    have hrest : IsPathText rest := hpath.of_cons.2
    exact fun p hp => ⟨isName_of_mem_walk no_names hrest.isName p hp, no_dots_in_walk hnone p hp⟩
  next =>
    exact fun p hp => ⟨isName_of_mem_walk hdoc.isName hpath.isName p hp, no_dots_in_walk hplain p hp⟩

theorem target_ne_nil : target doc path ≠ [] := by
  have hnames : ∀ s, names s ≠ [] := fun s => pieces_ne_nil _ s
  unfold target
  split
  next => exact hnames _
  next => exact walk_ne_nil (hnames _)
  next => exact walk_ne_nil (hnames _)
  next => exact walk_ne_nil (hnames _)

/-- A path that starts with a name leads on from the directory of the document. -/
theorem target_relative (hne : path ≠ []) (hslash : path.head? ≠ some '/') :
    target doc path = walk (names doc).dropLast (names path) := by
  unfold target
  split
  next => exact absurd rfl hne
  next => exact absurd rfl hslash
  next => exact absurd rfl hslash
  next => rfl

/-- A path that starts with a single slash leads on from the root. -/
theorem target_rooted (hslash : path.head? ≠ some '/') : target doc ('/' :: path) = walk [] (names path) := by
  unfold target
  split
  next heq => exact absurd heq nofun
  next heq => exact absurd (List.cons.inj heq).2 (fun h => hslash (by simp [h]))
  next heq => rw [(List.cons.inj heq).2]
  next hother => exact absurd rfl (hother path)

/-- The names of a target are told by the text in which slashes stand between them. -/
theorem names_target (hdoc : IsDocumentName doc) (hpath : IsPathText path) :
    names (joinWith ['/'] (target doc path)) = target doc path := by
  refine pieces_joinWith (by decide) target_ne_nil fun p hp d hd => ?_
  exact decide_eq_false fun heq => (of_mem_target hdoc hpath p hp).1.slash_not_mem (heq ▸ hd)

/-- No number sign stands in the names of a target or between them. -/
theorem mark_not_mem_target (hdoc : IsDocumentName doc) (hpath : IsPathText path) :
    '#' ∉ joinWith ['/'] (target doc path) := by
  intro hmem
  rcases mem_joinWith hmem with heq | ⟨p, hp, hmem⟩
  · exact absurd heq (by decide)
  · exact (of_mem_target hdoc hpath p hp).1.isPathText.not_mem (by decide) hmem

/-! ## §2. Texts of targets. -/

/-- The text of names with slashes between them starts with a slash just if an empty name stands before others. -/
theorem head_joinWith (hsegments : ∀ p ∈ segments, IsName p) (hne : joinWith ['/'] segments ≠ []) :
    (joinWith ['/'] segments).head? = some '/' ↔ segments.head? = some [] := by
  cases segments with
  | nil => exact absurd rfl hne
  | cons p rest =>
    cases p with
    | nil =>
      cases rest with
      | nil => exact absurd rfl hne
      | cons q rest => simp [joinWith]
    | cons c p =>
      have hc : c ≠ '/' := fun heq => (hsegments _ List.mem_cons_self).slash_not_mem (heq ▸ List.mem_cons_self)
      have hhead : (joinWith ['/'] ((c :: p) :: rest)).head? = some c := by
        cases rest with
        | nil => rfl
        | cons q rest => rfl
      rw [hhead]
      simp [hc]

/-- Only the single empty name makes no text. -/
theorem joinWith_ne_nil (hne : segments ≠ []) (hempty : segments ≠ [[]]) : joinWith ['/'] segments ≠ [] := by
  intro heq
  cases segments with
  | nil => exact hne rfl
  | cons p rest =>
    cases rest with
    | nil => exact hempty (congrArg (fun q => [q]) heq)
    | cons q rest => simp [joinWith] at heq

theorem infix_of_rooted {rest : List Char} (h : ['/', '/'] <:+: rest) : ['/', '/'] <:+: '/' :: rest :=
  List.infix_cons h

/-- Without two slashes in a row no empty name is left in front of others. -/
theorem head_target_of_single (hdoc : IsDocumentName doc) (hsingle : ¬ ['/', '/'] <:+: path)
    (hempty : target doc path ≠ [[]]) : (target doc path).head? ≠ some [] := by
  have hfront : ∀ q ∈ (names doc).dropLast, q ≠ [] := fun q hq => (hdoc.plain q (List.dropLast_subset _ hq)).1
  have hnone : ∀ q ∈ ([] : List (List Char)), q ≠ [] := fun _ hq => absurd hq List.not_mem_nil
  -- an empty name inside the target comes from two slashes in a row, which the path does not have
  have hinner : ∀ q ∈ (target doc path).dropLast, q ≠ [] := by
    unfold target
    split
    next => exact hfront
    next => exact absurd ⟨[], _, rfl⟩ hsingle
    next rest hrest =>
      refine nonempty_of_mem_walk hnone (nonempty_of_mem_dropLast_names (fun h => hsingle (infix_of_rooted h)) ?_)
      intro hhead
      cases rest with
      | nil => exact absurd hhead nofun
      | cons d rest => exact hrest rest (by rw [Option.some.inj hhead])
    next hslash =>
      refine nonempty_of_mem_walk hfront (nonempty_of_mem_dropLast_names hsingle ?_)
      intro hhead
      cases path with
      | nil => exact absurd hhead nofun
      | cons c rest => exact hslash rest (by rw [Option.some.inj hhead])
  intro hhead
  cases htarget : target doc path with
  | nil => exact target_ne_nil htarget
  | cons p rest =>
    rw [htarget] at hhead hinner hempty
    obtain rfl : p = [] := Option.some.inj hhead
    cases rest with
    | nil => exact hempty rfl
    | cons q rest =>
      rw [List.dropLast_cons_of_ne_nil (List.cons_ne_nil _ _)] at hinner
      exact hinner [] List.mem_cons_self rfl

/-! ## §3. Leading above the root. -/

/-- The names that are left of a path, followed from some names; none if it leads above the root. -/
def normal? (front : List (List Char)) : List (List Char) → Option (List (List Char))
  | [] => some front
  | p :: rest =>
    if p = ['.'] then normal? front rest
    else if p = ['.', '.'] then
      if front.isEmpty then none else normal? front.dropLast rest
    else normal? (front ++ [p]) rest

/-- A name that is not dots is kept. -/
theorem normal_name {p : List Char} {rest : List (List Char)} (hp : isDots p = false) :
    normal? front (p :: rest) = normal? (front ++ [p]) rest := by
  obtain ⟨hdot, hup⟩ := Bool.or_eq_false_iff.1 hp
  show (if p = ['.'] then normal? front rest else if p = ['.', '.'] then
    if front.isEmpty then none else normal? front.dropLast rest else normal? (front ++ [p]) rest) = _
  rw [if_neg (of_decide_eq_false hdot), if_neg (of_decide_eq_false hup)]

/-- A path that leads above the root goes on from there, as if it started with the step that leads above it. -/
theorem walk_of_climb (h : normal? front segments = none) :
    ∃ before after, segments = before ++ ['.', '.'] :: after ∧
      walk front segments = walk [] (['.', '.'] :: after) := by
  induction segments generalizing front with
  | nil => exact absurd h nofun
  | cons p rest ih =>
    -- what comes first is passed, whatever it is, unless it is the step that leads above the root
    have hpass : normal? (step front p) rest = none →
        ∃ before after, p :: rest = before ++ ['.', '.'] :: after ∧
          walk front (p :: rest) = walk [] (['.', '.'] :: after) := by
      intro hrest
      obtain ⟨before, after, rfl, hwalk⟩ := ih hrest
      refine ⟨p :: before, after, rfl, ?_⟩
      cases before with
      | nil => exact hwalk
      | cons q before => exact hwalk
    unfold normal? at h
    split at h
    next hdot =>
      refine hpass ?_
      subst hdot
      exact h
    next hdot =>
      split at h
      next hup =>
        subst hup
        split at h
        next hempty =>
          rw [List.isEmpty_iff.1 hempty]
          exact ⟨[], rest, rfl, rfl⟩
        next => exact hpass h
      next hup =>
        refine hpass ?_
        unfold step
        rwa [if_neg hup, if_neg hdot]

end OpenApi.SchemaRef
