/-
  OpenApi.Proofs.Url.Relative — texts of names, dots and slashes, resolved against a base.

  In texts that hold nothing but names and slashes most of what a URL may be made of cannot occur: no scheme, no query,
  no drive, nothing to encode. Resolving such a text is a walk (`walk`): it starts in the directory of the base or at
  the root, each name leads down, two dots lead up, and up from the root is the root again (`resolve_eq_walk`).
-/
import OpenApi.Proofs.Text.Cut
import OpenApi.Proofs.Url.Hosts
import OpenApi.Url.Parse

namespace OpenApi.Url

open Text

variable {c d : Char} {s p : List Char} {front segments : List (List Char)}

/-! ## §1. Characters. -/

/-- May the character stand in a name? -/
def isNameChar (c : Char) : Bool := c.isAlphanum || ['-', '_', '.'].contains c

/-- Is it a slash, or may it stand in a name? -/
def isPathChar (c : Char) : Bool := isNameChar c || c = '/'

theorem ne_of_isPathChar (hc : isPathChar c = true) (hd : isPathChar d = false) : c ≠ d := by
  rintro rfl
  exact absurd (hc.symm.trans hd) nofun

/-- The characters of paths are among those from the hyphen to the letter z. -/
theorem bounds_of_isPathChar (h : isPathChar c = true) : 0x2D ≤ c.toNat ∧ c.toNat ≤ 0x7A := by
  have hcases : c.isAlphanum = true ∨ c ∈ ['-', '_', '.', '/'] := by
    simp only [isPathChar, isNameChar, Bool.or_eq_true, decide_eq_true_eq, List.contains_eq_mem,
      List.mem_cons, List.not_mem_nil, or_false] at h
    rcases h with (halnum | hmark) | hslash
    · exact .inl halnum
    · exact .inr (by simp only [List.mem_cons]; tauto)
    · exact .inr (by simp [hslash])
  rcases hcases with halnum | hmark
  · have hranges : ((decide (65 ≤ c.val ∧ c.val ≤ 90) || decide (97 ≤ c.val) && decide (c.val ≤ 122)) ||
        decide (48 ≤ c.val) && decide (c.val ≤ 57)) = true := halnum
    have hval : c.toNat = c.val.toNat := rfl
    simp [UInt32.le_iff_toNat_le] at hranges
    omega
  · have hall : ∀ c ∈ ['-', '_', '.', '/'], 0x2D ≤ c.toNat ∧ c.toNat ≤ 0x7A := by simp
    exact hall c hmark

/-- No character of a path is encoded in a path. -/
theorem encodesInPath_eq_false (h : isPathChar c = true) : encodesInPath c = false := by
  obtain ⟨hlow, hhigh⟩ := bounds_of_isPathChar h
  have hplain : isControl c = false := by
    unfold isControl
    simp
    omega
  have hne : ∀ d, isPathChar d = false → c ≠ d := fun d => ne_of_isPathChar h
  simp [encodesInPath, encodesInFragment, hplain, hne ' ' (by decide), hne '"' (by decide), hne '<' (by decide),
    hne '>' (by decide), hne '\x60' (by decide), hne '#' (by decide), hne '?' (by decide), hne '\x7b' (by decide),
    hne '\x7d' (by decide)]

theorem encoded_eq_self {encodes : Char → Bool} (h : ∀ c ∈ s, encodes c = false) : encoded encodes s = s := by
  unfold encoded
  induction s with
  | nil => rfl
  | cons c s ih =>
    obtain ⟨hc, hs⟩ := List.forall_mem_cons.1 h
    rw [List.flatMap_cons, hc, ih hs]
    rfl

/-! ## §2. Texts. -/

/-- The text is made of names and slashes. -/
def IsPathText (s : List Char) : Prop := ∀ c ∈ s, isPathChar c = true

/-- The names of a text between its slashes. -/
def names (s : List Char) : List (List Char) := pieces (fun c => c = '/') s

theorem IsPathText.not_mem (h : IsPathText s) (hd : isPathChar d = false) : d ∉ s := by
  intro hmem
  exact ne_of_isPathChar (h d hmem) hd rfl

theorem IsPathText.of_cons (h : IsPathText (c :: s)) : isPathChar c = true ∧ IsPathText s :=
  List.forall_mem_cons.1 h

theorem IsPathText.cleaned_eq (h : IsPathText s) : cleaned s = s := by
  -- no path character is trimmed at an edge or dropped as a blank
  have hedge : ∀ c ∈ s, isEdge c = false := by
    intro c hc
    have hlow := (bounds_of_isPathChar (h c hc)).1
    unfold isEdge
    simp
    omega
  have hdrop : ∀ t : List Char, (∀ c ∈ t, isEdge c = false) → t.dropWhile isEdge = t := by
    intro t ht
    cases t with
    | nil => rfl
    | cons c t => rw [List.dropWhile_cons, if_neg (by simp [ht c])]
  have hblank : ∀ c ∈ s, (!(['\t', '\n', '\r'].contains c)) = true := by
    intro c hc
    have hne : ∀ d, isPathChar d = false → c ≠ d := fun d => ne_of_isPathChar (h c hc)
    simp [hne '\t' (by decide), hne '\n' (by decide), hne '\r' (by decide)]
  unfold cleaned
  dsimp only
  rw [hdrop s hedge, hdrop s.reverse fun c hc => hedge c (List.mem_reverse.1 hc), List.reverse_reverse]
  exact List.filter_eq_self.2 hblank

/-- Without a colon there is no scheme. -/
theorem IsPathText.scheme?_eq_none (h : IsPathText s) : scheme? s = none := by
  have hcolon : ':' ∉ s.dropWhile inScheme := fun hmem =>
    h.not_mem (by decide) ((List.dropWhile_sublist _).subset hmem)
  unfold scheme?
  split
  next c rest tail heq =>
    rw [heq] at hcolon
    exact absurd List.mem_cons_self hcolon
  next => rfl

theorem splitFirst_eq_none_of_not_mem (h : c ∉ s) : splitFirst c s = none := by
  cases hcut : splitFirst c s with
  | none => rfl
  | some p => exact absurd ((splitFirst_eq_some hcut).1 ▸ by simp) h

theorem IsPathText.cut_eq (h : IsPathText s) : cut s = ⟨s, none, none⟩ := by
  unfold cut
  rw [splitFirst_eq_none_of_not_mem (h.not_mem (by decide : isPathChar '#' = false))]
  dsimp only
  rw [splitFirst_eq_none_of_not_mem (h.not_mem (by decide : isPathChar '?' = false))]

/-- In paths a backslash need not be told from a slash: there is none. -/
theorem isSlash_eq {special : Bool} (h : isPathChar c = true) : isSlash special c = decide (c = '/') := by
  have hne : c ≠ '\\' := ne_of_isPathChar h (by decide)
  simp [isSlash, hne]

/-- A name is made of the characters of names. -/
def IsName (p : List Char) : Prop := ∀ c ∈ p, isNameChar c = true

theorem IsName.isPathText (h : IsName p) : IsPathText p := fun c hc => by simp [isPathChar, h c hc]

theorem IsName.slash_not_mem (h : IsName p) : '/' ∉ p := fun hmem => absurd (h '/' hmem) (by decide)

theorem IsPathText.isName (h : IsPathText s) : ∀ p ∈ names s, IsName p := by
  intro p hp c hc
  obtain ⟨hmem, hslash⟩ := of_mem_pieces hp hc
  have hchar := h c hmem
  unfold isPathChar at hchar
  rw [hslash, Bool.or_false] at hchar
  exact hchar

/-! ## §3. Walks. -/

/-- Does the name lead up, or nowhere? -/
def isDots (p : List Char) : Bool := p = ['.'] || p = ['.', '.']

/-- Follows one name: two dots lead up, though not above the root. -/
def step (at_ : List (List Char)) (p : List Char) : List (List Char) :=
  if p = ['.', '.'] then at_.dropLast
  else if p = ['.'] then at_
  else at_ ++ [p]

/-- Follows names. Where dots come last, they lead to a directory, and the name in it is left empty. -/
def walk (at_ : List (List Char)) : List (List Char) → List (List Char)
  | [] => at_
  | [p] => if isDots p then step at_ p ++ [[]] else at_ ++ [p]
  | p :: rest => walk (step at_ p) rest

theorem walk_ne_nil (hne : segments ≠ []) : walk front segments ≠ [] := by
  induction segments generalizing front with
  | nil => exact absurd rfl hne
  | cons p rest ih =>
    cases rest with
    | nil =>
      unfold walk
      split
      next => exact List.append_ne_nil_of_right_ne_nil _ (List.cons_ne_nil _ _)
      next => exact List.append_ne_nil_of_right_ne_nil _ (List.cons_ne_nil _ _)
    | cons q rest => exact ih (List.cons_ne_nil _ _)

/-- Names other than dots that are followed are those where the walk ends. -/
theorem forall_step {P : List Char → Prop} (hfront : ∀ q ∈ front, P q) (hp : isDots p = false → P p) :
    ∀ q ∈ step front p, P q := by
  unfold step
  by_cases hup : p = ['.', '.']
  · rw [if_pos hup]
    exact fun q hq => hfront q ((List.dropLast_subset _) hq)
  · rw [if_neg hup]
    by_cases hdot : p = ['.']
    · rw [if_pos hdot]
      exact hfront
    · rw [if_neg hdot]
      refine List.forall_mem_append.2 ⟨hfront, List.forall_mem_singleton.2 (hp ?_)⟩
      simp [isDots, hup, hdot]

theorem forall_walk {P : List Char → Prop} (hempty : P []) (hfront : ∀ q ∈ front, P q)
    (hsegments : ∀ q ∈ segments, isDots q = false → P q) : ∀ q ∈ walk front segments, P q := by
  induction segments generalizing front with
  | nil => exact hfront
  | cons p rest ih =>
    obtain ⟨hp, hrest⟩ := List.forall_mem_cons.1 hsegments
    have hstep : ∀ q ∈ step front p, P q := forall_step hfront hp
    cases rest with
    | nil =>
      unfold walk
      by_cases hdots : isDots p = true
      · rw [if_pos hdots]
        exact List.forall_mem_append.2 ⟨hstep, List.forall_mem_singleton.2 hempty⟩
      · rw [if_neg hdots]
        exact List.forall_mem_append.2 ⟨hfront, List.forall_mem_singleton.2 (hp (by simpa using hdots))⟩
    | cons q rest => exact ih hstep hrest

/-- Where a walk starts with names other than dots, no dots are left. -/
theorem no_dots_in_walk (hfront : ∀ q ∈ front, isDots q = false) : ∀ q ∈ walk front segments, isDots q = false :=
  forall_walk (by decide) hfront fun _ _ h => h

theorem isName_of_mem_walk (hfront : ∀ q ∈ front, IsName q) (hsegments : ∀ q ∈ segments, IsName q) :
    ∀ q ∈ walk front segments, IsName q :=
  forall_walk (fun _ hc => absurd hc List.not_mem_nil) hfront fun q hq _ => hsegments q hq

/-- Names without dots are where the walk along them ends. -/
theorem walk_eq_append (h : ∀ q ∈ segments, isDots q = false) : walk front segments = front ++ segments := by
  induction segments generalizing front with
  | nil => exact (List.append_nil _).symm
  | cons p rest ih =>
    obtain ⟨hp, hrest⟩ := List.forall_mem_cons.1 h
    cases rest with
    | nil =>
      unfold walk
      rw [hp]
      rfl
    | cons q rest =>
      have hstep : step front p = front ++ [p] := by
        unfold isDots at hp
        obtain ⟨hdot, hup⟩ := Bool.or_eq_false_iff.1 hp
        unfold step
        rw [if_neg (of_decide_eq_false hup), if_neg (of_decide_eq_false hdot)]
      unfold walk
      rw [hstep, ih hrest, List.append_assoc]
      rfl

/-- A walk along names leaves no empty name before its end. -/
theorem nonempty_of_mem_walk (hfront : ∀ q ∈ front, q ≠ []) (hsegments : ∀ q ∈ segments.dropLast, q ≠ []) :
    ∀ q ∈ (walk front segments).dropLast, q ≠ [] := by
  induction segments generalizing front with
  | nil => exact fun q hq => hfront q (List.dropLast_subset _ hq)
  | cons p rest ih =>
    cases rest with
    | nil =>
      unfold walk
      by_cases hdots : isDots p = true
      · rw [if_pos hdots, List.dropLast_concat]
        exact forall_step hfront fun hnot => absurd (hnot.symm.trans hdots) nofun
      · rw [if_neg hdots, List.dropLast_concat]
        exact hfront
    | cons q rest =>
      rw [List.dropLast_cons_of_ne_nil (List.cons_ne_nil _ _)] at hsegments
      obtain ⟨hp, hrest⟩ := List.forall_mem_cons.1 hsegments
      exact ih (forall_step hfront fun _ => hp) hrest

/-- Only a text that starts with a slash has an empty name before another one. -/
theorem head_of_names_eq {q : List Char} {rest : List (List Char)} (h : names s = [] :: q :: rest) :
    s.head? = some '/' := by
  cases s with
  | nil => exact absurd (List.cons.inj h).2 nofun
  | cons c s =>
    by_cases hc : c = '/'
    · rw [hc]
      rfl
    · unfold names pieces at h
      rw [if_neg (by simp [hc])] at h
      split at h
      next => exact absurd (List.cons.inj h).1 nofun
      next => exact absurd (List.cons.inj h).1 nofun

/-- Without two slashes in a row, only the first name and the last one may be empty. -/
theorem nonempty_of_mem_names (hs : ¬ ['/', '/'] <:+: s) : ∀ q ∈ (names s).tail.dropLast, q ≠ [] := by
  induction s with
  | nil => exact fun q hq => absurd hq List.not_mem_nil
  | cons c s ih =>
    have hrest := ih fun hmem => hs (List.infix_cons hmem)
    by_cases hc : c = '/'
    · subst hc
      have hnames : names ('/' :: s) = [] :: names s := pieces_cons_of_eq (by decide) s
      rw [hnames, List.tail_cons]
      cases hs' : names s with
      | nil => exact absurd hs' (pieces_ne_nil _ _)
      | cons q qs =>
        rw [hs', List.tail_cons] at hrest
        cases qs with
        | nil => exact fun q hq => absurd hq List.not_mem_nil
        | cons q' qs =>
          rw [List.dropLast_cons_of_ne_nil (List.cons_ne_nil _ _)]
          refine List.forall_mem_cons.2 ⟨?_, hrest⟩
          rintro rfl
          -- the text would go on with a second slash
          cases s with
          | nil => exact absurd (List.cons.inj hs').2 nofun
          | cons d s =>
            obtain rfl : d = '/' := Option.some.inj (head_of_names_eq hs')
            exact hs ⟨[], s, rfl⟩
    · unfold names pieces
      rw [if_neg (by simp [hc])]
      unfold names at hrest
      cases hs' : pieces (fun c => decide (c = '/')) s with
      | nil => exact absurd hs' (pieces_ne_nil _ _)
      | cons q qs =>
        rw [hs'] at hrest
        exact hrest

/-- A text that neither starts with a slash nor holds two in a row has no empty name but the last one. -/
theorem nonempty_of_mem_dropLast_names (hs : ¬ ['/', '/'] <:+: s) (hhead : s.head? ≠ some '/') :
    ∀ q ∈ (names s).dropLast, q ≠ [] := by
  have htail := nonempty_of_mem_names hs
  cases hnames : names s with
  | nil => exact fun q hq => absurd hq List.not_mem_nil
  | cons q qs =>
    rw [hnames] at htail
    cases qs with
    | nil => exact fun q hq => absurd hq List.not_mem_nil
    | cons q' qs =>
      rw [List.dropLast_cons_of_ne_nil (List.cons_ne_nil _ _)]
      refine List.forall_mem_cons.2 ⟨?_, htail⟩
      rintro rfl
      exact hhead (head_of_names_eq hnames)

/-! ## §4. Resolving is walking. -/

/-- Letters in lower case apart, every character comes from itself alone. -/
theorem eq_of_toLower_eq (h : c.toLower = d) (hd : d.isLower = false) : c = d := by
  unfold Char.toLower at h
  split at h
  next hupper =>
    exfalso
    have hlow : 65 ≤ c.toNat := by simpa [UInt32.le_iff_toNat_le] using hupper.1
    have hhigh : c.toNat ≤ 90 := by simpa [UInt32.le_iff_toNat_le] using hupper.2
    have hval : d.toNat = c.toNat + 32 := by
      rw [← h]
      show (c.val + ('a'.val - 'A'.val)).toNat = c.val.toNat + 32
      rw [UInt32.toNat_add]
      have hc : c.val.toNat = c.toNat := rfl
      have hshift : ('a'.val - 'A'.val).toNat = 32 := by decide
      omega
    have hlower : (decide (97 ≤ d.val) && decide (d.val ≤ 122)) = true := by
      simp [UInt32.le_iff_toNat_le]
      omega
    exact absurd (hd.symm.trans hlower) nofun
  next => exact h

theorem mem_of_mem_lowered (h : d ∈ lowered s) (hd : d.isLower = false) : d ∈ s := by
  obtain ⟨c, hc, heq⟩ := List.mem_map.1 h
  rwa [← eq_of_toLower_eq heq hd]

theorem eq_of_lowered_eq (hp : ∀ d ∈ p, d.isLower = false) (h : lowered s = p) : s = p := by
  induction s generalizing p with
  | nil => exact h
  | cons c s ih =>
    cases p with
    | nil => exact absurd h nofun
    | cons d p =>
      obtain ⟨hd, hp⟩ := List.forall_mem_cons.1 hp
      obtain ⟨hc, hs⟩ := List.cons.inj h
      rw [eq_of_toLower_eq hc hd, ih hp hs]

/-- Of the spellings of two dots a name can only be the plain one. -/
theorem IsName.isDoubleDot_eq (h : IsName p) : isDoubleDot p = decide (p = ['.', '.']) := by
  have hdot : ∀ d ∈ ['.', '.'], d.isLower = false := by simp
  have hpercent : '%' ∉ lowered p := fun hmem =>
    absurd (h _ (mem_of_mem_lowered hmem (by decide))) (by decide)
  rw [Bool.eq_iff_iff, decide_eq_true_eq]
  constructor
  · intro hdots
    unfold isDoubleDot at hdots
    rw [List.contains_eq_mem, decide_eq_true_eq] at hdots
    rcases List.mem_cons.1 hdots with heq | hother
    · exact eq_of_lowered_eq hdot heq
    · have hall : ∀ t ∈ [".%2e".toList, "%2e.".toList, "%2e%2e".toList], '%' ∈ t := by decide
      exact absurd (hall _ hother) hpercent
  · rintro rfl
    decide

theorem IsName.isSingleDot_eq (h : IsName p) : isSingleDot p = decide (p = ['.']) := by
  have hdot : ∀ d ∈ ['.'], d.isLower = false := by simp
  have hpercent : '%' ∉ lowered p := fun hmem =>
    absurd (h _ (mem_of_mem_lowered hmem (by decide))) (by decide)
  rw [Bool.eq_iff_iff, decide_eq_true_eq]
  constructor
  · intro hdots
    unfold isSingleDot at hdots
    rw [List.contains_eq_mem, decide_eq_true_eq] at hdots
    rcases List.mem_cons.1 hdots with heq | hother
    · exact eq_of_lowered_eq hdot heq
    · have hall : ∀ t ∈ ["%2e".toList], '%' ∈ t := by decide
      exact absurd (hall _ hother) hpercent
  · rintro rfl
    decide

/-- No name holds a drive letter: the mark after the letter cannot stand in names. -/
theorem IsName.holdsDrive_eq_false (h : IsName p) : holdsDrive p = false := by
  have hprefix : IsName (p.takeWhile (· ≠ '\\')) := fun c hc => h c ((List.takeWhile_sublist _).subset hc)
  unfold holdsDrive isDrive
  split
  next letter mark heq =>
    rw [heq] at hprefix
    have hmark : isPathChar mark = true := hprefix.isPathText mark (by simp)
    have hcolon : mark ≠ ':' := ne_of_isPathChar hmark (by decide)
    have hbar : mark ≠ '|' := ne_of_isPathChar hmark (by decide)
    simp [hcolon, hbar]
  next => rfl

theorem shortened_eq (h : ∀ q ∈ front, IsName q) : shortened front = front.dropLast := by
  unfold shortened
  rw [if_neg]
  intro hany
  rw [Option.any_eq_true] at hany
  obtain ⟨q, hq, hdrive⟩ := hany
  rw [(h q (List.mem_of_getLast? hq)).holdsDrive_eq_false] at hdrive
  exact absurd hdrive nofun

theorem step_eq (hfront : ∀ q ∈ front, IsName q) (hp : IsName p) : step front p =
    if isDoubleDot p then shortened front else if isSingleDot p then front else extended false front p := by
  unfold step extended
  rw [hp.isDoubleDot_eq, hp.isSingleDot_eq, shortened_eq hfront]
  simp

/-- **Names are resolved by walking along them.** -/
theorem resolve_eq_walk (hfront : ∀ q ∈ front, IsName q) (hsegments : ∀ q ∈ segments, IsName q) :
    resolve false front segments = walk front segments := by
  -- both recursions treat the last segment apart, so the cases split on what follows the first
  induction segments generalizing front with
  | nil => rfl
  | cons p rest ih =>
    obtain ⟨hp, hrest⟩ := List.forall_mem_cons.1 hsegments
    have hstep : ∀ q ∈ step front p, IsName q := forall_step hfront fun _ => hp
    cases rest with
    | nil =>
      unfold resolve walk isDots
      rw [step_eq hfront hp, hp.isDoubleDot_eq, hp.isSingleDot_eq]
      by_cases hup : p = ['.', '.']
      · simp [hup]
      · by_cases hdot : p = ['.']
        · simp [hdot]
        · simp [hup, hdot, extended]
    | cons q rest =>
      have hmore : resolve false front (p :: q :: rest) =
          if isDoubleDot p then resolve false (shortened front) (q :: rest)
          else if isSingleDot p then resolve false front (q :: rest)
          else resolve false (extended false front p) (q :: rest) := rfl
      unfold walk
      rw [← ih hstep hrest, step_eq hfront hp, hmore, apply_ite (resolve false · (q :: rest)),
        apply_ite (resolve false · (q :: rest))]

theorem segmentsAfter_eq {scheme : List Char} (hscheme : scheme ≠ fileScheme) (hfront : ∀ q ∈ front, IsName q)
    (hs : IsPathText s) : segmentsAfter scheme front s = walk front (names s) := by
  have hpieces : pieces (isSlash (isSpecial scheme)) s = names s := pieces_congr fun c hc => isSlash_eq (hs c hc)
  have hencoded : (names s).map (encoded encodesInPath) = names s := by
    refine (List.map_congr_left fun p hp => ?_).trans (List.map_id _)
    exact encoded_eq_self fun c hc => encodesInPath_eq_false ((hs.isName p hp).isPathText c hc)
  unfold segmentsAfter
  rw [hpieces, hencoded, decide_eq_false hscheme]
  exact resolve_eq_walk hfront hs.isName

end OpenApi.Url
