/-
  OpenApi.Proofs.Url.Marks — where number signs stand in URLs that were read.

  A number sign starts the fragment of a URL. Before it there is none: a text is cut at its first one, a scheme has
  letters, a host is refused with one, and it is encoded elsewhere. So the text of a URL that was read from a text
  without number sign holds none either, if the URL was resolved against a base with none before its fragment
  (`mark_not_mem_text_of_join`).
-/
import Mathlib.Data.List.TakeWhile
import OpenApi.Proofs.Outcome
import OpenApi.Proofs.Url.Relative
import OpenApi.Proofs.Url.Segments

namespace OpenApi.Url

open Text

variable {scheme s : List Char} {base url : Url} {c : Cut} {path : Path} {host : Host}

/-! ## §1. URLs without number sign before the fragment. -/

/-- No part of the authority holds a number sign. -/
structure Authority.MarkFree (a : Authority) : Prop where
  name : '#' ∉ a.user.1
  password : '#' ∉ a.user.2
  host : '#' ∉ a.host.text

/-- The path holds no number sign. -/
def Path.MarkFree : Path → Prop
  | flat text => '#' ∉ text
  | segments ss => Plain ss

/-- No part of the URL holds a number sign, the fragment apart. -/
structure MarkFree (u : Url) : Prop where
  scheme : '#' ∉ u.scheme
  authority : ∀ a, u.authority = some a → a.MarkFree
  path : u.path.MarkFree
  query : ∀ q, u.query = some q → '#' ∉ q

theorem Path.MarkFree.list (h : path.MarkFree) : Plain path.list := by
  cases path with
  | flat => exact .nil
  | segments segments => exact h

theorem Authority.MarkFree.text {a : Authority} (h : a.MarkFree) : '#' ∉ a.text := by
  -- the text of the user is empty, a name, or a name with a password
  have huser : '#' ∉ a.userText := by
    have hname := h.name
    have hpassword := h.password
    unfold Authority.userText
    split
    next => exact List.not_mem_nil
    next name heq =>
      rw [heq] at hname
      simpa using hname
    next name password _ heq =>
      rw [heq] at hname hpassword
      simp only [List.mem_append, not_or]
      exact ⟨⟨⟨hname, by decide⟩, hpassword⟩, by decide⟩
  unfold Authority.text
  simp only [List.mem_append, not_or]
  refine ⟨⟨huser, h.host⟩, ?_⟩
  cases a.port with
  | none => exact List.not_mem_nil
  | some port => exact List.not_mem_cons_of_ne_of_not_mem (by decide) (Host.not_mem_toDigits .mark 10 port)

theorem Path.MarkFree.text (h : path.MarkFree) (hasAuthority : Bool) : '#' ∉ path.text hasAuthority := by
  cases path with
  | flat text => exact h
  | segments segments =>
    have hsegments : '#' ∉ segmentsText segments := by
      unfold segmentsText
      rw [List.mem_flatMap]
      rintro ⟨p, hp, hmem⟩
      rcases List.mem_cons.1 hmem with heq | hmem
      · exact absurd heq (by decide)
      · exact h p hp hmem
    unfold Path.text
    rw [List.mem_append, not_or]
    refine ⟨?_, hsegments⟩
    split
    next => decide
    next => exact List.not_mem_nil

/-- Without a fragment, the text of such a URL holds no number sign. -/
theorem MarkFree.text (h : url.MarkFree) (hfragment : url.fragment = none) : '#' ∉ url.text := by
  have hquery : '#' ∉ partText '?' url.query := by
    cases hq : url.query with
    | none => exact List.not_mem_nil
    | some q => exact List.not_mem_cons_of_ne_of_not_mem (by decide) (h.query q hq)
  unfold Url.text
  simp only [List.mem_append, not_or, hfragment]
  refine ⟨⟨⟨⟨⟨h.scheme, by decide⟩, ?_⟩, h.path.text _⟩, hquery⟩, List.not_mem_nil⟩
  split
  next a ha =>
    have htext := (h.authority a ha).text
    simpa using htext
  next => exact List.not_mem_nil

/-! ## §2. Texts that are cut. -/

/-- The cut text holds no number sign before its fragment. -/
structure Cut.MarkFree (c : Cut) : Prop where
  body : '#' ∉ c.body
  query : ∀ q, c.query = some q → '#' ∉ q

theorem cut_fragment : (cut s).fragment = (splitFirst '#' s).map Prod.snd := by
  unfold cut
  cases hcut : splitFirst '#' s with
  | none =>
    dsimp only
    split
    next => rfl
    next => rfl
  | some p =>
    dsimp only
    split
    next => rfl
    next => rfl

theorem markFree_cut : (cut s).MarkFree := by
  have hwhole : ∀ {front : List Char} {fragment : Option (List Char)}, '#' ∉ front →
      (⟨front, none, fragment⟩ : Cut).MarkFree := fun h => ⟨h, fun _ hq => absurd hq nofun⟩
  have hquery : ∀ {front body query : List Char} {fragment : Option (List Char)}, '#' ∉ front →
      splitFirst '?' front = some (body, query) → (⟨body, some query, fragment⟩ : Cut).MarkFree := by
    intro front body query fragment h hcut
    obtain ⟨rfl, -⟩ := splitFirst_eq_some hcut
    refine ⟨fun hmem => h (List.mem_append_left _ hmem), ?_⟩
    rintro q ⟨⟩
    exact fun hmem => h (List.mem_append_right _ (List.mem_cons_of_mem _ hmem))
  unfold cut
  -- With a fragment or without one, no number sign stands before it, where the query is cut off.
  cases hcut : splitFirst '#' s with
  | none =>
    have hfront := splitFirst_eq_none hcut
    dsimp only
    split
    next hat => exact hquery hfront hat
    next => exact hwhole hfront
  | some p =>
    have hfront := (splitFirst_eq_some hcut).2
    dsimp only
    split
    next hat => exact hquery hfront hat
    next => exact hwhole hfront

/-- The URL was read of the cut text: its fragment is the one of the text. -/
structure ReadOf (c : Cut) (u : Url) : Prop extends u.MarkFree where
  fragment : u.fragment = fragmentOf c.fragment

theorem mark_not_mem_queryOf {q : List Char} {query : Option (List Char)} (h : queryOf scheme query = some q) :
    '#' ∉ q := by
  obtain ⟨text, -, rfl⟩ := Option.map_eq_some_iff.1 h
  refine mark_not_mem_encoded ?_ text
  unfold encodesInQuery
  simp

/-! ## §3. Parts. -/

theorem markFree_pathOfSegments {segments : List (List Char)} (h : Plain segments) :
    (pathOfSegments scheme segments).MarkFree := by
  unfold pathOfSegments
  split
  next =>
    split
    next => simp [Path.MarkFree, Plain]
    next => exact h.subset (List.dropWhile_sublist _).subset
  next => exact h

theorem markFree_pathAfter {front : List (List Char)} (h : Plain front) : (pathAfter scheme front s).MarkFree :=
  markFree_pathOfSegments (plain_segmentsAfter h)

theorem markFree_pathOf : (pathOf scheme s).MarkFree := by
  unfold pathOf
  split
  next =>
    split
    next => simp [Path.MarkFree, Plain]
    next => exact Plain.nil
  next => exact markFree_pathAfter .nil

/-- The host of a special scheme must not be empty. -/
theorem mark_not_mem_of_served {text : List Char}
    (h : (if text.isEmpty then .error .emptyHost else Host.parse text) = .ok host) : '#' ∉ host.text := by
  split at h
  next => exact absurd h nofun
  next => exact Host.not_mem_of_parse .mark h

theorem mark_not_mem_userOf (user : List Char) : '#' ∉ (userOf user).1 ∧ '#' ∉ (userOf user).2 := by
  have hencoded : ∀ text, '#' ∉ encoded encodesInUser text := mark_not_mem_encoded (by decide)
  unfold userOf
  split
  next name password _ => exact ⟨hencoded name, hencoded password⟩
  next => exact ⟨hencoded user, List.not_mem_nil⟩

theorem markFree_parseAuthority {isLast : Bool} {a : Authority} {more : List Char}
    (h : parseAuthority scheme isLast s = .ok (a, more)) : a.MarkFree := by
  unfold parseAuthority at h
  dsimp only at h
  -- with a user name or without one, and whatever the scheme, the host is read before the port
  split at h
  all_goals
    dsimp only at h
    split at h
    next => exact absurd h nofun
    next =>
      split at h
      all_goals
        obtain ⟨host, hhost, h⟩ := Outcome.bind_eq_ok.1 h
        have htext : '#' ∉ host.text := by
          first
            | exact mark_not_mem_of_served hhost
            | exact Host.mark_not_mem_of_parseOpaque hhost
        split at h
        next => exact absurd h nofun
        next =>
          split at h
          next => exact absurd h nofun
          next =>
            obtain ⟨port, -, h⟩ := Outcome.bind_eq_ok.1 h
            obtain ⟨rfl, -⟩ := Prod.mk.inj (Except.ok.inj h)
            exact ⟨(mark_not_mem_userOf _).1, (mark_not_mem_userOf _).2, htext⟩

/-! ## §4. Resolving against a base. -/

/-- If a URL is given, it was read of the cut text. -/
def Reads (c : Cut) (x : Except Problem Url) : Prop := ∀ url, x = .ok url → url.ReadOf c

theorem Reads.ok (h : url.ReadOf c) : Reads c (.ok url) := by
  intro url' heq
  rwa [← Except.ok.inj heq]

theorem Reads.bind {α : Type} {x : Except Problem α} {f : α → Except Problem Url}
    (h : ∀ a, x = .ok a → Reads c (f a)) : Reads c (x >>= f) := by
  intro url heq
  obtain ⟨a, ha, hurl⟩ := Outcome.bind_eq_ok.1 heq
  exact h a ha url hurl

theorem Reads.error {p : Problem} : Reads c (.error p) := fun _ heq => absurd heq nofun

theorem readOf_replaceEnd (h : base.MarkFree) : (base.replaceEnd c).ReadOf c := by
  unfold replaceEnd
  split
  next query hquery =>
    exact ⟨⟨h.scheme, h.authority, h.path, fun q hq => mark_not_mem_queryOf hq⟩, rfl⟩
  next => exact ⟨⟨h.scheme, h.authority, h.path, h.query⟩, rfl⟩

theorem readOf_replacePath (h : base.MarkFree) (hpath : path.MarkFree) : (base.replacePath path c).ReadOf c :=
  ⟨⟨h.scheme, h.authority, hpath, fun _ hq => mark_not_mem_queryOf hq⟩, rfl⟩

theorem readOf_fileUrl (hhost : '#' ∉ host.text) (hpath : path.MarkFree) : (fileUrl host path c).ReadOf c := by
  have hscheme : '#' ∉ fileScheme := by decide
  refine ⟨⟨hscheme, ?_, hpath, fun _ hq => mark_not_mem_queryOf hq⟩, rfl⟩
  rintro a ⟨⟩
  exact ⟨List.not_mem_nil, List.not_mem_nil, hhost⟩

theorem mark_not_mem_empty : '#' ∉ (Host.name []).text := List.not_mem_nil

theorem reads_parseServed (hscheme : '#' ∉ scheme) : Reads c (parseServed scheme s c) := by
  unfold parseServed
  refine .bind fun ⟨a, more⟩ ha => .ok ?_
  refine ⟨⟨hscheme, ?_, markFree_pathOf, fun _ hq => mark_not_mem_queryOf hq⟩, rfl⟩
  rintro a' ⟨⟩
  exact markFree_parseAuthority ha

theorem reads_resolveServed (h : base.MarkFree) : Reads c (resolveServed base c) := by
  unfold resolveServed
  split
  next => exact .ok (readOf_replaceEnd h)
  next =>
    split
    next =>
      split
      next =>
        split
        next =>
          split
          next => exact reads_parseServed h.scheme
          next => exact reads_parseServed h.scheme
        next => exact .ok (readOf_replacePath h (markFree_pathAfter .nil))
      next => exact .ok (readOf_replacePath h (markFree_pathAfter .nil))
    next => exact .ok (readOf_replacePath h (markFree_pathAfter (h.path.list.subset (List.dropLast_subset _))))

theorem reads_parseFileHost : Reads c (parseFileHost s c) := by
  have hlocal : '#' ∉ localHost.text := by decide
  unfold parseFileHost
  dsimp only
  split
  next => exact .ok (readOf_fileUrl mark_not_mem_empty (markFree_pathAfter .nil))
  next =>
    split
    -- the host is the local one or the one written, and its text is needed only where it stays
    all_goals
      refine .bind fun host hhost => ?_
      have htext : '#' ∉ host.text := by
        first
          | exact Host.not_mem_of_parse .mark hhost
          | exact Except.ok.inj hhost ▸ hlocal
      split
      next => exact .ok (readOf_fileUrl mark_not_mem_empty (markFree_pathAfter .nil))
      next =>
        refine .ok (readOf_fileUrl ?_ (markFree_pathOfSegments (plain_segmentsAfter .nil)))
        split
        next => exact mark_not_mem_empty
        next => exact htext

theorem mark_not_mem_hostOf {base : Option Url} (h : ∀ b, base = some b → b.MarkFree) :
    '#' ∉ (hostOf base).text := by
  unfold hostOf
  split
  next a ha =>
    obtain ⟨b, hb, hauthority⟩ := Option.bind_eq_some_iff.1 ha
    exact ((h b hb).authority a hauthority).host
  next => exact mark_not_mem_empty

theorem readOf_parseFileRoot {base : Option Url} (h : ∀ b, base = some b → b.MarkFree) :
    (parseFileRoot base s c).ReadOf c := by
  have hhost := mark_not_mem_hostOf h
  have hlist : Plain ((base.map (·.path.list)).getD []) := by
    cases base with
    | none => exact .nil
    | some b => exact (h b rfl).path.list
  unfold parseFileRoot
  split
  next => exact readOf_fileUrl mark_not_mem_empty (markFree_pathAfter .nil)
  next =>
    split
    next drive rest heq =>
      rw [heq] at hlist
      have hdrive : '#' ∉ drive := hlist drive List.mem_cons_self
      split
      next => exact readOf_fileUrl mark_not_mem_empty (markFree_pathAfter (List.forall_mem_singleton.2 hdrive))
      next => exact readOf_fileUrl hhost (markFree_pathAfter .nil)
    next => exact readOf_fileUrl hhost (markFree_pathAfter .nil)

theorem reads_parseFile {base : Option Url} (h : ∀ b, base = some b → b.MarkFree) : Reads c (parseFile base c) := by
  unfold parseFile
  -- by the number of slashes in front: a host, a root, or a path relative to the base
  split
  next first rest hbody =>
    split
    next =>
      split
      next =>
        split
        next => exact reads_parseFileHost
        next => exact .ok (readOf_parseFileRoot h)
      next => exact .ok (readOf_parseFileRoot h)
    next =>
      cases base with
      | none => exact .ok (readOf_fileUrl mark_not_mem_empty (markFree_pathAfter .nil))
      | some b =>
        dsimp only
        split
        next => exact .ok (readOf_fileUrl mark_not_mem_empty (markFree_pathAfter .nil))
        next => exact .ok (readOf_replacePath (h b rfl) (markFree_pathAfter (h b rfl).path.list.directory))
  next =>
    cases base with
    | none => exact .ok (readOf_fileUrl mark_not_mem_empty (by simp [Path.MarkFree, Plain]))
    | some b => exact .ok (readOf_replaceEnd (h b rfl))

/-! ## §5. Reading. -/

theorem mark_not_mem_scheme {rest : List Char} (h : scheme? s = some (scheme, rest)) : '#' ∉ scheme := by
  unfold scheme? at h
  split at h
  next =>
    split at h
    next =>
      obtain ⟨rfl, -⟩ := Prod.mk.inj (Option.some.inj h)
      intro hmem
      have hin : inScheme '#' = true := List.mem_takeWhile_imp (mem_of_mem_lowered hmem (by decide))
      exact absurd hin (by decide)
    next => exact absurd h nofun
  next => exact absurd h nofun

theorem reads_parseAfterScheme {base : Option Url} (h : ∀ b, base = some b → b.MarkFree) (hscheme : '#' ∉ scheme)
    (hc : c.MarkFree) : Reads c (parseAfterScheme base scheme c) := by
  -- the base counts only where its scheme is the one written
  have hsame : ∀ b, (base.filter fun b => b.scheme = scheme) = some b → b.MarkFree :=
    fun b hb => h b (Option.filter_eq_some_iff.1 hb).1
  have hnone : ∀ a : Authority, none = some a → a.MarkFree := fun _ ha => absurd ha nofun
  unfold parseAfterScheme
  dsimp only
  split
  next => exact reads_parseFile hsame
  next =>
    split
    next =>
      split
      next b hb =>
        split
        next => exact reads_resolveServed (hsame b hb)
        next => exact reads_parseServed hscheme
      next => exact reads_parseServed hscheme
    next =>
      split
      next => exact reads_parseServed hscheme
      next => exact .ok ⟨⟨hscheme, hnone, markFree_pathAfter .nil, fun _ hq => mark_not_mem_queryOf hq⟩, rfl⟩
      next =>
        have hbody : '#' ∉ encoded isControl c.body := mark_not_mem_encoded_of_not_mem hc.body
        exact .ok ⟨⟨hscheme, hnone, hbody, fun _ hq => mark_not_mem_queryOf hq⟩, rfl⟩

/-- What is cut when a text is read: what follows the scheme, or all of it. -/
def cutOf (s : List Char) : Cut :=
  match scheme? (cleaned s) with
  | some (_, rest) => cut rest
  | none => cut (cleaned s)

theorem reads_parseWith {base : Option Url} (h : ∀ b, base = some b → b.MarkFree) :
    Reads (cutOf s) (parseWith base s) := by
  unfold parseWith cutOf
  dsimp only
  cases hscheme : scheme? (cleaned s) with
  | some p => exact reads_parseAfterScheme h (mark_not_mem_scheme hscheme) markFree_cut
  | none =>
    cases base with
    | none => exact .error
    | some b =>
      dsimp only
      split
      next => exact .ok (readOf_replaceEnd (h b rfl))
      next => exact .error
      next =>
        split
        next => exact reads_parseFile h
        next => exact reads_resolveServed (h b rfl)

/-- Reading keeps the characters of a text. -/
theorem cleaned_subset : cleaned s ⊆ s := by
  intro d hd
  have hmem := List.mem_reverse.1 (List.mem_of_mem_filter hd)
  have hinner := (List.dropWhile_sublist _).subset hmem
  exact (List.dropWhile_sublist _).subset (List.mem_reverse.1 hinner)

/-- A text without number sign has no fragment. -/
theorem cutOf_fragment (h : '#' ∉ s) : (cutOf s).fragment = none := by
  have hcleaned : '#' ∉ cleaned s := fun hmem => h (cleaned_subset hmem)
  unfold cutOf
  split
  next rest hscheme =>
    -- what follows the scheme is a part of the cleaned text
    have hrest : '#' ∉ rest := by
      unfold scheme? at hscheme
      split at hscheme
      next hdrop =>
        split at hscheme
        next =>
          obtain ⟨-, rfl⟩ := Prod.mk.inj (Option.some.inj hscheme)
          intro hmem
          have hdropped := hdrop ▸ List.mem_cons_of_mem _ hmem
          exact hcleaned ((List.dropWhile_sublist _).subset hdropped)
        next => exact absurd hscheme nofun
      next => exact absurd hscheme nofun
    rw [cut_fragment, splitFirst_eq_none_of_not_mem hrest]
    rfl
  next =>
    rw [cut_fragment, splitFirst_eq_none_of_not_mem hcleaned]
    rfl

/-- **No number sign stands in the text of a URL** that was read from a text without one, whatever its base. -/
theorem mark_not_mem_text_of_join (hbase : base.MarkFree) (hs : '#' ∉ s) (h : base.join s = .ok url) :
    '#' ∉ url.text := by
  have hread : url.ReadOf (cutOf s) := reads_parseWith (fun _ hb => Option.some.inj hb ▸ hbase) url h
  refine hread.toMarkFree.text ?_
  rw [hread.fragment, cutOf_fragment hs]
  rfl

/-- Reading against such a base gives a URL that is such a base again. -/
theorem MarkFree.join (hbase : base.MarkFree) (h : base.join s = .ok url) : url.MarkFree :=
  (reads_parseWith (fun _ hb => Option.some.inj hb ▸ hbase) url h).toMarkFree

/-! ## §6. Names of files. -/

theorem markFree_ofFile (names : List (List Char)) : (ofFile names).MarkFree where
  scheme := by
    have hscheme : '#' ∉ fileScheme := by decide
    exact hscheme
  authority := by
    rintro a ⟨⟩
    exact ⟨List.not_mem_nil, List.not_mem_nil, mark_not_mem_empty⟩
  path := by
    unfold ofFile Path.MarkFree
    dsimp only
    split
    next => simp [Plain]
    next =>
      intro s hs
      obtain ⟨name, -, rfl⟩ := List.mem_map.1 hs
      exact mark_not_mem_encoded (by decide) name
  query := fun _ hq => absurd hq nofun

/-- **No number sign stands in the name of a file that a URL leads to**, where the URL is relative to a file. -/
theorem mark_not_mem_fileName {names : List (List Char)} {file : List Char}
    (h : (ofFile names).join s = .ok url) (hfile : url.fileName? = some file) : '#' ∉ file := by
  have hpath := ((markFree_ofFile names).join h).path
  unfold fileName? at hfile
  split at hfile
  next segments heq =>
    rw [heq] at hpath
    exact hpath file (List.mem_of_getLast? (Option.filter_eq_some_iff.1 hfile).1)
  next => exact absurd hfile nofun

end OpenApi.Url
