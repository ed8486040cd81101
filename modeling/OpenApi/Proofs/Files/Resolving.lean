/-
  OpenApi.Proofs.Files.Resolving — resolving paths as URLs.

  A path is resolved by joining URLs, and the file is what is left of the URL behind the root. Of a path without host
  the URL that is joined is that of the target (`join_target`), and so the file is its text (`file_of_resolveFile`).
-/
import OpenApi.Proofs.Files.Targets
import OpenApi.Reference

namespace OpenApi.SchemaRef

open Text Url

variable {doc path s : List Char} {segments : List (List Char)} {url : Url}

/-! ## §1. Resolving. -/

/-- The URL of the file to which names lead from the root. -/
def served (segments : List (List Char)) : Url := { root with path := .segments segments }

theorem served_join (hs : IsPathText s) (hne : s ≠ []) :
    (served segments).join s = (served segments).resolveServed ⟨s, none, none⟩ := by
  unfold join parseWith
  rw [hs.cleaned_eq]
  dsimp only
  rw [hs.scheme?_eq_none]
  dsimp only
  split
  next heq => exact absurd (hs '#' (by simp)) (by decide)
  next heq => exact absurd heq nofun
  next =>
    have hscheme : root.scheme ≠ fileScheme := by decide
    exact (if_neg hscheme).trans (by rw [hs.cut_eq])

theorem pathAfter_served (hfront : ∀ p ∈ segments, IsName p) (hs : IsPathText s) :
    pathAfter "http".toList segments s = .segments (walk segments (names s)) := by
  unfold pathAfter pathOfSegments
  rw [if_neg (by decide), segmentsAfter_eq (by decide) hfront hs]

/-- A path that starts with a name is walked from the directory. -/
theorem join_relative (hs : IsPathText s) (hne : s ≠ []) (hslash : s.head? ≠ some '/')
    (hsegments : ∀ p ∈ segments.dropLast, IsName p) :
    (served segments).join s = .ok (served (walk segments.dropLast (names s))) := by
  rw [served_join hs hne]
  cases s with
  | nil => exact absurd rfl hne
  | cons c rest =>
    have hc : isSlash true c = false := by
      rw [isSlash_eq hs.of_cons.1]
      simpa using hslash
    unfold resolveServed
    dsimp only
    rw [hc, if_neg Bool.false_ne_true]
    show Except.ok ((served segments).replacePath (pathAfter "http".toList segments.dropLast (c :: rest)) _) = _
    rw [pathAfter_served hsegments hs]
    rfl

/-- A path that starts with a slash is walked from the root. -/
theorem join_rooted (hs : IsPathText ('/' :: s)) (hslash : s.head? ≠ some '/') :
    (served segments).join ('/' :: s) = .ok (served (walk [] (names s))) := by
  have hrest : IsPathText s := hs.of_cons.2
  rw [served_join hs (List.cons_ne_nil _ _)]
  have hpath : pathAfter "http".toList [] s = .segments (walk [] (names s)) := pathAfter_served no_names hrest
  -- a lone slash is the root itself; otherwise the second character decides whether a host would start here
  cases s with
  | nil =>
    show Except.ok ((served segments).replacePath (pathAfter "http".toList [] []) _) = _
    rw [hpath]
    rfl
  | cons d rest =>
    have hd : isSlash true d = false := by
      rw [isSlash_eq hrest.of_cons.1]
      simpa using hslash
    unfold resolveServed
    dsimp only
    rw [if_pos (by decide), hd, if_neg Bool.false_ne_true]
    show Except.ok ((served segments).replacePath (pathAfter "http".toList [] (d :: rest)) _) = _
    rw [hpath]
    rfl

/-- A path that starts with two slashes names a host, and is walked from its root. -/
theorem join_hosted (hs : IsPathText ('/' :: '/' :: s)) (h : (served segments).join ('/' :: '/' :: s) = .ok url) :
    ∃ host, '/' ∉ host.text ∧
      url = ⟨"http".toList, some ⟨([], []), host, none⟩, .segments (walk [] (names (afterHost s))), none, none⟩ := by
  rw [served_join hs (List.cons_ne_nil _ _)] at h
  exact eq_of_parseServed hs.of_cons.2.of_cons.2 rfl rfl h

/-! ## §2. Files. -/

theorem segmentsText_eq (hne : segments ≠ []) : segmentsText segments = '/' :: joinWith ['/'] segments := by
  induction segments with
  | nil => exact absurd rfl hne
  | cons p rest ih =>
    cases rest with
    | nil => simp [segmentsText, joinWith]
    | cons q rest =>
      have hrest := ih (List.cons_ne_nil _ _)
      unfold segmentsText at hrest ⊢
      rw [List.flatMap_cons, hrest]
      simp [joinWith]

/-- The text of a URL with a host and a path. -/
theorem text_hosted (host : Host) (hne : segments ≠ []) :
    Url.text ⟨"http".toList, some ⟨([], []), host, none⟩, .segments segments, none, none⟩ =
      "http://".toList ++ host.text ++ '/' :: joinWith ['/'] segments := by
  rw [← segmentsText_eq hne]
  simp [Url.text, Authority.text, Authority.userText, Path.text, partText]

theorem root_text : root.text = "http://".toList ++ "example.invalid".toList ++ ['/'] := by decide

/-- What follows the root in the text of a URL with a host, if that is the host of the root. -/
theorem afterHead_hosted {host : Host} {file : List Char} (hhost : '/' ∉ host.text) (hne : segments ≠ [])
    (h : afterHead root.text
      (Url.text ⟨"http".toList, some ⟨([], []), host, none⟩, .segments segments, none, none⟩) = some file) :
    file = joinWith ['/'] segments := by
  have htext := afterHead_eq_some h
  rw [text_hosted host hne, root_text, List.append_assoc, List.append_assoc, List.append_assoc] at htext
  -- both hosts end at the first slash that follows
  have hcut := congrArg (splitFirst '/') (List.append_cancel_left htext)
  rw [splitFirst_append hhost, List.singleton_append, splitFirst_append (by decide)] at hcut
  exact (Prod.mk.inj (Option.some.inj hcut)).2.symm

theorem afterHead_served (hne : segments ≠ []) :
    afterHead root.text (served segments).text = some (joinWith ['/'] segments) := by
  have htext : (served segments).text =
      "http://".toList ++ "example.invalid".toList ++ '/' :: joinWith ['/'] segments :=
    text_hosted (.name "example.invalid".toList) hne
  have hhead : "http://".toList ++ "example.invalid".toList ++ '/' :: joinWith ['/'] segments =
      root.text ++ joinWith ['/'] segments := by rw [root_text]; simp
  rw [htext, hhead]
  exact afterHead_append _ _

/-- The document as a base. -/
theorem join_document (hdoc : IsDocumentName doc) : root.join doc = .ok (served (names doc)) := by
  have hwalk : walk ([[]] : List (List Char)).dropLast (names doc) = names doc :=
    walk_eq_append fun p hp => (hdoc.plain p hp).2
  have hjoin : (served [[]]).join doc = .ok (served (walk ([[]] : List (List Char)).dropLast (names doc))) :=
    join_relative hdoc.text hdoc.ne_nil hdoc.head_ne_slash no_names
  rwa [hwalk] at hjoin

/-- What is left of a URL as a file. -/
def fileIn (url : Url) : Option (List Char) :=
  match afterHead root.text url.text with
  | some (c :: file) => some (c :: file)
  | _ => none

theorem resolveFile_eq (hdoc : IsDocumentName doc) : resolveFile path doc =
    match (served (names doc)).join path with
    | .error _ => none
    | .ok url => fileIn url := by
  unfold resolveFile
  rw [join_document hdoc]
  rfl

theorem fileIn_eq_some {file : List Char} (h : fileIn url = some file) :
    afterHead root.text url.text = some file ∧ file ≠ [] := by
  unfold fileIn at h
  split at h
  next c rest heq =>
    rw [← Option.some.inj h]
    exact ⟨heq, List.cons_ne_nil _ _⟩
  next => exact absurd h nofun

theorem fileIn_served (hne : segments ≠ []) (hfile : joinWith ['/'] segments ≠ []) :
    fileIn (served segments) = some (joinWith ['/'] segments) := by
  unfold fileIn
  rw [afterHead_served hne]
  cases hjoin : joinWith ['/'] segments with
  | nil => exact absurd hjoin hfile
  | cons c file => rfl

/-- The walks to targets that need no host. -/
theorem join_target (hdoc : IsDocumentName doc) (hpath : IsPathText path) (hne : path ≠ [])
    (hhost : path.take 2 ≠ ['/', '/']) : (served (names doc)).join path = .ok (served (target doc path)) := by
  by_cases hslash : path.head? = some '/'
  · obtain ⟨rest, rfl⟩ : ∃ rest, path = '/' :: rest := by
      cases path with
      | nil => exact absurd rfl hne
      | cons c rest => exact ⟨rest, by rw [Option.some.inj hslash]⟩
    have hrest : rest.head? ≠ some '/' := by
      intro hhead
      cases rest with
      | nil => exact absurd hhead nofun
      | cons d rest => exact hhost (by simp [Option.some.inj hhead])
    rw [target_rooted hrest]
    exact join_rooted hpath hrest
  · rw [target_relative hne hslash]
    exact join_relative hpath hne hslash hdoc.isName

/-- The file of a path that resolves is its target. -/
theorem file_of_resolveFile {file : List Char} (hdoc : IsDocumentName doc) (hpath : IsPathText path) (hne : path ≠ [])
    (h : resolveFile path doc = some file) : file = joinWith ['/'] (target doc path) ∧ file ≠ [] := by
  rw [resolveFile_eq hdoc] at h
  by_cases hhost : path.take 2 = ['/', '/']
  · obtain ⟨rest, rfl⟩ : ∃ rest, path = '/' :: '/' :: rest :=
      ⟨path.drop 2, by rw [← List.take_append_drop 2 path, hhost]; rfl⟩
    split at h
    next => exact absurd h nofun
    next url hjoin =>
      obtain ⟨hafter, hfile⟩ := fileIn_eq_some h
      obtain ⟨host, hslash, rfl⟩ := join_hosted hpath hjoin
      have htarget : target doc ('/' :: '/' :: rest) ≠ [] := target_ne_nil
      exact ⟨afterHead_hosted hslash htarget hafter, hfile⟩
  · rw [join_target hdoc hpath hne hhost] at h
    obtain ⟨hafter, hfile⟩ := fileIn_eq_some h
    rw [afterHead_served target_ne_nil] at hafter
    exact ⟨(Option.some.inj hafter).symm, hfile⟩

/-- Without a host, a path is resolved unless its walk ends at the root. -/
theorem resolved_target (hdoc : IsDocumentName doc) (hpath : IsPathText path) (hhost : path.take 2 ≠ ['/', '/'])
    (hempty : target doc path ≠ [[]]) : (if path.isEmpty then some doc else resolveFile path doc) =
      some (joinWith ['/'] (target doc path)) := by
  cases path with
  | nil => exact congrArg some (joinWith_pieces '/' _).symm
  | cons c rest =>
    show resolveFile (c :: rest) doc = _
    rw [resolveFile_eq hdoc, join_target hdoc hpath (List.cons_ne_nil _ _) hhost]
    exact fileIn_served target_ne_nil (joinWith_ne_nil target_ne_nil hempty)

end OpenApi.SchemaRef
