/-
  OpenApi.Proofs.Url.Authorities — authorities that are mere hosts.

  Texts of names and slashes hold neither the at sign that ends a user name nor the colon before a port. So what such a
  text writes after two slashes is a host, and a path after it (`eq_of_parseServed`).
-/
import OpenApi.Proofs.Url.Relative

namespace OpenApi.Url

open Text

variable {s : List Char} {c : Cut} {url : Url}

theorem splitPort_eq (h : ':' ∉ s) : ∀ inBrackets, splitPort inBrackets s = (s, none) := by
  induction s with
  | nil => exact fun _ => rfl
  | cons d s ih =>
    intro inBrackets
    have hd : d ≠ ':' := fun heq => h (heq ▸ List.mem_cons_self)
    have hs : ':' ∉ s := fun hmem => h (List.mem_cons_of_mem d hmem)
    unfold splitPort
    simp [hd, ih hs]

/-- Without at sign and colon an authority is a host. -/
theorem eq_of_parseAuthority {isLast : Bool} {a : Authority} {more : List Char} (hs : IsPathText s)
    (h : parseAuthority "http".toList isLast s = .ok (a, more)) :
    more = [] ∧ ∃ host, Host.parse s = .ok host ∧ a = ⟨([], []), host, none⟩ := by
  -- a text of path characters has no user and no port, so what is left of the parser is the host
  have hat : splitLast '@' s = none := splitLast_eq_none.2 (hs.not_mem (by decide))
  have hport : splitPort false s = (s, none) := splitPort_eq (hs.not_mem (by decide)) false
  have huser : userOf [] = ([], []) := rfl
  have hspecial : isSpecial "http".toList = true := by decide
  have hnone : port? "http".toList [] = .ok none := rfl
  unfold parseAuthority at h
  simp only [hat, hport, huser, hspecial, hnone, Option.getD_none, List.takeWhile_nil, List.dropWhile_nil,
    List.head?_nil, Option.any_none, if_true] at h
  split at h
  next => exact absurd h nofun
  next =>
    obtain ⟨host, hhost, h⟩ := Outcome.bind_eq_ok.1 h
    split at hhost
    next => exact absurd hhost nofun
    next =>
      split at h
      next => exact absurd h nofun
      next =>
        obtain ⟨rfl, rfl⟩ := Prod.mk.inj (Except.ok.inj h)
        exact ⟨rfl, host, hhost, rfl⟩

/-- What follows the host: the slash after it is part of no name. -/
def afterHost (s : List Char) : List Char := (s.dropWhile (· ≠ '/')).drop 1

theorem IsPathText.afterHost (h : IsPathText s) : IsPathText (afterHost s) := fun c hc =>
  h c ((List.dropWhile_sublist _).subset (List.mem_of_mem_drop hc))

theorem pathOf_eq {scheme : List Char} (hspecial : isSpecial scheme = true) (hfile : scheme ≠ fileScheme)
    (hs : IsPathText s) :
    pathOf scheme (s.dropWhile (· ≠ '/')) = .segments (walk [] (names (Url.afterHost s))) := by
  have hafter := hs.afterHost
  unfold Url.afterHost at hafter ⊢
  cases hrest : s.dropWhile (· ≠ '/') with
  | nil =>
    unfold pathOf
    rw [if_pos hspecial]
    rfl
  | cons d rest =>
    rw [hrest, List.drop_one, List.tail_cons] at hafter
    -- the host ends at a slash, which is where the path starts
    have hslash : d = '/' := by
      have hhead := List.head?_dropWhile_not (· ≠ '/') s
      rw [hrest] at hhead
      simpa using hhead
    subst hslash
    show pathAfter scheme [] rest = _
    rw [List.drop_one, List.tail_cons]
    unfold pathAfter pathOfSegments
    rw [if_neg hfile, segmentsAfter_eq hfile (fun q hq => absurd hq List.not_mem_nil) hafter]

theorem dropWhile_congr {p q : Char → Bool} (h : ∀ d ∈ s, p d = q d) : s.dropWhile p = s.dropWhile q := by
  induction s with
  | nil => rfl
  | cons d s ih =>
    obtain ⟨hd, hs⟩ := List.forall_mem_cons.1 h
    rw [List.dropWhile_cons, List.dropWhile_cons, hd, ih hs]

/-- **What names and slashes write after two slashes is a host and a path.** -/
theorem eq_of_parseServed (hs : IsPathText s) (hquery : c.query = none) (hfragment : c.fragment = none)
    (h : parseServed "http".toList s c = .ok url) :
    ∃ host, '/' ∉ host.text ∧
      url = ⟨"http".toList, some ⟨([], []), host, none⟩, .segments (walk [] (names (afterHost s))), none, none⟩ := by
  have hrest : (s.dropWhile fun d => !isSlash (isSpecial "http".toList) d) = s.dropWhile (· ≠ '/') := by
    refine dropWhile_congr fun d hd => ?_
    rw [isSlash_eq (hs d hd), decide_not]
  have hplace : IsPathText (s.takeWhile fun d => !isSlash (isSpecial "http".toList) d) := fun d hd =>
    hs d ((List.takeWhile_sublist _).subset hd)
  unfold parseServed at h
  dsimp only at h
  obtain ⟨⟨a, more⟩, ha, h⟩ := Outcome.bind_eq_ok.1 h
  obtain ⟨rfl, host, hhost, rfl⟩ := eq_of_parseAuthority hplace ha
  refine ⟨host, Host.not_mem_of_parse .slash hhost, ?_⟩
  rw [← Except.ok.inj h, List.nil_append, hrest, pathOf_eq (by decide) (by decide) hs, hquery, hfragment]
  rfl

end OpenApi.Url
