/-
  OpenApi.Proofs.Location.Pointers — pointers tell the keys of a document apart.

  Escaping takes every `/` out of a segment and can be undone (`unescape_escapeSegment`), so the `/` of a pointer
  are those between segments, and a path that is not empty is read back from its pointer (`pathOf_pointer`). What the
  report of unread keys and the errors about nodes print is such a pointer: the report prints one for each path
  (`Document.pointers_of_checkUnused`), an error the one of its node (`Source.About.pointers`). Different keys are
  never told by one pointer (`keys_told_apart`).
-/
import OpenApi.Proofs.Pairs.Alike
import OpenApi.Proofs.Text.Cut
import OpenApi.Proofs.Unread.KeyPaths

namespace OpenApi

/-! ## §1. Escaping a segment. -/

/-- The text with `image` in place of each `c`. -/
def replaced (c : Char) (image s : List Char) : List Char := s.flatMap fun d => if d = c then image else [d]

/-- What was replaced does not occur any more. -/
theorem not_mem_replaced {c : Char} {image : List Char} (h : c ∉ image) (s : List Char) : c ∉ replaced c image s := by
  intro hmem
  obtain ⟨d, -, hd⟩ := List.mem_flatMap.1 hmem
  by_cases hdc : d = c
  · rw [if_pos hdc] at hd
    exact h hd
  · rw [if_neg hdc] at hd
    exact hdc (List.mem_singleton.1 hd).symm

/-- Escaping replaces each `~`, and then each `/`. In the other order the `~` that stands for a `/` would be
escaped once more. -/
theorem escapeSegment_eq_replaced (s : List Char) :
    escapeSegment s = replaced '/' ['~', '1'] (replaced '~' ['~', '0'] s) := by
  fun_induction escapeSegment s with
  | case1 => rfl
  | case2 s ih => simp [replaced, ih]
  | case3 s ih => simp [replaced, ih]
  | case4 c s htilde hslash ih =>
    have hc : c ≠ '~' ∧ c ≠ '/' := ⟨htilde, hslash⟩
    simp [replaced, hc, ih]

theorem slash_not_mem_escapeSegment (s : List Char) : '/' ∉ escapeSegment s := by
  rw [escapeSegment_eq_replaced]
  exact not_mem_replaced (by decide) _

/-- The segment that an escaped text stands for. -/
def unescapeSegment : List Char → List Char
  | '~' :: '0' :: s => '~' :: unescapeSegment s
  | '~' :: '1' :: s => '/' :: unescapeSegment s
  | c :: s => c :: unescapeSegment s
  | [] => []

theorem unescapeSegment_cons {c : Char} (h : c ≠ '~') (s : List Char) :
    unescapeSegment (c :: s) = c :: unescapeSegment s := by
  rw [unescapeSegment]
  · intro t heq
    exact absurd heq h
  · intro t heq
    exact absurd heq h

/-- **Escaping is undone.** -/
theorem unescape_escapeSegment (s : List Char) : unescapeSegment (escapeSegment s) = s := by
  fun_induction escapeSegment s with
  | case1 => rfl
  | case2 s ih => rw [unescapeSegment, ih]
  | case3 s ih => rw [unescapeSegment, ih]
  | case4 c s htilde hslash ih => rw [unescapeSegment_cons htilde, ih]

/-! ## §2. Reading a pointer back. -/

/-- The path that a pointer leads along. -/
def pathOf (pointer : String) : Path :=
  (Text.pieces (fun c => c = '/') pointer.toList).map fun part => String.ofList (unescapeSegment part)

/-- **A path is read back from its pointer.** The empty path and that of the empty key share the empty pointer, which
is read as the latter. -/
theorem pathOf_pointer {p : Path} (hp : p ≠ []) : pathOf (pointer p) = p := by
  have hparts : Text.pieces (fun c => decide (c = '/')) (pointer p).toList =
      p.map fun segment => escapeSegment segment.toList := by
    unfold pointer
    rw [String.toList_ofList]
    apply Text.pieces_joinWith
    · decide
    · simpa using hp
    · intro part hpart d hd
      obtain ⟨segment, -, rfl⟩ := List.mem_map.1 hpart
      have hslash : d ≠ '/' := fun heq => slash_not_mem_escapeSegment _ (heq ▸ hd)
      simpa using hslash
  unfold pathOf
  rw [hparts, List.map_map]
  conv_rhs => rw [← List.map_id p]
  apply List.map_congr_left
  intro segment _
  show String.ofList (unescapeSegment (escapeSegment segment.toList)) = segment
  rw [unescape_escapeSegment, String.ofList_toList]

theorem pointer_inj {p q : Path} (hp : p ≠ []) (hq : q ≠ []) (h : pointer p = pointer q) : p = q := by
  calc p = pathOf (pointer p) := (pathOf_pointer hp).symm
    _ = pathOf (pointer q) := by rw [h]
    _ = q := pathOf_pointer hq

/-! ## §3. What is printed. -/

/-- A path that is reported is that of a key. -/
theorem Usage.ne_nil_of_mem_unused {u : Usage} {root : Node} {p : Path} (h : p ∈ u.unused root) : p ≠ [] := by
  obtain ⟨key, rest, heq⟩ := (unread_of_mem_unusedBelow h).strictly_below
  rw [heq]
  exact List.cons_ne_nil key rest

/-- No path is reported twice where the keys of each mapping have distinct texts. -/
theorem Usage.nodup_unused {u : Usage} {root : Node} (h : root.keysDistinct = true) : (u.unused root).Nodup := by
  have hsublist : (u.unused root).Sublist (root.keyPaths.map ([] ++ ·)) := unusedBelow_sublist h
  have hkeys : (root.keyPaths.map ([] ++ ·)).Nodup := by
    simpa using Node.nodup_keyPaths h
  exact hkeys.sublist hsublist

/-- A reported path with the sign of a pointer before it. -/
def reportedAs (p : Path) : String := "#/" ++ pointer p

theorem reportedAs_inj {p q : Path} (hp : p ≠ []) (hq : q ≠ []) (h : reportedAs p = reportedAs q) : p = q :=
  pointer_inj hp hq ((String.append_right_inj "#/").1 h)

namespace Document

variable {d : Document} {u : Usage} {e : Error}

/-- The check for unread keys prints their pointers, in order. -/
theorem pointers_of_checkUnused (h : d.checkUnused u = .error e) :
    e.pointers = (u.unused d.root).map reportedAs ∧
      e.message = "unused keys in " ++ d.filename ++ ": " ++ Text.commaList e.pointers := by
  unfold checkUnused at h
  cases hpaths : u.unused d.root with
  | nil =>
    rw [hpaths] at h
    exact absurd h nofun
  | cons p rest =>
    rw [hpaths] at h
    cases h
    exact ⟨rfl, rfl⟩

end Document

/-- The errors about the node at a path. -/
inductive Source.About (s : Source) (path : Path) : Error → Prop
  | missingField (key : String) (keys : List String) : About s path (s.missingField path key keys)
  | wrongKind (expected found : String) : About s path (s.wrongKind path expected found)
  | invalidVariant (value : String) (expected : List String) : About s path (s.invalidVariant path value expected)
  | invalidValue (message : String) : About s path (s.invalidValue path message)
  | unsupported (what : String) : About s path (s.unsupported path what)
  | invalidReference (reference : String) : About s path (s.invalidReference path reference)

/-- The error prints a location at the end of its message, and its pointer is that of the location. -/
structure Error.Prints (e : Error) (l : Location) : Prop where
  pointers : e.pointers = [l.pointer]
  message : ∃ lead, e.message = lead ++ " at " ++ l.text

/-- An error about a node prints where the node is. -/
theorem Source.About.prints {s : Source} {path : Path} {e : Error} (h : s.About path e) :
    e.Prints (s.location path) := by
  have hpointers : e.pointers = [(s.location path).pointer] := by
    cases h <;> rfl
  refine ⟨hpointers, ?_⟩
  -- some messages have more words before the ` at ` of the same piece of text
  have hwords : ∀ lead words : String, lead ++ (words ++ " at ") ++ (s.location path).text =
      lead ++ words ++ " at " ++ (s.location path).text := by
    intro lead words
    simp only [String.append_assoc]
  cases h with
  | missingField key keys => exact ⟨_, hwords _ "])"⟩
  | wrongKind expected found => exact ⟨_, rfl⟩
  | invalidVariant value expected => exact ⟨_, hwords _ "'"⟩
  | unsupported what => exact ⟨_, rfl⟩
  | invalidValue message => exact ⟨message, String.append_assoc.symm⟩
  | invalidReference reference =>
    exact ⟨"invalid $ref '" ++ reference ++ "'", String.append_assoc.symm⟩

/-! ## §4. Keys. -/

/-- **Different keys have different pointers.** So the report of unread keys prints different keys differently, and
each once where the keys of each mapping have distinct texts; and errors about different keys print different
pointers. -/
theorem keys_told_apart :
    (∀ p q : Path, p ≠ [] → q ≠ [] → pointer p = pointer q → p = q) ∧
      (∀ (d : Document) (u : Usage) (e : Error), d.checkUnused u = .error e →
        e.pointers = (u.unused d.root).map reportedAs ∧
        e.message = "unused keys in " ++ d.filename ++ ": " ++ Text.commaList e.pointers ∧
        (∀ p ∈ u.unused d.root, ∀ q ∈ u.unused d.root, p ≠ q → reportedAs p ≠ reportedAs q) ∧
        (d.root.keysDistinct = true → e.pointers.Nodup)) ∧
      (∀ (s : Source) (p q : Path) (e e' : Error), p ≠ [] → q ≠ [] → p ≠ q → s.About p e → s.About q e' →
        e.Prints (s.location p) ∧ e'.Prints (s.location q) ∧ (s.location p).pointer ≠ (s.location q).pointer) := by
  refine ⟨fun p q => pointer_inj, ?_, ?_⟩
  · intro d u e h
    obtain ⟨hpointers, hmessage⟩ := Document.pointers_of_checkUnused h
    -- what is reported is never the root, for which two spellings would meet
    have hinj : ∀ p ∈ u.unused d.root, ∀ q ∈ u.unused d.root, reportedAs p = reportedAs q → p = q := by
      intro p hp q hq
      exact reportedAs_inj (Usage.ne_nil_of_mem_unused hp) (Usage.ne_nil_of_mem_unused hq)
    have hnodup : d.root.keysDistinct = true → e.pointers.Nodup := by
      intro hdistinct
      rw [hpointers]
      exact (Usage.nodup_unused hdistinct).map_on hinj
    exact ⟨hpointers, hmessage, fun p hp q hq hne heq => hne (hinj p hp q hq heq), hnodup⟩
  · intro s p q e e' hp hq hne h h'
    exact ⟨h.prints, h'.prints, fun heq => hne (pointer_inj hp hq heq)⟩

namespace Slashes

/-- A document with the keys `a/b`, `a~1b`, and `b` below `a`. -/
def document : Document where
  source := ⟨"a/b: 1\na~1b: 2\na:\n  b: 3\n", "api.yaml"⟩
  format := .yaml
  root := .mapping
    [(.ofText "a/b", .string "1"), (.ofText "a~1b", .string "2"),
      (.ofText "a", .mapping [(.ofText "b", .string "3")])]

/-- Only `a` was looked up. -/
def marks : Usage := ⟨[["a"]], []⟩

end Slashes

open Slashes in
/-- Three keys are reported with three pointers, and errors about two of them print two. -/
theorem told_apart_of_slashes :
    (pointer ["a/b"] = "a~1b" ∧ pointer ["a~1b"] = "a~01b" ∧ ["a/b"] = pathOf "a~1b") ∧
      (∃ e, document.checkUnused marks = .error e ∧ e.pointers = ["#/a~1b", "#/a~01b", "#/a/b"] ∧ e.pointers.Nodup) ∧
      (document.source.wrongKind ["a/b"] "scalar" "null").Prints (document.source.location ["a/b"]) ∧
      (document.source.location ["a/b"]).pointer ≠ (document.source.location ["a", "b"]).pointer := by
  obtain ⟨hinj, hreport, herrors⟩ := keys_told_apart
  have hpath : ["a/b"] = pathOf "a~1b" := hinj _ _ (by decide) (by decide +kernel) (by decide +kernel)
  have hunused : document.checkUnused marks =
      .error (document.source.unusedKeys [["a/b"], ["a~1b"], ["a", "b"]]) := by
    have hpaths : marks.unused document.root = [["a/b"], ["a~1b"], ["a", "b"]] := by decide +kernel
    unfold Document.checkUnused
    rw [hpaths]
  obtain ⟨-, -, -, hnodup⟩ := hreport document marks _ hunused
  obtain ⟨hprints, -, hne⟩ := herrors document.source ["a/b"] ["a", "b"] _ _ (by decide) (by decide) (by decide)
    (.wrongKind "scalar" "null") (.unsupported "value")
  exact ⟨⟨by decide +kernel, by decide +kernel, hpath⟩,
    ⟨_, hunused, by decide +kernel, hnodup (by decide +kernel)⟩, hprints, hne⟩

end OpenApi
