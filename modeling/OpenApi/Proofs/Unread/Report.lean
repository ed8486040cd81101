/-
  OpenApi.Proofs.Unread.Report — the report of unread keys is exact.

  After any questions about a document in which the keys of each mapping are distinct, the keys that are reported are
  just those that the questions overlooked (`Document.unused_iff_overlooked`).
-/
import OpenApi.Proofs.Build.Validation
import OpenApi.Proofs.Unread.Marks

namespace OpenApi

namespace Document

/-- The questions overlooked a key: they did not look it up, though they looked up every key above it and took
none of these as a whole. Extensions are not overlooked, nor is what is below them. -/
structure Overlooked (d : Document) (queries : List Query) (p : Path) : Prop where
  key : p ∈ d.root.keyPaths
  named : Usage.Named p
  unasked : p ∉ d.lookedUp queries
  above : ∀ q, q <+: p → q ≠ p → q ∈ d.root.keyPaths → q ∈ d.lookedUp queries ∧ q ∉ d.takenWhole queries

variable {d : Document} {queries : List Query} {p : Path}

/-- A key is overlooked just if the marks that the questions left tell so. -/
theorem overlooked_iff (hd : d.root.keysDistinct = true) :
    (d.marksAfter queries).Reports d.root [] p ↔ d.Overlooked queries p := by
  obtain ⟨places, h⟩ := (Places.Recorded.start d).askAll hd queries
  -- the marks say the same as the record of the questions, on the paths that a report can name
  have hread : ∀ q ∈ d.root.keyPaths, q ∈ (d.marksAfter queries).read ↔ q ∈ d.lookedUp queries := by
    intro q hq
    obtain ⟨n, hn⟩ := Node.exists_at?_of_mem_keyPaths hd hq
    exact h.read q n hn
  have hsealed : p ∈ d.root.keyPaths → ∀ q, q <+: p → q ≠ p →
      (q ∈ (d.marksAfter queries).sealed ↔ q ∈ d.takenWhole queries) := by
    rintro hp q ⟨rest, rfl⟩ hne
    cases rest with
    | nil => exact absurd (List.append_nil q).symm hne
    | cons s rest =>
      obtain ⟨n, hn, hnull⟩ := Node.exists_at?_above_key hd hp
      exact h.sealed q n hn hnull
  constructor
  · intro hreports
    refine ⟨hreports.key, hreports.named, fun hasked => ?_, fun q hprefix hne hq => ?_⟩
    · exact hreports.unread ((hread p hreports.key).2 hasked)
    · obtain ⟨hopen, habove⟩ := hreports.above q hprefix hne
      exact ⟨(hread q hq).1 (habove hq), fun htaken => hopen ((hsealed hreports.key q hprefix hne).2 htaken)⟩
  · intro hover
    refine ⟨hover.key, hover.named, fun hmarked => ?_, fun q hprefix hne => ⟨fun hmarked => ?_, fun hq => ?_⟩⟩
    · exact hover.unasked ((hread p hover.key).1 hmarked)
    · -- only keys are read as a whole, and what is above the path was not
      have hq : q ∈ d.root.keyPaths := h.keys q hmarked
      exact (hover.above q hprefix hne hq).2 ((hsealed hover.key q hprefix hne).1 hmarked)
    · exact (hread q hq).2 (hover.above q hprefix hne hq).1

/-- **The report is exact.** After any questions it lists the overlooked keys and nothing else, in document order and
none of them twice; and the check for unread keys succeeds just if no key was overlooked. -/
theorem unused_iff_overlooked (d : Document) (hd : d.root.keysDistinct = true) (queries : List Query) :
    ((d.marksAfter queries).unused d.root).Sublist d.root.keyPaths ∧
      ((d.marksAfter queries).unused d.root).Nodup ∧
      (∀ p, p ∈ (d.marksAfter queries).unused d.root ↔ d.Overlooked queries p) ∧
      (d.checkUnused (d.marksAfter queries) = .ok () ↔ ∀ p, ¬d.Overlooked queries p) := by
  have hsublist : ((d.marksAfter queries).unused d.root).Sublist d.root.keyPaths := by
    have hbelow : ((d.marksAfter queries).unusedBelow [] d.root).Sublist (d.root.keyPaths.map ([] ++ ·)) :=
      Usage.unusedBelow_sublist hd
    have hroot : d.root.keyPaths.map ([] ++ ·) = d.root.keyPaths := List.map_id _
    rwa [hroot] at hbelow
  have hmem : ∀ p, p ∈ (d.marksAfter queries).unused d.root ↔ d.Overlooked queries p := by
    intro p
    rw [← overlooked_iff hd, ← Usage.mem_unusedBelow_iff hd]
    rfl
  refine ⟨hsublist, (Node.nodup_keyPaths hd).sublist hsublist, hmem, ?_⟩
  -- the check refuses by the first path of the report, so it passes when there is none
  have hnone : d.checkUnused (d.marksAfter queries) = .ok () ↔ (d.marksAfter queries).unused d.root = [] := by
    unfold Document.checkUnused
    cases (d.marksAfter queries).unused d.root with
    | nil => simp
    | cons p rest => simp
  rw [hnone, List.eq_nil_iff_forall_not_mem]
  exact forall_congr' fun p => not_congr (hmem p)

/-! ## Questions about a document of pets. -/

namespace Pets

open Build.Listing (members)

/-- A document with two servers, a path and an extension. -/
def document : Document where
  source := ⟨"", "api.yaml"⟩
  format := .yaml
  root := members
    [("info", members [("title", .string "Pets"), ("version", .string "1")]),
      ("servers", .sequence [members [("url", .string "/a")], members [("url", .string "/b"), ("x-id", .null)]]),
      ("paths", members [("/pets", members [("get", .null)])]),
      ("x-owner", members [("name", .string "me")]),
      ("tags", .sequence [members [("name", .string "pets")]])]

/-- The title, the first server and the paths as a whole are asked for, the title only after the servers. -/
def questions : List Query :=
  [.kindOf 0 "tags", .sequence 0 "servers", .mappings 0, .string 1 "url", .value 0 "paths", .mapping 0 "info",
    .string 3 "title"]

end Pets

open Pets in
/-- The version, the second server and the tags are reported; nothing below the tags or the paths is. -/
theorem unused_of_pets :
    (document.marksAfter questions).unused document.root =
        [["info", "version"], ["servers", "1", "url"], ["tags"]] ∧
      document.Overlooked questions ["servers", "1", "url"] ∧ ¬document.Overlooked questions ["tags", "0", "name"] ∧
      document.checkUnused (document.marksAfter questions) ≠ .ok () := by
  have hunused : (document.marksAfter questions).unused document.root =
      [["info", "version"], ["servers", "1", "url"], ["tags"]] := by decide +kernel
  obtain ⟨-, -, hmem, hchecked⟩ := unused_iff_overlooked document (by decide +kernel) questions
  have hserver : document.Overlooked questions ["servers", "1", "url"] := by
    rw [← hmem, hunused]
    decide
  refine ⟨hunused, hserver, fun htag => ?_, fun hok => hchecked.1 hok _ hserver⟩
  rw [← hmem, hunused] at htag
  exact absurd htag (by decide)

end Document

end OpenApi
