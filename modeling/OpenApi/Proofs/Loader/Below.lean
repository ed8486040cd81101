/-
  OpenApi.Proofs.Loader.Below — files below a directory.

  A relative path is followed from a directory. Only two dots lead up, so a path in which no name is two dots ends where
  it started or below (`prefix_of_reach`), and what is read there is a file below the directory
  (`exists_below_of_readFile`).
-/
import Mathlib.Data.List.Basic
import OpenApi.Loader.Basic
import OpenApi.Proofs.Text.Cut

namespace OpenApi

open Text FilePath

variable {files : Disk} {at_ place : Names} {root file path : List Char}

namespace Disk

/-! ## §1. Following names. -/

/-- Where a path leads from the root of the disk. -/
def reach (files : Disk) (path : List Char) : Option Names := (pieces isSeparator path).foldlM files.follow []

/-- A name is followed only from a directory. -/
theorem isDirectory_of_follow {name : List Char} (h : files.follow at_ name = some place) :
    files.isDirectory at_ = true := by
  unfold follow at h
  split at h
  next hdirectory => exact hdirectory
  next => exact absurd h nofun

/-- A name other than two dots leads down, or stays. -/
theorem prefix_of_follow {name : List Char} (hname : name ≠ ['.', '.']) (h : files.follow at_ name = some place) :
    at_ <+: place := by
  unfold follow at h
  split at h
  next =>
    split at h
    next => exact Option.some.inj h ▸ List.prefix_rfl
    next => exact Option.some.inj h ▸ List.prefix_append _ _
  next => exact absurd h nofun

/-- An empty name or a single dot stays in the directory. -/
theorem follow_idle {name : List Char} (hname : isIdle name = true) (h : files.isDirectory at_ = true) :
    files.follow at_ name = some at_ := by
  unfold follow
  rw [if_pos h, if_pos hname]

/-- Two dots lead to the directory above. -/
theorem follow_up (h : files.isDirectory at_ = true) : files.follow at_ ['.', '.'] = some at_.dropLast := by
  unfold follow
  rw [if_pos h]
  rfl

/-- Any other name leads down. -/
theorem follow_down {name : List Char} (hidle : isIdle name = false) (hup : name ≠ ['.', '.'])
    (h : files.isDirectory at_ = true) : files.follow at_ name = some (at_ ++ [name]) := by
  unfold follow
  rw [if_pos h, hidle, if_neg Bool.false_ne_true, if_neg hup]

theorem prefix_of_foldlM {path : Names} (hpath : ['.', '.'] ∉ path) :
    ∀ {at_ : Names}, path.foldlM files.follow at_ = some place → at_ <+: place := by
  induction path with
  | nil =>
    intro at_ h
    exact Option.some.inj h ▸ List.prefix_rfl
  | cons name path ih =>
    intro at_ h
    obtain ⟨hname, hpath⟩ := not_or.1 (List.mem_cons.not.1 hpath)
    rw [List.foldlM_cons] at h
    obtain ⟨next, hnext, h⟩ := Option.bind_eq_some_iff.1 h
    exact (prefix_of_follow (Ne.symm hname) hnext).trans (ih hpath h)

/-- A path is followed only from a directory. -/
theorem isDirectory_of_foldlM {path : Names} (hpath : path ≠ []) (h : path.foldlM files.follow at_ = some place) :
    files.isDirectory at_ = true := by
  cases path with
  | nil => exact absurd rfl hpath
  | cons name path =>
    rw [List.foldlM_cons] at h
    obtain ⟨next, hnext, -⟩ := Option.bind_eq_some_iff.1 h
    exact isDirectory_of_follow hnext

/-! ## §2. Paths below a directory. -/

theorem isSeparator_slash : isSeparator '/' = true := by decide

/-- Nothing leads to the root of the disk. -/
theorem reach_nil : files.reach [] = some [] := by
  show [([] : List Char)].foldlM files.follow [] = some []
  rw [List.foldlM_cons, follow_idle rfl rfl]
  rfl

/-- What stands after a slash is followed from where the front leads. -/
theorem reach_append (front : List Char) : files.reach (front ++ '/' :: file) = some place ↔
    ∃ base, files.reach front = some base ∧ (pieces isSeparator file).foldlM files.follow base = some place := by
  unfold reach
  rw [pieces_append isSeparator_slash, List.foldlM_append]
  exact Option.bind_eq_some_iff

/-- A slash at the end leads nowhere, but a directory must stand in front. -/
theorem reach_slash {front : List Char} {base : Names} :
    files.reach (front ++ ['/']) = some base ↔ files.reach front = some base ∧ files.isDirectory base = true := by
  rw [reach_append]
  constructor
  · rintro ⟨before, hbefore, h⟩
    have hdirectory : files.isDirectory before = true := isDirectory_of_foldlM (pieces_ne_nil _ _) h
    have hstays : [([] : List Char)].foldlM files.follow before = some base := h
    rw [List.foldlM_cons, follow_idle rfl hdirectory] at hstays
    obtain rfl : before = base := Option.some.inj hstays
    exact ⟨hbefore, hdirectory⟩
  · rintro ⟨hfront, hdirectory⟩
    refine ⟨base, hfront, ?_⟩
    show [([] : List Char)].foldlM files.follow base = some base
    rw [List.foldlM_cons, follow_idle rfl hdirectory]
    rfl

/-- A relative path is followed from where its directory leads. -/
theorem reach_under (hfile : file.head? ≠ some '/') : files.reach (under root file) = some place ↔
    ∃ base, files.reach root = some base ∧ (pieces isSeparator file).foldlM files.follow base = some place := by
  have hunder : under root file =
      if root.isEmpty || root.getLast? = some '/' then root ++ file else root ++ ['/'] ++ file := by
    unfold under
    split
    next => exact absurd rfl hfile
    next => rfl
  rw [hunder]
  split
  next hends =>
    rcases Bool.or_eq_true_iff.1 hends with hroot | hslash
    · -- without a root the path starts at the root of the disk
      rw [List.isEmpty_iff.1 hroot, reach_nil]
      constructor
      · exact fun h => ⟨[], rfl, h⟩
      · rintro ⟨base, hbase, h⟩
        obtain rfl := Option.some.inj hbase
        exact h
    · obtain ⟨front, rfl⟩ := List.getLast?_eq_some_iff.1 (of_decide_eq_true hslash)
      rw [List.append_assoc, List.singleton_append, reach_append]
      constructor
      · rintro ⟨base, hbase, h⟩
        -- the first name of the file is followed from the directory, so that it is one
        exact ⟨base, reach_slash.2 ⟨hbase, isDirectory_of_foldlM (pieces_ne_nil _ _) h⟩, h⟩
      · rintro ⟨base, hbase, h⟩
        exact ⟨base, (reach_slash.1 hbase).1, h⟩
  next =>
    rw [List.append_assoc, List.singleton_append]
    exact reach_append root

/-- A relative path without two dots leads below its directory. -/
theorem prefix_of_reach (hfile : file.head? ≠ some '/') (hpath : ['.', '.'] ∉ pieces isSeparator file)
    (h : files.reach (under root file) = some place) : ∃ base, files.reach root = some base ∧ base <+: place := by
  obtain ⟨base, hbase, hplace⟩ := (reach_under hfile).1 h
  exact ⟨base, hbase, prefix_of_foldlM hpath hplace⟩

end Disk

namespace Loader

variable {text : String}

theorem readFile_eq_ok : readFile files path = .ok text ↔ files.read? path = some text := by
  unfold readFile
  cases files.read? path with
  | none => exact ⟨nofun, nofun⟩
  | some text' => exact ⟨fun h => congrArg some (Except.ok.inj h), fun h => congrArg Except.ok (Option.some.inj h)⟩

/-- What is read is the file to which the path leads. -/
theorem of_readFile (h : readFile files path = .ok text) :
    ∃ place bytes, files.reach path = some place ∧ (place, bytes) ∈ files.files ∧
      Utf8.decode? bytes = some text.toList := by
  -- from the text back to its bytes, from the bytes to their place, from the place to the walk that reached it
  have hread := readFile_eq_ok.1 h
  unfold Disk.read? at hread
  obtain ⟨bytes, hbytes, hdecode⟩ := Option.bind_eq_some_iff.1 hread
  obtain ⟨chars, hchars, rfl⟩ := Option.map_eq_some_iff.1 hdecode
  unfold Disk.bytes? at hbytes
  obtain ⟨place, hplace, hfound⟩ := Option.bind_eq_some_iff.1 hbytes
  obtain ⟨entry, hentry, rfl⟩ := Option.map_eq_some_iff.1 hfound
  have hname : entry.1 = place := by simpa using List.find?_some hentry
  refine ⟨place, entry.2, hplace, ?_, by rw [hchars, String.toList_ofList]⟩
  rw [← hname]
  exact List.mem_of_find?_eq_some hentry

/-- Where another path leads to what was read, the same is read there. -/
theorem readFile_of_reach {path' : List Char}
    (hreach : ∀ place, files.reach path = some place → files.reach path' = some place)
    (h : readFile files path = .ok text) : readFile files path' = .ok text := by
  obtain ⟨place, -, hplace, -⟩ := of_readFile h
  have hread : ∀ p, files.read? p = ((files.reach p).bind fun place =>
      (files.files.find? fun f => f.1 = place).map (·.2)).bind fun bytes =>
        (Utf8.decode? bytes).map String.ofList := fun _ => rfl
  rw [readFile_eq_ok, hread] at h ⊢
  rw [hreach place hplace, ← hplace]
  exact h

/-- **What is read at a relative path without two dots is a file below its directory.** -/
theorem exists_below_of_readFile (hfile : file.head? ≠ some '/') (hpath : ['.', '.'] ∉ pieces isSeparator file)
    (h : readFile files (under root file) = .ok text) :
    ∃ base place bytes, files.reach root = some base ∧ base <+: place ∧ (place, bytes) ∈ files.files ∧
      Utf8.decode? bytes = some text.toList := by
  obtain ⟨place, bytes, hplace, hmem, hdecode⟩ := of_readFile h
  obtain ⟨base, hbase, hbelow⟩ := Disk.prefix_of_reach hfile hpath hplace
  exact ⟨base, place, bytes, hbase, hbelow, hmem, hdecode⟩

end Loader

end OpenApi
