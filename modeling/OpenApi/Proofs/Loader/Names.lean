/-
  OpenApi.Proofs.Loader.Names — the names of documents.

  In memory a document is known by the name under which it is served. On disk a link leads to a document of
  another name, but none in which a number sign stands, unless it stands in the name of the link
  (`keepsPlain_disk`).
-/
import OpenApi.Loader.Basic
import OpenApi.Proofs.Keyed
import OpenApi.Proofs.Text.Cut
import OpenApi.Proofs.Url.Marks

namespace OpenApi

open Text

/-! ## §1. Documents in memory. -/

theorem Document.filename_of_parseAs {text filename : String} {format : Format} {d : Document}
    (h : Document.parseAs text filename format = .ok d) : d.filename = filename := by
  unfold Document.parseAs at h
  split at h
  next => cases h; rfl
  next => exact absurd h nofun

theorem Document.filename_of_parse {text filename : String} {d : Document}
    (h : Document.parse text filename = .ok d) : d.filename = filename := by
  unfold Document.parse at h
  split at h
  next => exact filename_of_parseAs h
  next => exact absurd h nofun

namespace Loader

/-- The loader for texts serves what is read from the text with the name. -/
theorem load_ofTexts (texts : List (String × String)) (name : String) :
    ((ofTexts texts).load name).2 =
      match Keyed.value? name texts with
      | some text => Document.parse text name
      | none => .error (readError name) := by
  have hvalue : Keyed.value? name (texts.map fun entry => (entry.1, Document.parse entry.2 entry.1)) =
      (Keyed.value? name texts).map fun text => Document.parse text name :=
    Keyed.value?_map (fun name text => Document.parse text name) texts
  unfold ofTexts memory
  dsimp only
  rw [hvalue]
  cases Keyed.value? name texts with
  | none => rfl
  | some text => rfl

theorem load_ofTexts_eq_ok {texts : List (String × String)} {name : String} {d : Document} :
    ((ofTexts texts).load name).2 = .ok d ↔
      ∃ text, Keyed.value? name texts = some text ∧ Document.parse text name = .ok d := by
  rw [load_ofTexts]
  cases Keyed.value? name texts with
  | none => simp
  | some text => simp

/-- Only a text that is not there is a failure to read. -/
theorem load_ofTexts_eq_io {texts : List (String × String)} {name : String} :
    (∃ e, ((ofTexts texts).load name).2 = .error e ∧ e.errorClass = .io) ↔
      Keyed.value? name texts = none := by
  rw [load_ofTexts]
  cases hvalue : Keyed.value? name texts with
  | none => exact ⟨fun _ => rfl, fun _ => ⟨_, rfl, rfl⟩⟩
  | some text =>
    refine ⟨fun ⟨e, he, hio⟩ => ?_, nofun⟩
    simp only at he
    unfold Document.parse Document.parseAs at he
    split at he
    next =>
      split at he
      next => exact absurd he nofun
      next => cases he; exact absurd hio nofun
    next => cases he; exact absurd hio nofun

/-! ## §2. Names. -/

/-- Each document is known by the name under which it is served. -/
def KnowsByName (loader : Loader) : Prop := ∀ name d, (loader.load name).2 = .ok d → d.filename = name

/-- A name without number sign leads to a document whose name has none. -/
def KeepsPlain (loader : Loader) : Prop :=
  ∀ name d, '#' ∉ name.toList → (loader.load name).2 = .ok d → '#' ∉ d.filename.toList

theorem knowsByName_memory {documents : List (String × Except Error Document)}
    (h : ∀ entry ∈ documents, ∀ d, entry.2 = .ok d → d.filename = entry.1) : (memory documents).KnowsByName := by
  intro name d hload
  unfold memory Keyed.value? at hload
  dsimp only at hload
  cases hfind : Keyed.find? Prod.fst name documents with
  | none =>
    rw [hfind] at hload
    exact absurd hload nofun
  | some entry =>
    rw [hfind] at hload
    obtain ⟨hmem, hname⟩ := Keyed.find?_eq_some hfind
    rw [← hname]
    exact h entry hmem d hload

theorem knowsByName_ofTexts (texts : List (String × String)) : (ofTexts texts).KnowsByName := by
  refine knowsByName_memory fun entry hentry d hd => ?_
  obtain ⟨text, -, rfl⟩ := List.mem_map.1 hentry
  exact Document.filename_of_parse hd

theorem KnowsByName.keepsPlain {loader : Loader} (h : loader.KnowsByName) : loader.KeepsPlain := by
  intro name d hname hload
  rw [h name d hload]
  exact hname

/-! ## §3. Documents on disk. -/

/-- A link without number sign leads to names without. -/
theorem mark_not_mem_linkedName {link file : String} (hlink : '#' ∉ link.toList) (hfile : '#' ∉ file.toList) :
    '#' ∉ (linkedName link file).toList := by
  unfold linkedName
  cases hcut : splitLast '/' link.toList with
  | none => exact hfile
  | some p =>
    obtain ⟨directory, name⟩ := p
    have hdirectory : '#' ∉ directory := fun hmem =>
      hlink ((splitLast_eq_some hcut).1 ▸ List.mem_append_left _ hmem)
    simp [hdirectory, hfile]

theorem mark_not_mem_file_of_resolveLink {path : List Char} {text : String} {target : Target}
    (h : resolveLink path text = .ok target) : '#' ∉ target.file.toList := by
  unfold resolveLink at h
  dsimp only at h
  split at h
  next => exact absurd h nofun
  next =>
    split at h
    next => exact absurd h nofun
    next url hjoin =>
      split at h
      next => exact absurd h nofun
      next file hfile =>
        split at h
        next => exact absurd h nofun
        next =>
          rw [← Except.ok.inj h, String.toList_ofList]
          exact Url.mark_not_mem_fileName hjoin hfile

theorem mark_not_mem_of_followLink {files : Disk} {link text : String} {path : List Char} {d : Document}
    (hlink : '#' ∉ link.toList) (h : (followLink files link path text).2 = .ok d) :
    '#' ∉ d.filename.toList := by
  unfold followLink at h
  split at h
  next => exact absurd h nofun
  next target htarget =>
    split at h
    next => exact absurd h nofun
    next =>
      rw [Document.filename_of_parseAs h]
      exact mark_not_mem_linkedName hlink (mark_not_mem_file_of_resolveLink htarget)

/-- **Documents on disk that are asked for without number sign have names without**, also those that links
lead to. -/
theorem keepsPlain_disk (files : Disk) (root : String) : (disk files root).KeepsPlain := by
  intro name d hname hload
  unfold disk at hload
  dsimp only at hload
  split at hload
  next => exact absurd hload nofun
  next =>
    split at hload
    next => exact mark_not_mem_of_followLink hname hload
    next =>
      rw [Document.filename_of_parse hload]
      exact hname

end Loader

end OpenApi
