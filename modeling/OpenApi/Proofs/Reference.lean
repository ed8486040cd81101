/-
  OpenApi.Proofs.Reference — what a reference tells about its target.

  The text of a reference is the file of its target, the anchor and the name. The file is told again if it holds
  no number sign, and the name if it holds no slash (`file_eq`, `className_eq_iff`). Targets in files without
  number sign have texts of their own (`place_inj`).
-/
import OpenApi.Proofs.Text.Cut
import OpenApi.Reference

namespace OpenApi.SchemaRef

open Text

variable {r : SchemaRef} {file name : String}

/-- The characters of a place: the anchor starts with the number sign and ends with a slash. -/
theorem toList_place (file name : String) : (place file name).toList =
    file.toList ++ '#' :: ("/components/schemas".toList ++ '/' :: name.toList) := by
  have hanchor : anchor.toList = '#' :: ("/components/schemas".toList ++ ['/']) := by decide
  unfold place
  simp [hanchor]

/-- The place tells both the file and the name, where files hold no number sign. -/
theorem place_inj {file' name' : String} (hfile : '#' ∉ file.toList) (hfile' : '#' ∉ file'.toList)
    (h : place file name = place file' name') : file = file' ∧ name = name' := by
  have htext := congrArg String.toList h
  rw [toList_place, toList_place] at htext
  -- both places are cut at their first number sign, which is that of the anchor
  have hcut := congrArg (splitFirst '#') htext
  rw [splitFirst_append hfile, splitFirst_append hfile'] at hcut
  obtain ⟨hfiles, hrest⟩ := Prod.mk.inj (Option.some.inj hcut)
  have hnames : '/' :: name.toList = '/' :: name'.toList := List.append_cancel_left hrest
  exact ⟨String.toList_inj.1 hfiles, String.toList_inj.1 (List.cons.inj hnames).2⟩

/-- What stands before the first number sign is the file. -/
theorem file_eq (h : r.reference = place file name) (hfile : '#' ∉ file.toList) : r.file = file := by
  unfold SchemaRef.file
  rw [h, toList_place, splitFirst_append hfile]
  exact String.ofList_toList

/-- What stands after the last slash holds none. -/
theorem slash_not_mem_className (h : '/' ∈ r.reference.toList) : '/' ∉ r.className.toList := by
  unfold className
  cases hcut : splitLast '/' r.reference.toList with
  | none => exact absurd h (splitLast_eq_none.1 hcut)
  | some p =>
    obtain ⟨-, hname⟩ := splitLast_eq_some hcut
    rw [String.toList_ofList]
    exact hname

/-- What stands after the last slash is the name, unless the name holds a slash. -/
theorem className_eq_iff (h : r.reference = place file name) : r.className = name ↔ '/' ∉ name.toList := by
  have htext : r.reference.toList =
      (file.toList ++ '#' :: "/components/schemas".toList) ++ '/' :: name.toList := by
    rw [h, toList_place, List.append_assoc]
    rfl
  constructor
  · intro hname
    rw [← hname]
    exact slash_not_mem_className (by simp [htext])
  · intro hslash
    unfold className
    rw [htext, splitLast_append _ hslash]
    exact String.ofList_toList

end OpenApi.SchemaRef
