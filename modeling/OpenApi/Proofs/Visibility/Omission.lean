/-
  OpenApi.Proofs.Visibility.Omission — what views leave out of objects.

  A view walks from each property of an object afresh, while its gate walks from the object itself, so that
  one walk may come back to the object and the other may not. Both find what can be reached: a view leaves
  out the properties that are required and flagged and those that lead to one that is, and the gate answers
  yes exactly if there are any. Main statement: `omitted_eq_filter`.
-/
import OpenApi.Proofs.Visibility.Walk

namespace OpenApi

namespace Spec

variable {s : Spec} {v : Visibility}

/-! ## §1. One property. -/

/-- The view leaves the property out: it is required and flagged, or its schema leads to one that is. -/
def Omits (s : Spec) (v : Visibility) (p : Property) : Prop :=
  v.omits p = true ∨ s.Reaches v (.schema p.schema)

/-- The test of a property answers whether the view leaves it out. -/
theorem isOmitted_omits (hs : s.NamesDistinct) (hr : s.AllResolve) (hf : s.AllFlatten) {p : Property}
    (hp : s.ResolvesIn p.schema) :
    ∃ answer, s.isOmitted v p = .ok answer ∧ (answer = true ↔ s.Omits v p) := by
  unfold isOmitted
  split
  next homits => exact ⟨true, rfl, fun _ => .inl homits, fun _ => rfl⟩
  next homits =>
    obtain ⟨answer, hanswer, hiff⟩ := schemaHas_reaches hs hr hf hp v
    refine ⟨answer, hanswer, fun h => .inr (hiff.1 h), ?_⟩
    rintro (h | h)
    · exact absurd h homits
    · exact hiff.2 h

/-! ## §2. All properties. -/

/-- Testing properties in order keeps those for which the test holds, if it answers for each of them. -/
theorem filterProperties_eq_ok {test : Property → Except Error Bool} {P : Property → Prop}
    [DecidablePred P] {ps : List Property}
    (h : ∀ p ∈ ps, ∃ answer, test p = .ok answer ∧ (answer = true ↔ P p)) :
    filterProperties test ps = .ok (ps.filter P) := by
  induction ps with
  | nil => rfl
  | cons p rest ih =>
    obtain ⟨answer, hanswer, hiff⟩ := h p List.mem_cons_self
    have hrest := ih fun q hq => h q (List.mem_cons_of_mem _ hq)
    unfold filterProperties
    rw [hanswer, hrest]
    cases answer with
    | true =>
      rw [List.filter_cons, if_pos (decide_eq_true (hiff.1 rfl))]
      rfl
    | false =>
      have hnot : ¬ P p := fun hp => Bool.noConfusion (hiff.2 hp)
      rw [List.filter_cons, if_neg (fun h => hnot (of_decide_eq_true h))]
      rfl

/-- An object leads to what is left out exactly if one of its properties is left out. -/
theorem reaches_object_iff_omits {m : Model} (hobject : m.isObject = true) {ps : List Property}
    (hps : s.allProperties m = .ok ps) : s.Reaches v (.model m) ↔ ∃ p ∈ ps, s.Omits v p := by
  rw [reaches_object hobject hps]
  exact exists_congr fun p => and_congr_right fun _ => reaches_property

open Classical in
/-- What a view leaves out of a model is left out in the order of its properties. -/
theorem omitted_eq_ok (hs : s.NamesDistinct) (hr : s.AllResolve) (hf : s.AllFlatten) {m : Model}
    (hm : s.IsDeclared m) {ps : List Property} (hps : s.allProperties m = .ok ps) :
    s.omitted v m = .ok (ps.filter fun p => s.Omits v p) := by
  have htest : ∀ p ∈ ps, ∃ answer, s.isOmitted v p = .ok answer ∧ (answer = true ↔ s.Omits v p) := by
    intro p hp
    exact isOmitted_omits hs hr hf (hr.resolvesIn (stores_of_allProperties hm hps hp))
  unfold omitted
  rw [hps]
  exact filterProperties_eq_ok htest

open Classical in
/-- **A view leaves out of an object exactly the properties that are required and flagged, or that lead to
one that is, in the order of the properties; and its gate answers yes exactly if there are any.** -/
theorem omitted_eq_filter (hs : s.Made) (hr : s.AllResolve) (hf : s.AllFlatten) (v : Visibility)
    {m : Model} (hm : s.IsDeclared m) (hobject : m.isObject = true) :
    ∃ ps, s.allProperties m = .ok ps ∧
      s.omitted v m = .ok (ps.filter fun p => s.Omits v p) ∧
      ∃ answer, s.modelHas v m = .ok answer ∧
        (answer = true ↔ (ps.filter fun p => s.Omits v p) ≠ []) := by
  obtain ⟨ps, hps⟩ := hf m hm
  obtain ⟨answer, hanswer, hiff⟩ := modelHas_reaches hs.namesDistinct hr hf hm v
  refine ⟨ps, hps, omitted_eq_ok hs.namesDistinct hr hf hm hps, answer, hanswer, ?_⟩
  calc answer = true ↔ s.Reaches v (.model m) := hiff
    _ ↔ ∃ p ∈ ps, s.Omits v p := reaches_object_iff_omits hobject hps
    _ ↔ (ps.filter fun p => s.Omits v p) ≠ [] := by
      rw [Ne, List.filter_eq_nil_iff]
      simp

/-- In the diamond, requests leave out of `Node` its key, and also its links, of which one leads to the key
by way of `Node` itself. -/
theorem omitted_in_diamond :
    (Diamond.spec.Made ∧ Diamond.spec.AllResolve ∧ Diamond.spec.AllFlatten ∧
      Diamond.spec.IsDeclared (.allOf Diamond.node)) ∧
      ∃ ps os, Diamond.spec.allProperties (.allOf Diamond.node) = .ok ps ∧
        Diamond.spec.omitted .readOnly (.allOf Diamond.node) = .ok os ∧
        ps.map (·.name) = ["id", "note", "left", "next"] ∧ os.map (·.name) = ["id", "left", "next"] ∧
        ∀ p, p ∈ os ↔ p ∈ ps ∧ Diamond.spec.Omits .readOnly p := by
  refine ⟨⟨Diamond.made, by decide, by decide, Diamond.declares_node⟩, ?_⟩
  obtain ⟨ps, hps, homitted, -⟩ :=
    omitted_eq_filter Diamond.made (by decide) (by decide) .readOnly Diamond.declares_node rfl
  -- the names are computed; which properties they are is what the theorem tells
  refine ⟨ps, _, hps, homitted, ?_, ?_, ?_⟩
  · have hnames : (Diamond.spec.allProperties (.allOf Diamond.node)).map (·.map (·.name)) =
        .ok ["id", "note", "left", "next"] := rfl
    rw [hps] at hnames
    exact Except.ok.inj hnames
  · have hnames : (Diamond.spec.omitted .readOnly (.allOf Diamond.node)).map (·.map (·.name)) =
        .ok ["id", "left", "next"] := rfl
    rw [homitted] at hnames
    exact Except.ok.inj hnames
  · intro p
    simp

end Spec

end OpenApi
