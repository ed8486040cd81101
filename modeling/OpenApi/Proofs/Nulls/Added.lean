/-
  OpenApi.Proofs.Nulls.Added — trees with more nulls.

  A lookup reads null as absent. So most mappings may be given further keys with null under them, and no reader sees
  the difference. Null shows where the presence of a key counts: in tables, where a key decides what a mapping is, in
  the schema of the values of a map that is empty without it, and in a member of an allOf with none but inert keys
  (`Role.passesNull`). Elsewhere a tree with a null more looks the same, step by step (`get?_of_nullAdded` and those
  around it), and so does one with any number of them (`Pairing.nulls`).
-/
import Mathlib.Logic.Relation
import OpenApi.Proofs.Document.Trimming
import OpenApi.Proofs.Pairs.Pairing

namespace OpenApi

/-! ## §1. Where null does not show. -/

/-- Does a reader of this role take a further key with null under it for absent, in a mapping with these keys? -/
def Role.passesNull (r : Role) (keys : List String) (key : String) : Bool :=
  match r with
  | .exact => false
  | .table _ => false
  | .pathItem => Build.isItemKey key
  -- a map of values counts as one without rules if it is empty
  | .schema true => !keys.isEmpty && !(Role.schema true).deciding.contains key
  -- a member is passed over if all of its keys are inert
  | .member => !Role.member.deciding.contains key &&
      (Build.inertKeys.contains key || !keys.all Build.inertKeys.contains)
  | r => !r.deciding.contains key

/-- A key that decides what a mapping is shows. -/
theorem Role.not_deciding_of_passesNull {r : Role} {keys : List String} {key : String}
    (h : r.passesNull keys key = true) : key ∉ r.deciding := by
  cases r with
  | exact | table | entry | foreign | components | pathItem | operation | mediaType => exact List.not_mem_nil
  | free | parameter | requestBody | response | model => simpa [passesNull] using h
  | member =>
    rw [passesNull, Bool.and_eq_true] at h
    simpa using h.1
  | schema mapped =>
    cases mapped with
    | false => simpa [passesNull] using h
    | true =>
      rw [passesNull, Bool.and_eq_true] at h
      simpa using h.2

namespace Node

/-- The second tree is the first one with a further key that has null under it, in some mapping whose role reads it as
absent. -/
inductive NullAdded : Role → Node → Node → Prop
  | here {r : Role} {before after : List (Key × Node)} {k : Key} {key : String} {value : Node}
      (hk : k.text = some key) (hvalue : value.kind = .null) (hnew : key ∉ (mapping (before ++ after)).keys)
      (hpasses : r.passesNull (mapping (before ++ after)).keys key = true) :
      NullAdded r (.mapping (before ++ after)) (.mapping (before ++ (k, value) :: after))
  | entry {r : Role} {before after : List (Key × Node)} {k : Key} {key : String} {n n' : Node} (hk : k.text = some key)
      (h : NullAdded (r.under key) n n') :
      NullAdded r (.mapping (before ++ (k, n) :: after)) (.mapping (before ++ (k, n') :: after))
  | item {r : Role} {before after : List Node} {n n' : Node} (h : NullAdded r n n') :
      NullAdded r (.sequence (before ++ n :: after)) (.sequence (before ++ n' :: after))
  | tagged {r : Role} {n n' : Node} (tag : String) (h : NullAdded r n n') : NullAdded r (.tagged tag n) (.tagged tag n')

variable {r : Role} {n n' : Node} {key : String}

/-! ## §2. One null more. -/

theorem kind_of_nullAdded (h : NullAdded r n n') : n'.kind = n.kind := by
  induction h with
  | tagged tag _ ih => exact ih
  | here | entry | item => rfl

theorem scalarText_of_nullAdded (h : NullAdded r n n') : n'.scalarText = n.scalarText := by
  induction h with
  | tagged tag _ ih => exact ih
  | here | entry | item => rfl

theorem boolean?_of_nullAdded (h : NullAdded r n n') : n'.boolean? = n.boolean? := by
  induction h with
  | tagged tag _ ih => exact ih
  | here | entry | item => rfl

/-- No null is added to a value of which everything counts. -/
theorem not_nullAdded_exact : ¬ NullAdded .exact n n' := by
  intro h
  generalize hr : Role.exact = r at h
  induction h with
  | here hk hvalue hnew hpasses =>
    subst hr
    exact absurd hpasses Bool.false_ne_true
  | entry hk _ ih =>
    subst hr
    exact ih rfl
  | item _ ih => exact ih hr
  | tagged tag _ ih => exact ih hr

theorem items_of_nullAdded (h : NullAdded r n n') : List.Forall₂ (Relation.ReflGen (NullAdded r)) n.items n'.items := by
  induction h with
  | here | entry => exact .nil
  | @item r before after n n' h ih =>
    have hsame : ∀ ns : List Node, List.Forall₂ (Relation.ReflGen (NullAdded r)) ns ns := fun ns =>
      List.forall₂_same.2 fun _ _ => .refl
    exact List.rel_append (hsame before) (.cons (.single h) (hsame after))
  | tagged tag _ ih => exact ih

/-- The keys are the same, or there is one more, with null under it. -/
theorem keys_of_nullAdded (h : NullAdded r n n') : n'.keys = n.keys ∨
    ∃ key before after, n.keys = before ++ after ∧ n'.keys = before ++ key :: after ∧
      r.passesNull n.keys key = true := by
  induction h with
  | @here r before after k key value hk hvalue hnew hpasses =>
    refine .inr ⟨key, (mapping before).keys, (mapping after).keys, keys_mapping_append _ _, ?_, hpasses⟩
    rw [keys_mapping_append, keys_mapping_cons hk]
  | @entry r before after k key n n' hk _ _ =>
    refine .inl ?_
    rw [keys_mapping_append, keys_mapping_append, keys_mapping_cons hk, keys_mapping_cons hk]
  | item => exact .inl rfl
  | tagged tag _ ih => exact ih

/-- Under each key stands what stood there, or the same with a null more; or null stands where nothing stood. -/
theorem get?_of_nullAdded (h : NullAdded r n n') (key : String) :
    n'.get? key = n.get? key ∨
      (∃ c c', n.get? key = some c ∧ n'.get? key = some c' ∧ NullAdded (r.under key) c c') ∨
      (n.get? key = none ∧ r.passesNull n.keys key = true ∧ ∃ c', n'.get? key = some c' ∧ c'.kind = .null) := by
  induction h with
  | @here r before after k text value hk hvalue hnew hpasses =>
    by_cases htext : text = key
    · subst htext
      have hnone : (mapping (before ++ after)).get? text = none := by
        rw [← Option.isNone_iff_eq_none, ← Option.isSome_eq_false_iff, Bool.eq_false_iff]
        exact fun hsome => hnew (mem_keys.2 hsome)
      -- the new key is in neither part of the mapping, so the lookup passes the front and meets the null
      have hbefore : (mapping before).get? text = none := by
        rw [get?_mapping_append, Option.or_eq_none_iff] at hnone
        exact hnone.1
      refine .inr (.inr ⟨hnone, hpasses, value, ?_, hvalue⟩)
      rw [get?_mapping_append, hbefore, get?_mapping_cons hk, if_pos rfl]
      rfl
    · refine .inl ?_
      rw [get?_mapping_append, get?_mapping_append, get?_mapping_cons hk, if_neg htext]
  | @entry r before after k text c c' hk h _ =>
    rw [get?_mapping_append, get?_mapping_append, get?_mapping_cons hk, get?_mapping_cons hk]
    by_cases htext : text = key
    · subst htext
      -- an earlier entry with the key hides the changed one
      cases (mapping before).get? text with
      | some first => exact .inl rfl
      | none => exact .inr (.inl ⟨c, c', by rw [if_pos rfl]; rfl, by rw [if_pos rfl]; rfl, h⟩)
    · rw [if_neg htext, if_neg htext]
      exact .inl rfl
  | item => exact .inl rfl
  | tagged tag _ ih => exact ih

/-- A key that decides what a mapping is, is there on both sides or on neither. -/
theorem decided_of_nullAdded (h : NullAdded r n n') (hkey : key ∈ r.deciding) :
    (n'.get? key).isSome = (n.get? key).isSome := by
  rcases get?_of_nullAdded h key with hsame | ⟨c, c', hc, hc', -⟩ | ⟨-, hpasses, -⟩
  · rw [hsame]
  · rw [hc, hc']
    rfl
  · exact absurd hkey (Role.not_deciding_of_passesNull hpasses)

/-- What lookups find belongs together if it does with any number of nulls more. -/
theorem beneath_of_nullAdded (h : NullAdded r n n') (key : String) :
    Beneath (Relation.ReflTransGen (NullAdded (r.under key))) (n.get? key) (n'.get? key) := by
  rcases get?_of_nullAdded h key with hsame | ⟨c, c', hc, hc', hadded⟩ | ⟨hnone, -, c', hc', hnull⟩
  · rw [hsame]
    cases hget : n.get? key with
    | none => exact .inr ⟨nofun, nofun⟩
    | some c => exact .inl ⟨c, c, rfl, rfl, .refl⟩
  · exact .inl ⟨c, c', hc, hc', .single hadded⟩
  · refine .inr ⟨by rw [hnone]; exact nofun, fun m hm => ?_⟩
    rw [hc'] at hm
    rwa [← Option.some.inj hm]

end Node

/-! ## §3. Any number of nulls more. -/

theorem forall₂_trans {α β γ : Type} {R : α → β → Prop} {S : β → γ → Prop} {T : α → γ → Prop}
    (h : ∀ a b c, R a b → S b c → T a c) {xs : List α} {ys : List β} {zs : List γ} (hxs : List.Forall₂ R xs ys)
    (hys : List.Forall₂ S ys zs) : List.Forall₂ T xs zs := by
  induction hxs generalizing zs with
  | nil =>
    cases hys
    exact .nil
  | cons hab _ ih =>
    cases hys with
    | cons hbc hrest => exact .cons (h _ _ _ hab hbc) (ih hrest)

theorem Beneath.trans {R : Node → Node → Prop} (htrans : ∀ a b c, R a b → R b c → R a c)
    (hkind : ∀ a b, R a b → b.kind = a.kind) {o o' o'' : Option Node} (h : Beneath R o o') (h' : Beneath R o' o'') :
    Beneath R o o'' := by
  rcases h with ⟨n, n', ho, ho', hn⟩ | ⟨hnull, hnull'⟩
  · rcases h' with ⟨m, m', hm, hm', hn'⟩ | ⟨hnull', hnull''⟩
    · obtain rfl : n' = m := Option.some.inj (ho'.symm.trans hm)
      exact .inl ⟨n, m', ho, hm', htrans _ _ _ hn hn'⟩
    · refine .inr ⟨fun c hc => ?_, hnull''⟩
      obtain rfl : n = c := Option.some.inj (ho.symm.trans hc)
      rw [← hkind _ _ hn]
      exact hnull' n' ho'
  · rcases h' with ⟨m, m', hm, hm', hn'⟩ | ⟨-, hnull''⟩
    · refine .inr ⟨hnull, fun c hc => ?_⟩
      obtain rfl : m' = c := Option.some.inj (hm'.symm.trans hc)
      rw [hkind _ _ hn']
      exact hnull' m hm
    · exact .inr ⟨hnull, hnull''⟩

namespace Node

/-- The second tree is the first one with any number of nulls more. -/
abbrev NullsAdded (r : Role) : Node → Node → Prop := Relation.ReflTransGen (NullAdded r)

variable {r : Role} {n n' : Node}

/-- What no null changes, any number of them does not change. -/
theorem eq_of_nullsAdded {α : Type} {f : Node → α} (hf : ∀ n n', NullAdded r n n' → f n' = f n)
    (h : NullsAdded r n n') : f n' = f n := by
  induction h with
  | refl => rfl
  | tail _ hlast ih => rw [hf _ _ hlast, ih]

theorem items_of_nullsAdded (h : NullsAdded r n n') : List.Forall₂ (NullsAdded r) n.items n'.items := by
  induction h with
  | refl => exact List.forall₂_same.2 fun _ _ => .refl
  | tail _ hlast ih =>
    refine forall₂_trans (fun a b c hbefore hadded => ?_) ih (items_of_nullAdded hlast)
    exact Relation.ReflTransGen.trans hbefore (Relation.ReflGen.to_reflTransGen hadded)

theorem beneath_of_nullsAdded (h : NullsAdded r n n') (key : String) :
    Beneath (NullsAdded (r.under key)) (n.get? key) (n'.get? key) := by
  induction h with
  | refl =>
    cases hget : n.get? key with
    | none => exact .inr ⟨nofun, nofun⟩
    | some c => exact .inl ⟨c, c, rfl, rfl, .refl⟩
  | tail _ hlast ih =>
    exact ih.trans (fun _ _ _ => .trans) (fun _ _ => eq_of_nullsAdded fun _ _ => kind_of_nullAdded)
      (beneath_of_nullAdded hlast key)

/-! ## §4. What is seen of all keys. -/

/-- A table has no key more. -/
theorem listed_of_nullAdded (hlisted : r.isListed = true) (h : NullAdded r n n') : n'.keys = n.keys := by
  rcases keys_of_nullAdded h with hsame | ⟨key, before, after, -, -, hpasses⟩
  · exact hsame
  · cases r with
    | table values => exact absurd hpasses Bool.false_ne_true
    | _ => exact absurd hlisted Bool.false_ne_true

/-- A map of values that was empty stays so. -/
theorem isEmpty_of_nullAdded (h : NullAdded (.schema true) n n') : n'.keys.isEmpty = n.keys.isEmpty := by
  rcases keys_of_nullAdded h with hsame | ⟨key, before, after, hkeys, hkeys', hpasses⟩
  · rw [hsame]
  · have hfull : n.keys.isEmpty = false := by
      rw [Role.passesNull, Bool.and_eq_true, Bool.not_eq_true'] at hpasses
      exact hpasses.1
    rw [hfull, hkeys']
    cases before with
    | nil => rfl
    | cons => rfl

/-- A member with none but inert keys has none but inert keys more, and the key more of another one makes no
difference. -/
theorem inert_of_nullAdded (h : NullAdded .member n n') :
    n'.keys.all Build.inertKeys.contains = n.keys.all Build.inertKeys.contains := by
  rcases keys_of_nullAdded h with hsame | ⟨key, before, after, hkeys, hkeys', hpasses⟩
  · rw [hsame]
  · rw [Role.passesNull, Bool.and_eq_true, Bool.or_eq_true, Bool.not_eq_true'] at hpasses
    rw [hkeys] at hpasses ⊢
    rw [hkeys', List.all_append, List.all_append, List.all_cons]
    rw [List.all_append] at hpasses
    rcases hpasses.2 with hinert | htelling
    · rw [hinert, Bool.true_and]
    · rw [Bool.not_eq_true'] at htelling
      rw [Bool.and_left_comm, htelling, Bool.and_false]

/-- The keys of a path item that are those of operations. -/
theorem methods_of_nullAdded (h : NullAdded .pathItem n n') :
    (n'.keys.filter fun key => !Build.isItemKey key) = n.keys.filter fun key => !Build.isItemKey key := by
  rcases keys_of_nullAdded h with hsame | ⟨key, before, after, hkeys, hkeys', hpasses⟩
  · rw [hsame]
  · have hitem : Build.isItemKey key = true := hpasses
    rw [hkeys, hkeys', List.filter_append, List.filter_append, List.filter_cons_of_neg (by rw [hitem]; decide)]

theorem eq_of_nullsAdded_exact (h : NullsAdded .exact n n') : n' = n :=
  eq_of_nullsAdded (f := id) (fun _ _ hadded => absurd hadded not_nullAdded_exact) h

end Node

/-- Nodes belong together if the second one is the first one with any number of nulls more, and errors if they are of
one class. Marks do not matter. -/
def Pairing.nulls : Pairing where
  nodes := Node.NullsAdded
  marks _ _ := True
  errors e e' := e'.errorClass = e.errorClass
  kind := Node.eq_of_nullsAdded fun _ _ => Node.kind_of_nullAdded
  scalarText := Node.eq_of_nullsAdded fun _ _ => Node.scalarText_of_nullAdded
  boolean? := Node.eq_of_nullsAdded fun _ _ => Node.boolean?_of_nullAdded
  json h := by rw [Node.eq_of_nullsAdded_exact h]
  items := Node.items_of_nullsAdded
  get? h _ := Node.beneath_of_nullsAdded h _
  there _ _ := .inr fun _ _ => trivial
  decided h hkey := Node.eq_of_nullsAdded (fun _ _ hadded => Node.decided_of_nullAdded hadded hkey) h
  listed h hlisted := Node.eq_of_nullsAdded (fun _ _ => Node.listed_of_nullAdded hlisted) h
  isEmpty := Node.eq_of_nullsAdded fun _ _ => Node.isEmpty_of_nullAdded
  inert := Node.eq_of_nullsAdded fun _ _ => Node.inert_of_nullAdded
  methods := Node.eq_of_nullsAdded fun _ _ => Node.methods_of_nullAdded
  unmarked := trivial
  markRead _ _ := trivial
  markSealed _ _ := trivial
  others _ _ _ _ := trivial
  alike := Error.Alike.sameClass
  missing path key _ _ := Source.errorClass_missingField path key
  errorClass h := h

end OpenApi
