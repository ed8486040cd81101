/-
  OpenApi.Proofs.Build.Results — what the steps of a build give.

  Where only the result of a step matters, what it does to the session need not be told. A named schema makes a model
  of that name, and the entries of a mapping are its keys with the mappings under them.
-/
import Mathlib.Data.List.Forall2
import OpenApi.Build.Models
import OpenApi.Proofs.Build.Readings

namespace OpenApi

/-! ## §1. Results of steps. -/

namespace Building

variable {α β : Type} {x : Building α} {Q : α → Prop} {R : β → Prop}

/-- If the step succeeds, its result meets the condition. -/
def Gives (x : Building α) (Q : α → Prop) : Prop :=
  ∀ session a after, x.run.run session = (.ok a, after) → Q a

namespace Gives

theorem pure {a : α} (h : Q a) : Gives (Pure.pure a) Q := by
  intro session b after hrun
  obtain ⟨rfl, -⟩ := run_pure_ok hrun
  exact h

theorem throw {e : Error} : Gives (throw e : Building α) Q := by
  intro session a after hrun
  have hpair : ((.error e : Except Error α), session) = (.ok a, after) := hrun
  exact absurd (Prod.mk.inj hpair).1 nofun

theorem imp {Q' : α → Prop} (h : x.Gives Q) (hsub : ∀ a, Q a → Q' a) : x.Gives Q' :=
  fun session a after hrun => hsub a (h session a after hrun)

theorem bind {g : α → Building β} (hx : x.Gives Q) (hg : ∀ a, Q a → (g a).Gives R) : (x >>= g).Gives R := by
  intro session b after hrun
  obtain ⟨a, middle, hfirst, hsecond⟩ := run_bind_ok hrun
  exact hg a (hx session a middle hfirst) middle b after hsecond

/-- Where the result of the first step does not matter. -/
theorem after {g : α → Building β} (hg : ∀ a, (g a).Gives R) : (x >>= g).Gives R :=
  bind (Q := fun _ => True) (fun _ _ _ _ => trivial) fun a _ => hg a

theorem map {f : α → β} (h : x.Gives fun a => R (f a)) : (f <$> x).Gives R := by
  rw [map_eq_pure_bind]
  exact h.bind fun _ => pure

theorem optionally {γ : Type} {read : γ → Building α} {default : α} (hdefault : Q default)
    (hread : ∀ c, (read c).Gives Q) (o : Option γ) : (Building.optionally read default o).Gives Q := by
  cases o with
  | none => exact pure hdefault
  | some c => exact hread c

theorem mapM {f : α → Building β} {xs : List α} (h : ∀ a, (f a).Gives R) :
    (xs.mapM f).Gives fun bs => ∀ b ∈ bs, R b := by
  induction xs with
  | nil => exact pure fun b hb => absurd hb List.not_mem_nil
  | cons a xs ih =>
    rw [List.mapM_cons]
    exact (h a).bind fun b hb => ih.bind fun bs hbs => pure (List.forall_mem_cons.2 ⟨hb, hbs⟩)

theorem foldlM {f : β → α → Building β} {xs : List α} (h : ∀ b a, R b → (f b a).Gives R) :
    ∀ b, R b → (xs.foldlM f b).Gives R := by
  induction xs with
  | nil => exact fun b hb => pure hb
  | cons a xs ih =>
    intro b hb
    rw [List.foldlM_cons]
    exact (h b a hb).bind ih

end Gives

/-- A run of which the result and something of the session after it are known. -/
theorem exists_of_run (x : Building α) (session : Session) (f : Session → β) {a : α} {b : β}
    (hresult : (x.run.run session).1.toOption = some a) (hafter : f (x.run.run session).2 = b) :
    ∃ after, x.run.run session = (.ok a, after) ∧ f after = b := by
  cases hrun : x.run.run session with
  | mk result after =>
    rw [hrun] at hresult hafter
    cases result with
    | error e => exact absurd hresult nofun
    | ok a' => exact ⟨after, by rw [← Option.some.inj hresult], hafter⟩

end Building

/-- The type of a schema that is primitive. -/
def Schema.primitive? : Schema → Option Primitive
  | .primitive type => some type
  | _ => none

theorem Schema.primitive?_eq_some {c : Schema} {type : Primitive} : c.primitive? = some type ↔ c = .primitive type := by
  cases c with
  | primitive => simp [primitive?]
  | _ => simp [primitive?]

/-! ## §2. Entries of a mapping. -/

/-- The entry is the key with the mapping under it. -/
structure Mapping.Holds (m : Mapping) (key : String) (e : String × Mapping) : Prop where
  name : e.1 = key
  document : e.2.document = m.document
  path : e.2.path = m.child key
  kind : e.2.node.kind = .mapping
  found : m.node.get? key = some e.2.node

namespace Mapping

variable {m : Mapping} {key : String}

theorem Holds.containsKey {e : String × Mapping} (h : m.Holds key e) : m.containsKey key = true := by
  simp [Mapping.containsKey, h.found]

/-- The entry of a key is what a lookup of a mapping finds under it. -/
theorem holds_iff {c : Mapping} : m.Holds key (key, c) ↔
    ∃ found, m.look key (fun n => ofNode m.document n (m.child key)) = .ok found ∧ found.required = .ok c := by
  constructor
  · rintro ⟨-, hdocument, hpath, hkind, hget⟩
    have hread : ofNode m.document c.node (m.child key) = .ok c :=
      ofNode_eq_ok.2 ⟨hkind, by rw [← hdocument, ← hpath]⟩
    have hnull : c.node.kind ≠ .null := by
      rw [hkind]
      exact nofun
    exact ⟨⟨.present c, some (m.origin key)⟩, look_eq_ok.2 (.inr ⟨c.node, c, hget, hnull, hread, rfl⟩), rfl⟩
  · rintro ⟨found, hfound, hrequired⟩
    rw [Lookup.required_eq_ok] at hrequired
    rcases look_eq_ok.1 hfound with ⟨-, rfl⟩ | ⟨n, a, hget, -, hread, rfl⟩
    · exact absurd hrequired nofun
    · cases hrequired
      obtain ⟨hkind, rfl⟩ := ofNode_eq_ok.1 hread
      exact ⟨rfl, rfl, rfl, hkind, hget⟩

end Mapping

namespace Building

variable {m : Mapping} {key : String} {session after : Session}

/-- One entry is read: its key is marked. -/
theorem run_entry {e : String × Mapping} :
    (liftM (m.mapping key >>= fun found => ExceptT.mk (pure found.required) >>= fun c => pure (key, c)) :
      Building (String × Mapping)).run.run session = (.ok e, after) ↔
      m.Holds key e ∧ after = { session with usage := session.usage.markRead (m.child key) } := by
  -- a lookup of a key that is there marks it, whatever comes of the value
  have hlookup := run_lookup m key (fun n => Mapping.ofNode m.document n (m.child key)) session
  rw [liftM_bind]
  constructor
  · intro h
    obtain ⟨found, looked, hlook, h⟩ := run_bind_ok h
    rw [liftM_bind] at h
    obtain ⟨c, taken, htaken, h⟩ := run_bind_ok h
    obtain ⟨hrequired, rfl⟩ := run_lift_ok (r := found.required) htaken
    obtain ⟨rfl, rfl⟩ := run_pure_ok h
    obtain ⟨hfound, rfl⟩ := Prod.mk.inj (hlookup.symm.trans hlook)
    have hholds : m.Holds key (key, c) := Mapping.holds_iff.2 ⟨found, hfound, hrequired⟩
    rw [if_pos hholds.containsKey]
    exact ⟨hholds, rfl⟩
  · rintro ⟨hholds, rfl⟩
    obtain ⟨name, c⟩ := e
    obtain rfl : name = key := hholds.name
    obtain ⟨found, hfound, hrequired⟩ := Mapping.holds_iff.1 hholds
    rw [hfound, if_pos hholds.containsKey] at hlookup
    refine (run_bind hlookup).trans ?_
    rw [hrequired]
    rfl

/-- All entries of a mapping are read if each key holds a mapping; then all keys are marked. -/
theorem run_mappingEntries {entries : List (String × Mapping)} :
    (liftM m.mappingEntries : Building _).run.run session = (.ok entries, after) ↔
      List.Forall₂ m.Holds m.keys entries ∧
        after = { session with usage := m.keys.foldl (fun u key => u.markRead (m.child key)) session.usage } := by
  unfold Mapping.mappingEntries
  rw [liftM_mapM]
  -- the keys are read one by one, and those that were read are marked already
  generalize m.keys = keys
  induction keys generalizing session entries with
  | nil =>
    rw [List.mapM_nil, List.forall₂_nil_left_iff]
    constructor
    · intro h
      obtain ⟨rfl, rfl⟩ := run_pure_ok h
      exact ⟨rfl, rfl⟩
    · rintro ⟨rfl, rfl⟩
      rfl
  | cons key keys ih =>
    rw [List.mapM_cons, List.forall₂_cons_left_iff]
    constructor
    · intro h
      obtain ⟨e, middle, hfirst, h⟩ := run_bind_ok h
      obtain ⟨rest, last, hrest, h⟩ := run_bind_ok h
      obtain ⟨rfl, rfl⟩ := run_pure_ok h
      obtain ⟨he, rfl⟩ := run_entry.1 hfirst
      obtain ⟨hholds, rfl⟩ := ih.1 hrest
      exact ⟨⟨e, rest, he, hholds, rfl⟩, rfl⟩
    · rintro ⟨⟨e, rest, he, hholds, rfl⟩, rfl⟩
      rw [run_bind (run_entry.2 ⟨he, rfl⟩), run_bind (ih.2 ⟨hholds, rfl⟩)]
      rfl

end Building

namespace Build

open Building (Gives)

/-! ## §3. Named schemas. -/

theorem name_foldl_insert {properties : List Property} :
    ∀ model : GenericModel, (properties.foldl GenericModel.insert model).name = model.name := by
  induction properties with
  | nil => exact fun _ => rfl
  | cons p rest ih => exact fun model => ih (model.insert p)

theorem readMember_name (model : AllOfModel) (m : Mapping) :
    (readMember model m).Gives fun a => a.name = model.name := by
  unfold readMember
  split
  next => exact .after fun r => .pure rfl
  split
  next => exact .after fun _ => .after fun object => .after fun required => .pure rfl
  split
  next => exact .after fun _ => .after fun required => .pure rfl
  split
  next => exact .after fun _ => .after fun _ => .pure rfl
  next => exact .throw

section

variable (name : String) (description : Option String) (m : Mapping)

theorem readGeneric_name : (readGeneric name description m).Gives fun model => model.name = name := by
  unfold readGeneric
  exact .after fun _ => .after fun required => .after fun ps => .pure (name_foldl_insert _)

theorem readEnum_name : (readEnum name description m).Gives fun model => model.name = name := by
  unfold readEnum
  refine .after fun found => .after fun values => .after fun values => ?_
  split
  next => exact .throw
  next => exact .after fun _ => .pure rfl

theorem readAllOf_name : (readAllOf name description m).Gives fun model => model.name = name := by
  unfold readAllOf
  refine .after fun _ => .after fun required => .after fun found => .after fun members => .after fun members => ?_
  refine Gives.bind (Gives.foldlM (R := fun a => a.name = name) (fun a m ha => ?_) _ rfl) fun a ha => .pure ha
  exact fun session b after hrun => (readMember_name a m session b after hrun).trans ha

theorem readOneOf_name : (readOneOf name description m).Gives fun model => model.name = name := by
  unfold readOneOf
  refine .after fun _ => .after fun found => .after fun members => .after fun members => .after fun _ => ?_
  refine .after fun found => ?_
  split
  next => exact .pure rfl
  next => exact .after fun _ => .pure rfl

end

/-- A named schema makes a model of that name. -/
theorem readModel_name (name : String) (m : Mapping) : (readModel name m).Gives fun model => model.name = name := by
  unfold readModel
  refine .after fun _ => .after fun description => ?_
  split
  next => exact .map (readGeneric_name name _ m)
  split
  next => exact .map (readEnum_name name _ m)
  split
  next => exact .map (readAllOf_name name _ m)
  split
  next => exact .map (readOneOf_name name _ m)
  refine .after fun typeName => ?_
  split
  next => exact .after fun array => .pure rfl
  next => exact .throw

end Build

end OpenApi
