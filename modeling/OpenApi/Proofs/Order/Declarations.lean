/-
  OpenApi.Proofs.Order.Declarations — schemas may be declared in any order.

  Reading a named schema does the same wherever it starts: it marks keys, records references and adds one model that
  has the name of its key. What the entries of a mapping do is put together from that, entry by entry. Changes of
  this kind can be made in any order as long as the names are new and distinct, so entries in another order do the
  same up to the order of models.
  Main statement: `readModels_reordered`.
-/
import Mathlib.Data.List.Perm.Basic
import OpenApi.Proofs.Build.Results
import OpenApi.Proofs.Order.Reordering

namespace OpenApi

/-! ## §1. Effects of lists of steps. -/

namespace Effect

/-- Effects one after the other. -/
def total (effects : List Effect) : Effect := effects.foldr append none

theorem changes_total (effects : List Effect) : (total effects).changes = effects.flatMap changes := by
  induction effects with
  | nil => rfl
  | cons e effects ih =>
    show e.changes ++ (total effects).changes = _
    rw [ih, List.flatMap_cons]

theorem mem_read_total {effects : List Effect} {p : Path} :
    p ∈ (total effects).marks.read ↔ ∃ e ∈ effects, p ∈ e.marks.read := by
  induction effects with
  | nil => exact ⟨fun h => absurd h List.not_mem_nil, fun ⟨_, he, _⟩ => absurd he List.not_mem_nil⟩
  | cons e effects ih =>
    show p ∈ (total effects).marks.read ++ e.marks.read ↔ _
    rw [List.mem_append, ih, List.exists_mem_cons_iff, or_comm]

theorem mem_sealed_total {effects : List Effect} {p : Path} :
    p ∈ (total effects).marks.sealed ↔ ∃ e ∈ effects, p ∈ e.marks.sealed := by
  induction effects with
  | nil => exact ⟨fun h => absurd h List.not_mem_nil, fun ⟨_, he, _⟩ => absurd he List.not_mem_nil⟩
  | cons e effects ih =>
    show p ∈ (total effects).marks.sealed ++ e.marks.sealed ↔ _
    rw [List.mem_append, ih, List.exists_mem_cons_iff, or_comm]

/-- Effects in another order leave the same marks. -/
theorem same_of_perm {effects effects' : List Effect} (h : effects.Perm effects') :
    (total effects).marks.Same (total effects').marks where
  read p := by
    rw [mem_read_total, mem_read_total]
    exact exists_congr fun e => and_congr_left fun _ => h.mem_iff
  sealed p := by
    rw [mem_sealed_total, mem_sealed_total]
    exact exists_congr fun e => and_congr_left fun _ => h.mem_iff

end Effect

namespace Building

variable {α : Type} {f : α → Building Unit} {P : α → Effect → Prop}

/-- From every session to whose spec the changes can be made, the step succeeds with the effect. -/
def Does (x : Building Unit) (e : Effect) : Prop :=
  ∀ (t : Session) (spec : Spec), t.spec.applyAll e.changes = .ok spec →
    ∃ after, x.run.run t = (.ok (), after) ∧ e.Leads t after

/-- If every step has an effect of its own, so have the steps over a list. -/
theorem effects_of_forM
    (h : ∀ a session after, (f a).run.run session = (.ok (), after) →
      ∃ e : Effect, P a e ∧ (f a).Does e ∧ e.Leads session after) {xs : List α} :
    ∀ {session after : Session}, (xs.forM f).run.run session = (.ok (), after) →
      ∃ effects, List.Forall₂ (fun a e => P a e ∧ (f a).Does e) xs effects ∧
        (Effect.total effects).Leads session after := by
  induction xs with
  | nil =>
    intro session after hrun
    obtain ⟨-, rfl⟩ := run_pure_ok hrun
    exact ⟨[], .nil, .refl session⟩
  | cons a xs ih =>
    intro session after hrun
    obtain ⟨_, middle, hfirst, hrest⟩ := run_bind_ok (x := f a) hrun
    obtain ⟨e, hP, hdoes, hleads⟩ := h a session middle hfirst
    obtain ⟨effects, hall, hleads'⟩ := ih hrest
    exact ⟨e :: effects, .cons ⟨hP, hdoes⟩ hall, hleads.trans hleads'⟩

/-- Steps over a list do one after the other what each of them does. -/
theorem Does.forM {xs : List α} {effects : List Effect}
    (h : List.Forall₂ (fun a e => P a e ∧ (f a).Does e) xs effects) : (xs.forM f).Does (Effect.total effects) := by
  induction h with
  | nil => exact fun t _ _ => ⟨t, rfl, .refl t⟩
  | @cons a e _ effects he _ ih =>
    intro t spec happly
    have hsplit : t.spec.applyAll (e.changes ++ (Effect.total effects).changes) = .ok spec := happly
    rw [Spec.applyAll_append] at hsplit
    obtain ⟨mid, hfirst, hrest⟩ := Outcome.bind_eq_ok.1 hsplit
    obtain ⟨middle, hrun, hleads⟩ := he.2 t mid hfirst
    rw [← Except.ok.inj (hleads.spec.symm.trans hfirst)] at hrest
    obtain ⟨after, hrun', hleads'⟩ := ih middle spec hrest
    refine ⟨after, ?_, hleads.trans hleads'⟩
    exact (run_bind hrun).trans hrun'

end Building

/-! ## §2. Additions. -/

namespace Spec

variable {s t : Spec}

/-- Changes that were made leave the names of models distinct. -/
theorem nodup_of_applyAll {changes : List Change} (hs : s.Made) (h : s.applyAll changes = .ok t) :
    (s.names ++ addedNames changes).Nodup := by
  rw [← names_of_applyAll h]
  exact applyAll_namesDistinct hs.inStep h hs.namesDistinct

/-- Additions can be made if the names of the models are new and distinct. -/
theorem exists_applyAll {file : String} {changes : List Change} (hadds : ∀ c ∈ changes, AddsTo file c) :
    ∀ {s : Spec}, s.InStep → (s.names ++ addedNames changes).Nodup → ∃ t, s.applyAll changes = .ok t := by
  induction changes with
  | nil => exact fun {s} _ _ => ⟨s, rfl⟩
  | cons c changes ih =>
    intro s hs hnodup
    obtain ⟨hfirst, hrest⟩ := List.forall_mem_cons.1 hadds
    cases c with
    | model f m =>
      have hnames : s.names ++ addedNames (.model f m :: changes) = s.names ++ [m.name] ++ addedNames changes := by
        simp [addedNames, Change.declared?]
      rw [hnames] at hnodup
      -- names that are distinct together are distinct from those before
      have hfree : m.name ∉ s.names := fun hmem => by
        obtain ⟨-, -, hnew⟩ := List.nodup_append.1 (List.nodup_append.1 hnodup).1
        exact hnew _ hmem _ (List.mem_singleton_self _) rfl
      have hadd : s.addModel f m = .ok (s.withModel f m) := addModel_of_free (hs.declares_eq_false.2 hfree) f
      have hlater : ((s.withModel f m).names ++ addedNames changes).Nodup := by
        unfold names
        rw [arena_withModel, List.map_append]
        exact hnodup
      obtain ⟨t, ht⟩ := ih hrest (hs.withModel f m) hlater
      exact ⟨t, Outcome.bind_eq_ok.2 ⟨_, hadd, ht⟩⟩
    | reference r =>
      have hlater : (s.addReference r).InStep := hs.apply (c := .reference r) rfl
      exact ih hrest hlater hnodup
    | describe | operation | securityScheme => exact absurd hfirst id

end Spec

namespace Build

open Building (Does Carried)

variable {m : Mapping} {name : String}

/-! ## §3. Named schemas. -/

/-- The changes record references and then add one model of the name to the file. -/
def Declares (file name : String) (e : Effect) : Prop :=
  ∃ (refs : List Change) (model : Model), (∀ c ∈ refs, ∃ r, c = .reference r) ∧ model.name = name ∧
    e.changes = refs ++ [.model file model]

theorem Declares.adds {file : String} {e : Effect} (h : Declares file name e) :
    ∀ c ∈ e.changes, Spec.AddsTo file c := by
  obtain ⟨refs, model, hrefs, -, hchanges⟩ := h
  rw [hchanges]
  refine List.forall_mem_append.2 ⟨fun c hc => ?_, by simp [Spec.AddsTo]⟩
  obtain ⟨r, rfl⟩ := hrefs c hc
  trivial

theorem Declares.addedNames {file : String} {e : Effect} (h : Declares file name e) :
    Spec.addedNames e.changes = [name] := by
  obtain ⟨refs, model, hrefs, rfl, hchanges⟩ := h
  have hnone : refs.filterMap Change.declared? = [] := by
    refine List.filterMap_eq_nil_iff.2 fun c hc => ?_
    obtain ⟨r, rfl⟩ := hrefs c hc
    rfl
  unfold Spec.addedNames
  rw [hchanges, List.filterMap_append, hnone]
  rfl

/-- Adding a model is one change. -/
theorem addModel_does (event : Event) (hevent : event.loaded? = none) (file : String) (model : Model) :
    (Building.report event >>= fun _ => Building.update fun spec => spec.addModel file model).Does
      ⟨.none, [.model file model]⟩ := by
  intro t spec happly
  obtain ⟨spec', hadd, hrest⟩ := Outcome.bind_eq_ok.1 happly
  obtain rfl := Except.ok.inj hrest
  have hreport : (Building.report event).run.run t = (.ok (), { t with events := t.events ++ [event] }) := rfl
  refine ⟨⟨t.usage, spec', t.events ++ [event]⟩, ?_, rfl, happly, by simp [hevent]⟩
  rw [Building.run_bind hreport]
  exact Building.run_update hadd

theorem exists_of_addModel {event : Event} {file : String} {model : Model} {session after : Session}
    (h : (Building.report event >>= fun _ => Building.update fun spec => spec.addModel file model).run.run session =
      (.ok (), after)) : ∃ spec, session.spec.applyAll [.model file model] = .ok spec := by
  have hreport : (Building.report event).run.run session =
      (.ok (), { session with events := session.events ++ [event] }) := rfl
  rw [Building.run_bind hreport] at h
  obtain ⟨spec, hadd, -⟩ := Building.run_update_ok h
  exact ⟨spec, Outcome.bind_eq_ok.2 ⟨spec, hadd, rfl⟩⟩

/-- A named schema that is read into the spec has an effect of its own. -/
theorem declareModel_does {session after : Session}
    (h : (declareModel name m).run.run session = (.ok (), after)) :
    ∃ e, Declares m.filename name e ∧ (declareModel name m).Does e ∧ e.Leads session after := by
  unfold declareModel at h ⊢
  obtain ⟨model, middle, hread, hrest⟩ := Building.run_bind_ok h
  obtain ⟨result, e, hrefs, hgoes⟩ := readModel_steady (K := .nothing) name m session trivial
  have hmodel : result = .ok model := by
    have hhere := (hgoes session trivial).1
    rw [hread] at hhere
    exact hhere.symm
  subst hmodel
  have hadds := addModel_does (.builtModel name model.kind m.filename) rfl m.filename model
  have hdoes : (readModel name m >>= fun model =>
      Building.report (.builtModel name model.kind m.filename) >>= fun _ =>
        Building.update fun spec => spec.addModel m.filename model).Does
          (e.append ⟨.none, [.model m.filename model]⟩) := by
    intro t spec happly
    obtain ⟨hresult, hleads⟩ := hgoes t trivial
    have hsplit : t.spec.applyAll (e.changes ++ [.model m.filename model]) = .ok spec := happly
    rw [Spec.applyAll_append, hleads.spec] at hsplit
    obtain ⟨after, hrun, hleads'⟩ := hadds _ spec hsplit
    refine ⟨after, ?_, hleads.trans hleads'⟩
    rw [Building.run_bind (Prod.ext hresult rfl)]
    exact hrun
  refine ⟨_, ⟨e.changes, model, hrefs, readModel_name name m session model middle hread, rfl⟩, hdoes, ?_⟩
  -- the run at hand is the one that is foretold
  obtain ⟨-, hleads⟩ := hgoes session trivial
  rw [hread] at hleads
  obtain ⟨spec, hspec⟩ := exists_of_addModel hrest
  obtain ⟨after', hrun, hleads'⟩ := hadds middle spec hspec
  rw [hrest] at hrun
  obtain ⟨-, rfl⟩ := Prod.mk.inj hrun
  exact hleads.trans hleads'

/-! ## §4. Mappings of schemas. -/

/-- The keys of a mapping that are marked. -/
theorem mem_read_foldl (m : Mapping) {keys : List String} {p : Path} :
    ∀ u : Usage, p ∈ (keys.foldl (fun u key => u.markRead (m.child key)) u).read ↔
      (∃ key ∈ keys, p = m.child key) ∨ p ∈ u.read := by
  induction keys with
  | nil => simp
  | cons key keys ih =>
    intro u
    rw [List.foldl_cons, ih, Usage.markRead, List.mem_cons, List.exists_mem_cons_iff, or_assoc, or_left_comm]

theorem sealed_foldl (m : Mapping) {keys : List String} :
    ∀ u : Usage, (keys.foldl (fun u key => u.markRead (m.child key)) u).sealed = u.sealed := by
  induction keys with
  | nil => exact fun _ => rfl
  | cons key keys ih => exact fun u => ih (u.markRead (m.child key))

theorem same_foldl {m m' : Mapping} {keys keys' : List String} (hpath : m'.path = m.path)
    (hkeys : keys'.Perm keys) {u v : Usage} (h : u.Same v) :
    (keys.foldl (fun u key => u.markRead (m.child key)) u).Same
      (keys'.foldl (fun u key => u.markRead (m'.child key)) v) where
  read p := by
    have hchild : ∀ key, m'.child key = m.child key := fun key => by
      unfold Mapping.child
      rw [hpath]
    rw [mem_read_foldl, mem_read_foldl, h.read]
    refine or_congr_left (exists_congr fun key => ?_)
    rw [hkeys.mem_iff, hchild]
  sealed p := by rw [sealed_foldl, sealed_foldl, h.sealed]

theorem names_of_holds {m : Mapping} {keys : List String} {entries : List (String × Mapping)}
    (h : List.Forall₂ m.Holds keys entries) : entries.map Prod.fst = keys := by
  induction h with
  | nil => rfl
  | cons he _ ih => rw [List.map_cons, he.name, ih]

/-- What the entries of a mapping do, each for itself. -/
abbrev EntriesDo (entries : List (String × Mapping)) (effects : List Effect) : Prop :=
  List.Forall₂ (fun entry e => Declares entry.2.filename entry.1 e ∧ (declareModel entry.1 entry.2).Does e) entries
    effects

theorem EntriesDo.addedNames {entries : List (String × Mapping)} {effects : List Effect}
    (h : EntriesDo entries effects) :
    Spec.addedNames (Effect.total effects).changes = entries.map Prod.fst := by
  rw [Effect.changes_total]
  induction h with
  | nil => rfl
  | cons he _ ih => rw [List.flatMap_cons, Spec.addedNames_append, he.1.addedNames, ih, List.map_cons,
      List.singleton_append]

theorem EntriesDo.adds (file : String) {entries : List (String × Mapping)} {effects : List Effect}
    (h : EntriesDo entries effects) (hfile : ∀ entry ∈ entries, entry.2.filename = file) :
    ∀ c ∈ (Effect.total effects).changes, Spec.AddsTo file c := by
  intro c hc
  rw [Effect.changes_total] at hc
  obtain ⟨e, he, hc⟩ := List.mem_flatMap.1 hc
  obtain ⟨entry, hentry, hdeclares, -⟩ := Outcome.exists_left h he
  exact hfile entry hentry ▸ hdeclares.adds c hc

/-- **Schemas may be declared in any order.** Where reading them succeeds, their keys are distinct, and reading them
in another order succeeds and leads to a spec that holds the same. -/
theorem readModels_reordered {m m' : Mapping} (hnode : m.node.Reorders m'.node) (hpath : m'.path = m.path)
    (hdocument : m'.document = m.document) :
    Carried (readModels m) (readModels m') fun _ _ => m.node.keys.Nodup := by
  intro s t u after hst hrun
  unfold readModels at hrun ⊢
  obtain ⟨entries, middle, hentries, hrun⟩ := Building.run_bind_ok hrun
  obtain ⟨hholds, rfl⟩ := Building.run_mappingEntries.1 hentries
  obtain ⟨effects, heffects, hleads⟩ := Building.effects_of_forM (fun _ _ _ => declareModel_does) hrun
  have hadds := EntriesDo.adds m.filename heffects fun entry hentry => by
    obtain ⟨key, -, hkey⟩ := Outcome.exists_left hholds hentry
    unfold Mapping.filename
    rw [hkey.document]
  -- each entry adds the name of its key, and names are distinct in the end
  have hnames : Spec.addedNames (Effect.total effects).changes = m.keys := by
    rw [EntriesDo.addedNames heffects, names_of_holds hholds]
  have hnodup := Spec.nodup_of_applyAll hst.made hleads.spec
  have hdistinct : m.node.keys.Nodup := by
    rw [hnames] at hnodup
    exact (List.nodup_append.1 hnodup).2.1
  -- the other order has the same entries, with the same effects
  obtain ⟨entries', hholds', hperm⟩ := List.perm_comp_forall₂ hnode.keys.symm hholds
  obtain ⟨effects', heffects', hperm'⟩ := List.perm_comp_forall₂ hperm heffects
  have hholds'' : List.Forall₂ m'.Holds m'.keys entries' := hholds'.imp fun key e he => by
    refine ⟨he.name, he.document.trans hdocument.symm, ?_, he.kind, ?_⟩
    · rw [he.path, Mapping.child, Mapping.child, hpath]
    · rw [hnode.get? hdistinct, he.found]
  have hchanges : (Effect.total effects).changes.Perm (Effect.total effects').changes := by
    rw [Effect.changes_total, Effect.changes_total]
    exact hperm'.symm.flatMap_right _
  have hnames' : (t.spec.names ++ Spec.addedNames (Effect.total effects').changes).Nodup := by
    have hadded := (hchanges.filterMap Change.declared?).map fun d => d.model.name
    exact ((hst.spec.arena.map _).append hadded).nodup_iff.1 hnodup
  obtain ⟨spec, hspec⟩ := Spec.exists_applyAll (fun c hc => hadds c (hchanges.mem_iff.2 hc)) hst.made'.inStep
    hnames'
  let marked : Session := { t with usage := m'.keys.foldl (fun u key => u.markRead (m'.child key)) t.usage }
  obtain ⟨after', hrun', hleads'⟩ := Building.Does.forM heffects' marked spec hspec
  refine ⟨(), after', ?_, hdistinct, ?_, ?_, ?_, ?_⟩
  · rw [Building.run_bind (Building.run_mappingEntries.2 ⟨hholds'', rfl⟩)]
    exact hrun'
  · rw [hleads.usage, hleads'.usage]
    exact (same_foldl hpath hnode.keys.symm hst.usage).plus (Effect.same_of_perm hperm'.symm)
  · have hafter := (hst.made.applyAll hleads.spec).namesDistinct
    exact hst.spec.additions hadds hchanges hleads.spec hleads'.spec hafter
  · exact hst.made.applyAll hleads.spec
  · exact hst.made'.applyAll hleads'.spec

end Build

end OpenApi
