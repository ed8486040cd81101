/-
  OpenApi.Proofs.Closure.Findings — what a build finds in a document.

  A step that succeeds records exactly the references that stand in what it reads, and declares exactly the models.
  `Finds` says so of a step and has a rule for each way to put steps together. A lookup tells what is under its key,
  so what a step finds is told by the tree of the document.
-/
import OpenApi.Proofs.Build.Found
import OpenApi.Proofs.Effects.Steady

namespace OpenApi

/-! ## §1. Findings. -/

/-- What is found: references as they are written, the names of schemas, and those of bodies that become models. -/
@[ext]
structure Findings where
  written : String → Prop
  schemas : String → Prop
  bodies : String → Prop

namespace Findings

def none : Findings := ⟨fun _ => False, fun _ => False, fun _ => False⟩

/-- Both findings together. -/
def and (f g : Findings) : Findings where
  written raw := f.written raw ∨ g.written raw
  schemas name := f.schemas name ∨ g.schemas name
  bodies name := f.bodies name ∨ g.bodies name

/-- References and nothing else. -/
def references (written : String → Prop) : Findings := { none with written }

/-- One schema and nothing else. -/
def schema (name : String) : Findings := { none with schemas := fun name' => name' = name }

/-- What is found in any element of a list. -/
def each {α : Type} (xs : List α) (f : α → Findings) : Findings where
  written raw := ∃ a ∈ xs, (f a).written raw
  schemas name := ∃ a ∈ xs, (f a).schemas name
  bodies name := ∃ a ∈ xs, (f a).bodies name

/-- The references that are written in schemas, and the names of bodies that become models. -/
def inside (parts : List Node) (names : List String) : Findings where
  written raw := ∃ n ∈ parts, n.SchemaRefers raw
  schemas _ := False
  bodies name := name ∈ names

theorem none_and (f : Findings) : none.and f = f := by simp [none, and]

theorem and_none (f : Findings) : f.and none = f := by simp [none, and]

theorem references_and (p q : String → Prop) :
    (references p).and (references q) = references fun raw => p raw ∨ q raw := by
  simp [references, none, and]

theorem references_congr {p q : String → Prop} (h : ∀ raw, p raw ↔ q raw) : references p = references q :=
  congrArg references (funext fun raw => propext (h raw))

theorem references_false : references (fun _ => False) = none := rfl

theorem each_nil {α : Type} (f : α → Findings) : each [] f = none := by simp [each, none]

theorem each_cons {α : Type} (a : α) (xs : List α) (f : α → Findings) : each (a :: xs) f = (f a).and (each xs f) := by
  simp [each, and]

theorem each_none {α : Type} (xs : List α) : (each xs fun _ => none) = none := by simp [each, none]

theorem each_map {α β : Type} (g : α → β) (xs : List α) (f : β → Findings) :
    each (xs.map g) f = each xs fun a => f (g a) := by
  simp [each]

theorem each_references {α : Type} (xs : List α) (p : α → String → Prop) :
    (each xs fun a => references (p a)) = references fun raw => ∃ a ∈ xs, p a raw := by
  simp [each, references, none]

theorem each_congr {α : Type} {xs : List α} {f g : α → Findings} (h : ∀ a ∈ xs, f a = g a) :
    each xs f = each xs g := by
  induction xs with
  | nil => rw [each_nil, each_nil]
  | cons a xs ih =>
    rw [each_cons, each_cons, h a List.mem_cons_self, ih fun b hb => h b (List.mem_cons_of_mem _ hb)]

theorem inside_nil : inside [] [] = none := by simp [inside, none]

theorem inside_and (parts more : List Node) (names others : List String) :
    (inside parts names).and (inside more others) = inside (parts ++ more) (names ++ others) := by
  simp [inside, and, or_and_right, exists_or]

theorem each_inside {α : Type} (xs : List α) (parts : α → List Node) (names : α → List String) :
    (each xs fun a => inside (parts a) (names a)) = inside (xs.flatMap parts) (xs.flatMap names) := by
  induction xs with
  | nil => rw [each_nil, List.flatMap_nil, List.flatMap_nil, inside_nil]
  | cons a xs ih => rw [each_cons, ih, inside_and, List.flatMap_cons, List.flatMap_cons]

theorem each_inside_nil {α : Type} (xs : List α) (parts : α → List Node) :
    (each xs fun a => inside (parts a) []) = inside (xs.flatMap parts) [] := by
  rw [each_inside xs parts fun _ => [], List.flatMap_eq_nil_iff.2 fun _ _ => rfl]

/-- The members of the mapping under a key. -/
theorem each_membersAt (n : Node) (key : String) (f : String × Node → Findings) :
    (each (n.value? key).toList fun c => each c.members f) = each (n.membersAt key) f := by
  cases h : n.value? key with
  | none => rw [Node.membersAt_of_none h, Option.toList_none, each_nil, each_nil]
  | some c => rw [Node.membersAt_of_value? h, Option.toList_some, each_cons, each_nil, and_none]

/-- The members of a mapping whose keys are asked for. -/
theorem each_members (n : Node) (p : String → Bool) (f : String × Node → Findings) :
    (each (n.keys.filter p) fun key => each (n.get? key).toList fun c => f (key, c)) =
      each (n.members.filter fun e => p e.1) f := by
  have hall : ∀ Q : String × Node → Prop, (∃ key ∈ n.keys.filter p, ∃ c ∈ (n.get? key).toList, Q (key, c)) ↔
      ∃ e ∈ n.members.filter fun e => p e.1, Q e := by
    intro Q
    simp only [List.mem_filter, Option.mem_toList, Prod.exists, Node.mem_members]
    constructor
    · rintro ⟨key, ⟨hkey, hp⟩, c, hc, hQ⟩
      exact ⟨key, c, ⟨⟨hkey, hc⟩, hp⟩, hQ⟩
    · rintro ⟨key, c, ⟨⟨hkey, hc⟩, hp⟩, hQ⟩
      exact ⟨key, ⟨hkey, hp⟩, c, hc, hQ⟩
  exact Findings.ext (funext fun raw => propext (hall fun e => (f e).written raw))
    (funext fun name => propext (hall fun e => (f e).schemas name))
    (funext fun name => propext (hall fun e => (f e).bodies name))

theorem references_eq_inside (n : Node) : references n.SchemaRefers = inside [n] [] := by
  simp [references, inside, none]

/-- The reference is found in a file: it is written there, or it leads to the model that a body becomes. -/
def Refers (f : Findings) (file : String) (r : SchemaRef) : Prop :=
  (∃ raw, f.written raw ∧ SchemaRef.parse raw file = .ok r) ∨ ∃ name, f.bodies name ∧ r = .toModel file name

/-- The changes of a spec that had models of the names `known` tell exactly the findings in a file: references are
recorded that are found, a model is declared for each schema, and one for each body unless its name is known. -/
structure Told (f : Findings) (file : String) (known : List String) (changes : List Change) : Prop where
  parses : ∀ raw, f.written raw → ∃ r, SchemaRef.parse raw file = .ok r
  references : ∀ r, .reference r ∈ changes ↔ f.Refers file r
  models : ∀ file' m, .model file' m ∈ changes → file' = file ∧ (f.schemas m.name ∨ f.bodies m.name)
  declares : ∀ name, f.schemas name → name ∈ Spec.addedNames changes
  becomes : ∀ name, f.bodies name → name ∈ known ∨ name ∈ Spec.addedNames changes

namespace Told

variable {f g : Findings} {file : String} {known : List String} {changes more : List Change}

theorem none : Findings.none.Told file known [] := by
  refine ⟨nofun, fun r => ?_, nofun, nofun, nofun⟩
  simp [Refers, Findings.none]

/-- A change that records no reference and adds no model. -/
theorem of_other {c : Change} (hreference : c.reference? = Option.none) (hmodel : c.declared? = Option.none) :
    Findings.none.Told file known [c] := by
  refine ⟨nofun, fun r => ?_, fun file' m hm => ?_, nofun, nofun⟩
  · have hother : Change.reference r ≠ c := by
      rintro rfl
      exact absurd hreference nofun
    simp [Refers, Findings.none, hother]
  · rw [← List.mem_singleton.1 hm] at hmodel
    exact absurd hmodel nofun

/-- A model that is added is found as a schema of its name. -/
theorem of_model (model : Model) : (Findings.schema model.name).Told file known [.model file model] := by
  refine ⟨nofun, fun r => ?_, fun file' m hm => ?_, fun name hname => ?_, nofun⟩
  · simp [Refers, Findings.schema, Findings.none]
  · cases List.mem_singleton.1 hm
    exact ⟨rfl, .inl rfl⟩
  · cases hname
    exact List.mem_singleton_self _

/-- A reference to the model that a body becomes, which is known. -/
theorem of_known {name : String} (h : name ∈ known) :
    (Findings.inside [] [name]).Told file known [.reference (.toModel file name)] := by
  refine ⟨nofun, fun r => ?_, fun file' m hm => ?_, nofun, fun name' hname => ?_⟩
  · simp [Refers, Findings.inside]
  · exact absurd (List.mem_singleton.1 hm) nofun
  · rw [List.mem_singleton.1 hname]
    exact .inl h

/-- The model that a body becomes is added, and referred to. -/
theorem of_new (model : Model) :
    (Findings.inside [] [model.name]).Told file known [.model file model, .reference (.toModel file model.name)] := by
  refine ⟨nofun, fun r => ?_, fun file' m hm => ?_, nofun, fun name hname => ?_⟩
  · simp [Refers, Findings.inside]
  · rcases List.mem_cons.1 hm with heq | hm
    · cases heq
      exact ⟨rfl, .inr (List.mem_singleton_self _)⟩
    · exact absurd (List.mem_singleton.1 hm) nofun
  · rw [List.mem_singleton.1 hname]
    exact .inr List.mem_cons_self

/-- More models may be known. -/
theorem mono {others : List String} (h : f.Told file known changes) (hknown : known ⊆ others) :
    f.Told file others changes :=
  { h with becomes := fun name hname => (h.becomes name hname).imp_left fun hmem => hknown hmem }

theorem and (h : f.Told file known changes) (h' : g.Told file (known ++ Spec.addedNames changes) more) :
    (f.and g).Told file known (changes ++ more) where
  parses raw hraw := hraw.elim (h.parses raw) (h'.parses raw)
  references r := by
    rw [List.mem_append, h.references, h'.references]
    simp only [Refers, Findings.and, or_and_right, exists_or]
    exact or_or_or_comm
  models file' m hm := by
    rcases List.mem_append.1 hm with hm | hm
    · exact (h.models file' m hm).imp_right (Or.imp .inl .inl)
    · exact (h'.models file' m hm).imp_right (Or.imp .inr .inr)
  declares name hname := by
    rw [Spec.addedNames_append, List.mem_append]
    exact hname.imp (h.declares name) (h'.declares name)
  becomes name hname := by
    rw [Spec.addedNames_append, List.mem_append]
    rcases hname with hname | hname
    · exact (h.becomes name hname).imp_right .inl
    · have hlater := h'.becomes name hname
      rw [List.mem_append, or_assoc] at hlater
      exact hlater

end Told

end Findings

namespace Building

variable {α β γ : Type} {x : Building α} {file : String} {P : α → Prop} {Q : β → Prop} {f g : Findings}

/-- If the step succeeds, its result meets a condition, and its changes tell the findings. -/
def Finds (x : Building α) (file : String) (P : α → Prop) (f : Findings) : Prop :=
  ∀ session a after, x.run.run session = (.ok a, after) →
    P a ∧ ∃ changes, session.spec.applyAll changes = .ok after.spec ∧ f.Told file session.spec.modelNames changes

namespace Finds

/-! ## §2. One step after another. -/

theorem mono {P' : α → Prop} (h : x.Finds file P f) (hP : ∀ a, P a → P' a) : x.Finds file P' f :=
  fun session a after hrun => (h session a after hrun).imp_left (hP a)

/-- What is known of the result besides. -/
theorem gives {P' : α → Prop} (h : x.Finds file P f) (hgives : x.Gives P') :
    x.Finds file (fun a => P a ∧ P' a) f :=
  fun session a after hrun => (h session a after hrun).imp_left fun ha => ⟨ha, hgives session a after hrun⟩

theorem congr (h : x.Finds file P f) (hf : f = g) : x.Finds file P g := hf ▸ h

theorem pure {a : α} (h : P a) : Finds (Pure.pure a) file P .none := by
  intro session b after hrun
  obtain ⟨rfl, rfl⟩ := run_pure_ok hrun
  exact ⟨h, [], rfl, .none⟩

theorem throw {e : Error} : Finds (throw e : Building α) file P f := by
  intro session a after hrun
  have hpair : ((.error e : Except Error α), session) = (.ok a, after) := hrun
  exact absurd (Prod.mk.inj hpair).1 nofun

theorem bind {k : α → Building β} (hx : x.Finds file P f) (hk : ∀ a, P a → (k a).Finds file Q g) :
    (x >>= k).Finds file Q (f.and g) := by
  intro session b after hrun
  obtain ⟨a, middle, hfirst, hsecond⟩ := run_bind_ok hrun
  obtain ⟨ha, changes, happly, htold⟩ := hx session a middle hfirst
  obtain ⟨hb, more, happly', htold'⟩ := hk a ha middle b after hsecond
  -- the second step knows the models that the first one added
  have hknown : middle.spec.modelNames ⊆ session.spec.modelNames ++ Spec.addedNames changes :=
    fun name hname => List.mem_append.2 (Spec.mem_modelNames_applyAll happly hname)
  exact ⟨hb, changes ++ more, Spec.applyAll_trans happly happly', htold.and (htold'.mono hknown)⟩

/-- Nothing is found by a step that makes no changes. -/
theorem silent (hx : x.Silent) (hP : x.Gives P) : x.Finds file P .none := by
  intro session a after hrun
  obtain ⟨changes, happly, rfl⟩ := hx session a after hrun
  exact ⟨hP session a after hrun, [], happly, .none⟩

theorem after {k : α → Building β} (hx : x.Silent) (hk : ∀ a, (k a).Finds file Q g) :
    (x >>= k).Finds file Q g :=
  (bind (silent (P := fun _ => True) hx fun _ _ _ _ => trivial) fun a _ => hk a).congr (Findings.none_and g)

/-- What a step yields is found, whatever models the spec has. -/
theorem of_yields (h : x.Yields fun a changes => P a ∧ ∀ known, f.Told file known changes) : x.Finds file P f := by
  intro session a after hrun
  obtain ⟨changes, happly, ha, htold⟩ := h session a after hrun
  exact ⟨ha, changes, happly, htold _⟩

/-- A step that depends on the models of the spec. -/
theorem ask {k : Spec → Building β}
    (hk : ∀ s, (k s).Yields fun b changes => Q b ∧ f.Told file s.modelNames changes) :
    (Building.spec >>= k).Finds file Q f := by
  intro session b after hrun
  obtain ⟨s, looked, hlook, hrun⟩ := run_bind_ok hrun
  obtain ⟨rfl, rfl⟩ := run_spec_ok hlook
  obtain ⟨changes, happly, hb, htold⟩ := hk _ _ _ _ hrun
  exact ⟨hb, changes, happly, htold⟩

theorem reading {r : Reading α} {k : α → Building β} (hk : ∀ a, (k a).Finds file Q g) :
    (liftM r >>= k : Building β).Finds file Q g := after (.of_reading r) hk

theorem report {e : Event} {k : Unit → Building β} (hk : ∀ u, (k u).Finds file Q g) :
    (Building.report e >>= k).Finds file Q g := after (.of_report e) hk

/-- A step after which nothing more is found. -/
theorem last {k : α → Building β} (hx : x.Finds file P f) (hk : ∀ a, P a → (k a).Finds file Q .none) :
    (x >>= k).Finds file Q f := (hx.bind hk).congr (Findings.and_none f)

theorem map {h : α → β} (hx : x.Finds file P f) (hQ : ∀ a, P a → Q (h a)) : (h <$> x).Finds file Q f := by
  rw [map_eq_pure_bind]
  exact hx.last fun a ha => pure (hQ a ha)

theorem lift {r : Except Error α} {k : α → Building β} (hk : ∀ a, r = .ok a → (k a).Finds file Q g) :
    (liftM r >>= k : Building β).Finds file Q g := by
  refine (bind (silent (P := fun a => r = .ok a) (.of_lift r) fun session a after hrun => ?_) hk).congr
    (Findings.none_and g)
  exact (run_lift_ok hrun).1

/-! ## §3. Lookups. -/

variable {m : Mapping} {key : String} {read : Node → Except Error α} {k : Lookup α → Building β}

/-- A lookup finds what reading the value under the key gives, or nothing where there is no value. -/
theorem lookup (hmissing : m.node.value? key = none → ∀ l, l.optional = none → (k l).Finds file Q g)
    (hfound : ∀ n a l, m.node.value? key = some n → read n = .ok a → l.optional = some a → (k l).Finds file Q g) :
    (liftM (m.lookup key read) >>= k : Building β).Finds file Q g := by
  have hlook : (liftM (m.lookup key read) : Building (Lookup α)).Finds file
      (fun l => (m.node.value? key = none ∧ l.optional = none) ∨
        ∃ n a, m.node.value? key = some n ∧ read n = .ok a ∧ l.optional = some a) .none :=
    silent (.of_reading _) (lookup_gives m key read)
  refine (hlook.bind fun l hl => ?_).congr (Findings.none_and g)
  rcases hl with ⟨hnone, hl⟩ | ⟨n, a, hsome, hread, hl⟩
  -- a key that is absent or null, and one that holds a value
  · exact hmissing hnone l hl
  · exact hfound n a l hsome hread hl

/-- A value that is required is there. -/
theorem required {l : Lookup γ} {c : γ} {k : γ → Building β} (hl : l.optional = some c) (hk : (k c).Finds file Q g) :
    (liftM l.required >>= k : Building β).Finds file Q g :=
  lift fun a ha => by
    rw [Lookup.required_eq_ok, hl] at ha
    cases ha
    exact hk

theorem required_missing {l : Lookup γ} {k : γ → Building β} (hl : l.optional = none) :
    (liftM l.required >>= k : Building β).Finds file Q g :=
  lift fun a ha => by
    rw [Lookup.required_eq_ok, hl] at ha
    exact absurd ha nofun

/-- A mapping that is looked up is in the same document. -/
theorem mapping {k : Lookup Mapping → Building β}
    (hmissing : m.node.value? key = none → ∀ l, l.optional = none → (k l).Finds file Q g)
    (hfound : ∀ c l, m.node.value? key = some c.node → c.filename = m.filename → l.optional = some c →
      (k l).Finds file Q g) :
    (liftM (m.mapping key) >>= k : Building β).Finds file Q g := by
  refine lookup hmissing fun n c l hn hread hl => ?_
  obtain ⟨rfl, hdocument⟩ := Mapping.of_ofNode hread
  exact hfound c l hn (congrArg Document.filename hdocument) hl

theorem sequence {k : Lookup Sequence → Building β}
    (hmissing : m.node.value? key = none → ∀ l, l.optional = none → (k l).Finds file Q g)
    (hfound : ∀ s l, m.node.value? key = some s.node → s.document.filename = m.filename → l.optional = some s →
      (k l).Finds file Q g) :
    (liftM (m.sequence key) >>= k : Building β).Finds file Q g := by
  refine lookup hmissing fun n c l hn hread hl => ?_
  obtain ⟨rfl, hdocument⟩ := Sequence.of_ofNode hread
  exact hfound c l hn (congrArg Document.filename hdocument) hl

/-- What is read if it is there. -/
theorem optionally {read : Mapping → Building γ} {default : γ} {F : Node → Findings} {o : Option Mapping}
    (h : ∀ c, o = some c → (read c).Finds file (fun _ => True) (F c.node)) :
    (Building.optionally read default o).Finds file (fun _ => True) (.each (o.map Mapping.node).toList F) := by
  cases o with
  | none => exact (pure trivial).congr (Findings.each_nil F).symm
  | some c =>
    rw [Option.map_some, Option.toList_some, Findings.each_cons, Findings.each_nil, Findings.and_none]
    exact h c rfl

/-- A mapping that is looked up is the one under the key, if it is there. -/
theorem found {k : Lookup Mapping → Building β}
    (h : ∀ l, l.optional.map Mapping.node = m.node.value? key → (∀ c, l.optional = some c → c.filename = m.filename) →
      (k l).Finds file Q g) : (liftM (m.mapping key) >>= k : Building β).Finds file Q g := by
  refine mapping (fun hnone l hl => h l ?_ ?_) fun c l hc hcfile hl => h l ?_ ?_
  · rw [hl, hnone, Option.map_none]
  · exact fun c hc => absurd (hl.symm.trans hc) nofun
  · rw [hl, hc, Option.map_some]
  · intro c' hc'
    rw [hl] at hc'
    cases hc'
    exact hcfile

/-- A mapping that is looked up and read if it is there. -/
theorem optional {read : Mapping → Building γ} {default : γ} {k : γ → Building β} {F : Node → Findings}
    (hread : ∀ c, c.filename = m.filename → (read c).Finds file (fun _ => True) (F c.node))
    (hk : ∀ a, (k a).Finds file Q g) :
    (liftM (m.mapping key) >>= fun l => Building.optionally read default l.optional >>= k : Building β).Finds file Q
      ((Findings.each (m.node.value? key).toList F).and g) := by
  refine found fun l hl hfiles => ?_
  rw [← hl]
  exact (optionally fun c hc => hread c (hfiles c hc)).bind fun a _ => hk a

theorem string {k : Lookup String → Building β}
    (h : ∀ l, l.optional = m.node.textAt? key → (k l).Finds file Q g) :
    (liftM (m.string key) >>= k : Building β).Finds file Q g := by
  refine lookup (fun hnone l hl => h l ?_) fun n text l hn hread hl => h l ?_
  · rw [hl, Node.textAt?, hnone]
    rfl
  · rw [hl, Node.textAt?, hn]
    exact (Mapping.scalarText_of_scalarAt hread).symm

theorem boolean {k : Lookup Bool → Building β}
    (hmissing : m.node.value? key = none → ∀ l, l.optional = none → (k l).Finds file Q g)
    (hfound : ∀ n b l, m.node.value? key = some n → (b = true ↔ n.scalarText = some "true") →
      l.optional = some b → (k l).Finds file Q g) :
    (liftM (m.boolean key) >>= k : Building β).Finds file Q g := by
  refine lookup hmissing fun n b l hn hread hl => hfound n b l hn ?_ hl
  -- a boolean is read from its own kind of node or from its text, and both agree with what is written
  cases hb : n.boolean? with
  | some b' =>
    rw [hb] at hread
    cases hread
    rw [Node.scalarText_of_boolean? hb]
    cases b with
    | true => exact ⟨fun _ => rfl, fun _ => rfl⟩
    | false => exact ⟨fun h => absurd h nofun, fun h => absurd h (by decide)⟩
  | none =>
    rw [hb] at hread
    obtain ⟨text, htext, hread⟩ := Outcome.bind_eq_ok.1 hread
    rw [Mapping.scalarText_of_scalarAt htext, Option.some.injEq]
    by_cases htrue : text = "true"
    · rw [if_pos htrue] at hread
      cases hread
      exact ⟨fun _ => htrue, fun _ => rfl⟩
    · rw [if_neg htrue] at hread
      by_cases hfalse : text = "false"
      · rw [if_pos hfalse] at hread
        cases hread
        exact ⟨fun h => absurd h nofun, fun h => absurd h htrue⟩
      · rw [if_neg hfalse] at hread
        exact absurd hread nofun

/-- A reference that is written in the document is recorded. -/
theorem addReference {r : SchemaRef} {raw : String} (h : SchemaRef.parse raw file = .ok r) :
    (Building.addReference r).Finds file (fun _ => True) (.references fun raw' => raw' = raw) := by
  intro session u after hrun
  refine ⟨trivial, [.reference r], ?_, ?_⟩
  · obtain ⟨_, hleads⟩ := run_addReference r session
    rw [hrun] at hleads
    exact hleads.spec
  · refine ⟨?_, fun q => ?_, ?_, nofun, nofun⟩
    · rintro _ rfl
      exact ⟨r, h⟩
    · simp [Findings.Refers, Findings.references, Findings.none, h, eq_comm]
    · intro file' m hm
      simp at hm

/-! ## §4. Lists. -/

theorem mapM {f : α → Building β} {F : α → Findings} {xs : List α}
    (h : ∀ a ∈ xs, (f a).Finds file (fun _ => True) (F a)) :
    (xs.mapM f).Finds file (fun _ => True) (.each xs F) := by
  induction xs with
  | nil => exact (pure trivial).congr (Findings.each_nil F).symm
  | cons a xs ih =>
    rw [List.mapM_cons, Findings.each_cons]
    obtain ⟨hfirst, hrest⟩ := List.forall_mem_cons.1 h
    exact hfirst.bind fun _ _ => (ih hrest).last fun _ _ => pure trivial

theorem foldlM {f : β → α → Building β} {F : α → Findings} {xs : List α}
    (h : ∀ b, ∀ a ∈ xs, (f b a).Finds file (fun _ => True) (F a)) :
    ∀ b, (xs.foldlM f b).Finds file (fun _ => True) (.each xs F) := by
  induction xs with
  | nil => exact fun b => (pure trivial).congr (Findings.each_nil F).symm
  | cons a xs ih =>
    intro b
    rw [List.foldlM_cons, Findings.each_cons]
    exact (h b a List.mem_cons_self).bind fun c _ => ih (fun b a ha => h b a (List.mem_cons_of_mem _ ha)) c

theorem forM {f : α → Building Unit} {F : α → Findings} {xs : List α}
    (h : ∀ a ∈ xs, (f a).Finds file (fun _ => True) (F a)) :
    (xs.forM f).Finds file (fun _ => True) (.each xs F) := by
  induction xs with
  | nil => exact (pure trivial).congr (Findings.each_nil F).symm
  | cons a xs ih =>
    rw [Findings.each_cons]
    obtain ⟨hfirst, hrest⟩ := List.forall_mem_cons.1 h
    exact hfirst.bind fun _ _ => ih hrest

/-- The entries of a mapping are its keys with the mappings under them. -/
theorem mappingEntries {k : List (String × Mapping) → Building β}
    (hk : ∀ entries, entries.map (fun e => (e.1, e.2.node)) = m.node.members →
      (∀ e ∈ entries, e.2.filename = m.filename) → (k entries).Finds file Q g) :
    (liftM m.mappingEntries >>= k : Building β).Finds file Q g := by
  refine (bind (silent (.of_reading _) (mappingEntries_gives m)) fun entries h => ?_).congr (Findings.none_and g)
  exact hk entries h.1 fun e he => congrArg Document.filename (h.2 e he)

/-- The items of a sequence that are read as mappings are in the same document. -/
theorem mappings {s : Sequence} {k : List Mapping → Building β}
    (hk : ∀ ms, ms.map (fun c => c.node) = s.node.items → (∀ c ∈ ms, c.filename = s.document.filename) →
      (k ms).Finds file Q g) : (liftM s.mappings >>= k : Building β).Finds file Q g := by
  refine lift fun ms hms => ?_
  obtain ⟨hnodes, hdocuments⟩ := Sequence.of_mappings hms
  exact hk ms hnodes fun c hc => congrArg Document.filename (hdocuments c hc)

end Finds

end Building

end OpenApi
