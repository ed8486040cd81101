/-
  OpenApi.Proofs.Effects.Steady — steps whose effect does not depend on where they start.

  A step marks keys of the document, changes the spec and reports what happened. It is steady if from all
  sessions whose specs agree it gives the same result, adds the same marks and makes the same changes. A reading
  looks at no spec, so it is steady whatever the specs; a step that asks for a model by its name is steady among
  specs that know the same names. No step inside a document reports that a document was loaded.
-/
import OpenApi.Proofs.Build.Results

namespace OpenApi

/-! ## §1. Effects. -/

/-- The marks with more of them. -/
def Usage.plus (u more : Usage) : Usage := ⟨more.read ++ u.read, more.sealed ++ u.sealed⟩

theorem Usage.plus_assoc (u v w : Usage) : (u.plus v).plus w = u.plus (v.plus w) := by
  simp [plus, List.append_assoc]

/-- The name under which a document was asked for, if the event tells that it was found. -/
def Event.loaded? : Event → Option String
  | .loadedDocument file => some file
  | .followedLink link _ => some link
  | _ => none

/-- What a step does: the marks that it adds, and the changes that it makes. -/
structure Effect where
  marks : Usage
  changes : List Change

namespace Effect

/-- A step without effect. -/
def none : Effect := ⟨.none, []⟩

/-- One effect after another. -/
def append (e f : Effect) : Effect := ⟨e.marks.plus f.marks, e.changes ++ f.changes⟩

/-- The effect leads from one session to another, and no document is loaded on the way. -/
structure Leads (e : Effect) (session after : Session) : Prop where
  usage : after.usage = session.usage.plus e.marks
  spec : session.spec.applyAll e.changes = .ok after.spec
  events : after.events.filterMap Event.loaded? = session.events.filterMap Event.loaded?

namespace Leads

variable {e f : Effect} {session middle after : Session}

theorem refl (session : Session) : none.Leads session session := ⟨rfl, rfl, rfl⟩

theorem trans (h : e.Leads session middle) (h' : f.Leads middle after) :
    (e.append f).Leads session after where
  usage := by rw [h'.usage, h.usage, Usage.plus_assoc]; rfl
  spec := Spec.applyAll_trans h.spec h'.spec
  events := h'.events.trans h.events

end Leads

end Effect

/-! ## §2. Steady steps. -/

/-- A way in which specs may agree, which changes that are made to both of them keep, and the changes that steps may
make among such specs. -/
structure Agreement where
  holds : Spec → Spec → Prop
  allows : Change → Prop
  reference : ∀ r, allows (.reference r)
  apply : ∀ {s t s' t' : Spec} {c : Change}, holds s t → s.apply c = .ok s' → t.apply c = .ok t' → holds s' t'

namespace Agreement

variable {K : Agreement}

theorem applyAll {changes : List Change} : ∀ {s t s' t' : Spec}, K.holds s t →
    s.applyAll changes = .ok s' → t.applyAll changes = .ok t' → K.holds s' t' := by
  induction changes with
  | nil =>
    intro s t s' t' h hs ht
    rw [← Except.ok.inj hs, ← Except.ok.inj ht]
    exact h
  | cons c changes ih =>
    intro s t s' t' h hs ht
    obtain ⟨s₁, hc, hs⟩ := Outcome.bind_eq_ok.1 hs
    obtain ⟨t₁, hd, ht⟩ := Outcome.bind_eq_ok.1 ht
    exact ih (K.apply h hc hd) hs ht

/-- Any two specs agree in nothing; only references are recorded. -/
def nothing : Agreement where
  holds _ _ := True
  allows c := ∃ r, c = .reference r
  reference r := ⟨r, rfl⟩
  apply _ _ _ := trivial

end Agreement

namespace Building

variable {α β : Type} {K : Agreement}

/-- From all sessions whose specs agree with that of a given one, the step gives the same result and has the same
effect, which makes only changes that are allowed. The given spec is one that agrees with itself. -/
def Steady (K : Agreement) (x : Building α) : Prop :=
  ∀ s : Session, K.holds s.spec s.spec → ∃ (result : Except Error α) (e : Effect), (∀ c ∈ e.changes, K.allows c) ∧
    ∀ t : Session, K.holds s.spec t.spec → (x.run.run t).1 = result ∧ e.Leads t (x.run.run t).2

/-- If the first of two steps fails, so do both of them. -/
theorem run_bind_error {x : Building α} {g : α → Building β} {session middle : Session} {e : Error}
    (h : x.run.run session = (.error e, middle)) : (x >>= g).run.run session = (.error e, middle) := by
  show (x.run >>= ExceptT.bindCont g).run session = _
  rw [StateT.run_bind, h]
  rfl

/-- A reference is recorded, and reported if it was not known before. -/
theorem run_addReference (r : SchemaRef) (session : Session) :
    ((Building.addReference r).run.run session).1 = .ok () ∧
      Effect.Leads ⟨.none, [.reference r]⟩ session ((Building.addReference r).run.run session).2 := by
  unfold Building.addReference
  have hask : Building.spec.run.run session = (.ok session.spec, session) := rfl
  rw [run_bind hask]
  split
  next => exact ⟨rfl, rfl, rfl, rfl⟩
  next =>
    refine ⟨rfl, rfl, rfl, ?_⟩
    show (session.events ++ [Event.registeredReference r.reference r.declaredIn]).filterMap Event.loaded? = _
    simp [Event.loaded?]

namespace Steady

variable {x : Building α}

theorem pure {a : α} : Steady K (Pure.pure a : Building α) :=
  fun _ _ => ⟨.ok a, .none, fun _ hc => absurd hc List.not_mem_nil, fun t _ => ⟨rfl, .refl t⟩⟩

theorem throw {e : Error} : Steady K (throw e : Building α) :=
  fun _ _ => ⟨.error e, .none, fun _ hc => absurd hc List.not_mem_nil, fun t _ => ⟨rfl, .refl t⟩⟩

theorem bind {g : α → Building β} (hx : x.Steady K) (hg : ∀ a, (g a).Steady K) : (x >>= g).Steady K := by
  intro s hself
  obtain ⟨result, e, hallowed, hx⟩ := hx s hself
  cases result with
  | error err =>
    have hfails : ∀ t, K.holds s.spec t.spec →
        ((x >>= g).run.run t).1 = .error err ∧ e.Leads t ((x >>= g).run.run t).2 := by
      intro t h
      obtain ⟨hresult, hleads⟩ := hx t h
      rw [run_bind_error (Prod.ext hresult rfl)]
      exact ⟨rfl, hleads⟩
    exact ⟨.error err, e, hallowed, hfails⟩
  | ok a =>
    obtain ⟨-, hfirst⟩ := hx s hself
    obtain ⟨result, f, hallowed', hg⟩ := hg a (x.run.run s).2 (K.applyAll hself hfirst.spec hfirst.spec)
    have hgoes : ∀ t, K.holds s.spec t.spec →
        ((x >>= g).run.run t).1 = result ∧ (e.append f).Leads t ((x >>= g).run.run t).2 := by
      intro t h
      obtain ⟨hresult, hleads⟩ := hx t h
      -- the specs still agree after the same changes, so the second step goes on alike
      obtain ⟨hresult', hleads'⟩ := hg (x.run.run t).2 (K.applyAll h hfirst.spec hleads.spec)
      rw [run_bind (Prod.ext hresult rfl)]
      exact ⟨hresult', hleads.trans hleads'⟩
    exact ⟨result, e.append f, List.forall_mem_append.2 ⟨hallowed, hallowed'⟩, hgoes⟩

theorem of_lift (r : Except Error α) : (liftM r : Building α).Steady K :=
  fun _ _ => ⟨r, .none, fun _ hc => absurd hc List.not_mem_nil, fun t _ => ⟨rfl, .refl t⟩⟩

theorem lift {r : Except Error α} {g : α → Building β} (hg : ∀ a, (g a).Steady K) :
    (liftM r >>= g : Building β).Steady K := (of_lift r).bind hg

/-- A report that no document was loaded. -/
theorem report {event : Event} {g : Unit → Building β} (hevent : event.loaded? = Option.none)
    (hg : ∀ u, (g u).Steady K) : (Building.report event >>= g).Steady K := by
  have hleads : ∀ session : Session,
      Effect.none.Leads session { session with events := session.events ++ [event] } := by
    intro session
    refine ⟨rfl, rfl, ?_⟩
    simp [hevent]
  have hreport : (Building.report event).Steady K :=
    fun _ _ => ⟨.ok (), .none, fun _ hc => absurd hc List.not_mem_nil, fun t _ => ⟨rfl, hleads t⟩⟩
  exact hreport.bind hg

theorem map {f : α → β} (h : x.Steady K) : (f <$> x).Steady K := by
  rw [map_eq_pure_bind]
  exact h.bind fun _ => pure

theorem optionally {read : α → Building β} {default : β} (h : ∀ a, (read a).Steady K) (o : Option α) :
    (Building.optionally read default o).Steady K := by
  cases o with
  | none => exact pure
  | some a => exact h a

/-- A question to the spec on whose answer specs that agree agree. -/
theorem ask {g : Spec → Building β} (hsame : ∀ s t, K.holds s t → g s = g t) (hg : ∀ s, (g s).Steady K) :
    (Building.spec >>= g).Steady K := by
  intro s hself
  have hask : ∀ t : Session, Building.spec.run.run t = (.ok t.spec, t) := fun _ => rfl
  obtain ⟨result, e, hallowed, hg⟩ := hg s.spec s hself
  have hgoes : ∀ t, K.holds s.spec t.spec →
      ((Building.spec >>= g).run.run t).1 = result ∧ e.Leads t ((Building.spec >>= g).run.run t).2 := by
    intro t h
    rw [run_bind (hask t), ← hsame s.spec t.spec h]
    exact hg t h
  exact ⟨result, e, hallowed, hgoes⟩

/-- An update that makes one change, or is refused, alike for specs that agree. -/
theorem update {f : Spec → Except Error Spec}
    (hf : ∀ s, (∃ e, ∀ t, K.holds s t → f t = .error e) ∨
      ∃ c, K.allows c ∧ ∀ t, K.holds s t → ∃ t', f t = .ok t' ∧ t.apply c = .ok t') :
    (Building.update f).Steady K := by
  intro s _
  -- refused in every state alike, or one and the same change in all of them
  rcases hf s.spec with ⟨e, hrefused⟩ | ⟨c, hallowed, hmade⟩
  · have hfails : ∀ t, K.holds s.spec t.spec → ((Building.update f).run.run t).1 = .error e ∧
        Effect.none.Leads t ((Building.update f).run.run t).2 := by
      intro t h
      rw [run_update_error (hrefused t.spec h)]
      exact ⟨rfl, .refl t⟩
    exact ⟨.error e, .none, fun _ hc => absurd hc List.not_mem_nil, hfails⟩
  · have hgoes : ∀ t, K.holds s.spec t.spec → ((Building.update f).run.run t).1 = .ok () ∧
        Effect.Leads ⟨.none, [c]⟩ t ((Building.update f).run.run t).2 := by
      intro t h
      obtain ⟨t', hf, happly⟩ := hmade t.spec h
      rw [run_update hf]
      refine ⟨rfl, rfl, ?_, rfl⟩
      rw [Spec.applyAll_cons, happly]
      rfl
    exact ⟨.ok (), ⟨.none, [c]⟩, by simpa using hallowed, hgoes⟩

/-- Recording a reference has the same effect on every spec. -/
theorem addReference (r : SchemaRef) : (Building.addReference r).Steady K :=
  fun _ _ => ⟨.ok (), _, by simpa using K.reference r, fun t _ => run_addReference r t⟩

/-! ## §3. Lists. -/

theorem mapM {f : α → Building β} {xs : List α} (h : ∀ a ∈ xs, (f a).Steady K) : (xs.mapM f).Steady K := by
  induction xs with
  | nil => exact pure
  | cons a xs ih =>
    rw [List.mapM_cons]
    have hrest := ih fun b hb => h b (List.mem_cons_of_mem _ hb)
    exact (h a List.mem_cons_self).bind fun _ => hrest.bind fun _ => pure

theorem foldlM {f : β → α → Building β} {xs : List α} (h : ∀ b, ∀ a ∈ xs, (f b a).Steady K) :
    ∀ b, (xs.foldlM f b).Steady K := by
  induction xs with
  | nil => exact fun _ => pure
  | cons a xs ih =>
    intro b
    rw [List.foldlM_cons]
    have hrest := ih fun b a ha => h b a (List.mem_cons_of_mem _ ha)
    exact (h b a List.mem_cons_self).bind hrest

theorem forM {f : α → Building Unit} {xs : List α} (h : ∀ a ∈ xs, (f a).Steady K) : (xs.forM f).Steady K := by
  induction xs with
  | nil => exact pure
  | cons a xs ih =>
    have hrest := ih fun b hb => h b (List.mem_cons_of_mem _ hb)
    exact (h a List.mem_cons_self).bind fun _ => hrest

end Steady

/-- The result of the step from a session in which nothing was read or declared. -/
def outcome (x : Building α) : Except Error α := (x.run.run ⟨.none, .empty "", []⟩).1

theorem Gives.of_outcome {x : Building α} {Q : α → Prop} (h : x.Gives Q) {a : α} (hx : x.outcome = .ok a) : Q a :=
  h _ a _ (Prod.ext hx rfl)

/-- A step that is steady whatever the specs gives the same from every session. -/
theorem Steady.gives {x : Building α} (h : x.Steady .nothing) : x.Gives fun a => x.outcome = .ok a := by
  intro session a after hrun
  obtain ⟨result, e, hallowed, hgoes⟩ := h session trivial
  obtain ⟨hhere, -⟩ := hgoes session trivial
  obtain ⟨houtset, -⟩ := hgoes ⟨.none, .empty "", []⟩ trivial
  rw [hrun] at hhere
  exact houtset.trans hhere.symm

end Building

/-! ## §4. Readings. -/

namespace Reading

variable {α β : Type}

/-- The reading gives the same result and adds the same marks, whatever was marked before. -/
def Uniform (r : Reading α) : Prop :=
  ∃ (result : Except Error α) (marks : Usage), ∀ u : Usage, r.run.run u = (result, u.plus marks)

namespace Uniform

variable {m : Mapping} {key : String}

theorem pure {a : α} : Uniform (Pure.pure a) := ⟨.ok a, .none, fun _ => rfl⟩

theorem except (r : Except Error α) : Uniform (ExceptT.mk (Pure.pure r)) := ⟨r, .none, fun _ => rfl⟩

theorem bind {r : Reading α} {g : α → Reading β} (hr : Uniform r) (hg : ∀ a, Uniform (g a)) :
    Uniform (r >>= g) := by
  obtain ⟨result, marks, hrun⟩ := hr
  have hbind : ∀ u, (r >>= g).run.run u = (ExceptT.bindCont g result).run (u.plus marks) := by
    intro u
    show (r.run >>= ExceptT.bindCont g).run u = _
    rw [StateT.run_bind, hrun]
    rfl
  cases result with
  | error e => exact ⟨.error e, marks, fun u => hbind u⟩
  | ok a =>
    obtain ⟨result', marks', hrun'⟩ := hg a
    refine ⟨result', marks.plus marks', fun u => ?_⟩
    rw [hbind u, ← Usage.plus_assoc]
    exact hrun' (u.plus marks)

theorem mapM {f : α → Reading β} {xs : List α} (h : ∀ a, Uniform (f a)) : Uniform (xs.mapM f) := by
  induction xs with
  | nil => exact pure
  | cons a xs ih =>
    rw [List.mapM_cons]
    exact (h a).bind fun _ => ih.bind fun _ => pure

theorem lookup {read : Node → Except Error α} : Uniform (m.lookup key read) := by
  unfold Mapping.lookup
  by_cases hkey : m.containsKey key = true
  · refine ⟨m.look key read, ⟨[m.child key], []⟩, fun u => ?_⟩
    rw [if_pos hkey]
    rfl
  · refine ⟨m.look key read, .none, fun u => ?_⟩
    rw [if_neg hkey]
    rfl

theorem value : Uniform (m.value key) := by
  unfold Mapping.value
  split
  next => exact pure
  next n _ =>
    split
    next => exact ⟨.ok (m.absent key), ⟨[m.child key], []⟩, fun _ => rfl⟩
    next =>
      split
      next json _ =>
        exact ⟨.ok ⟨.present json, some (m.origin key)⟩, ⟨[m.child key], [m.child key]⟩, fun _ => rfl⟩
      next p _ =>
        exact ⟨.error (m.invalidValueAt key ("value has no JSON form: " ++ p.message)),
          ⟨[m.child key], [m.child key]⟩, fun _ => rfl⟩

theorem ignore {keys : List String} : Uniform (m.ignore keys) := by
  have hmarks : ∃ marks : Usage, ∀ u, m.passedOver keys u = u.plus marks := by
    induction keys with
    | nil => exact ⟨.none, fun _ => rfl⟩
    | cons k keys ih =>
      obtain ⟨marks, hrest⟩ := ih
      by_cases hk : m.containsKey k = true
      · refine ⟨Usage.plus ⟨[m.child k], [m.child k]⟩ marks, fun u => ?_⟩
        have hfirst : m.passedOver (k :: keys) u = m.passedOver keys (u.markSealed (m.child k)) := by
          simp [Mapping.passedOver, hk]
        rw [hfirst, hrest, ← Usage.plus_assoc]
        rfl
      · refine ⟨marks, fun u => ?_⟩
        have hfirst : m.passedOver (k :: keys) u = m.passedOver keys u := by
          simp [Mapping.passedOver, hk]
        rw [hfirst, hrest]
  obtain ⟨marks, hmarks⟩ := hmarks
  exact ⟨.ok (), marks, fun u => congrArg (Prod.mk _) (hmarks u)⟩

theorem mappingEntries : Uniform m.mappingEntries := by
  unfold Mapping.mappingEntries
  exact mapM fun key => lookup.bind fun found => (except found.required).bind fun _ => pure

end Uniform

end Reading

namespace Building

variable {α β : Type} {K : Agreement}

theorem Steady.of_reading {r : Reading α} (hr : r.Uniform) : (liftM r : Building α).Steady K := by
  obtain ⟨result, marks, hrun⟩ := hr
  have hlift : ∀ session : Session, (liftM r : Building α).run.run session =
      (result, { session with usage := session.usage.plus marks }) := by
    intro session
    show ((r.run.run session.usage).1, { session with usage := (r.run.run session.usage).2 }) = _
    rw [hrun]
  have hgoes : ∀ t : Session, ((liftM r : Building α).run.run t).1 = result ∧
      Effect.Leads ⟨marks, []⟩ t ((liftM r : Building α).run.run t).2 := by
    intro t
    rw [hlift]
    exact ⟨rfl, rfl, rfl, rfl⟩
  exact fun _ _ => ⟨result, ⟨marks, []⟩, fun _ hc => absurd hc List.not_mem_nil, fun t _ => hgoes t⟩

theorem Steady.reading {r : Reading α} {g : α → Building β} (hr : r.Uniform) (hg : ∀ a, (g a).Steady K) :
    (liftM r >>= g : Building β).Steady K := (of_reading hr).bind hg

/-- What a lookup is followed by. -/
theorem Steady.lookup {m : Mapping} {key : String} {read : Node → Except Error α} {g : Lookup α → Building β}
    (hg : ∀ a, (g a).Steady K) : (liftM (m.lookup key read) >>= g : Building β).Steady K :=
  reading .lookup hg

end Building

end OpenApi
