/-
  OpenApi.Proofs.Strictness.Lookups — lookups in a mapping and in the trimmed one.

  A lookup marks its key, so by the end of the reading the key is known to stay; then both lookups find alike
  values, or none. Asking for a key without marking it leads to the same branch if the branch marks it.
-/
import OpenApi.Proofs.Strictness.Follows

namespace OpenApi

namespace Trim

variable {α β γ δ : Type} {T : Trim} {m m' : Mapping} {key : String} {R : α → β → Prop}

/-! ## §1. What lookups find. -/

/-- Two lookups of a key found related values under a key that is there, or both found none. -/
inductive Found (m : Mapping) (key : String) (R : α → β → Prop) (l : Lookup α) (l' : Lookup β) : Prop
  | present {a : α} {b : β} (h : l.optional = some a) (h' : l'.optional = some b) (hab : R a b)
      (there : m.containsKey key = true) : Found m key R l l'
  | missing (h : l.optional = none) (h' : l'.optional = none) : Found m key R l l'

namespace Found

variable {l : Lookup α} {l' : Lookup β} {k k' : Lookup α}

theorem outcome (h : Found m key R l l') : Option.Rel R l.optional l'.optional := by
  cases h with
  | present h h' hab _ => rw [h, h']; exact .some hab
  | missing h h' => rw [h, h']; exact .none

theorem same (h : Found m key Eq k k') : k'.optional = k.optional := by
  cases h with
  | present h h' hab _ => rw [h, h', hab]
  | missing h h' => rw [h, h']

theorem getD (h : Found m key Eq k k') (default : α) : k'.getD default = k.getD default := by
  unfold Lookup.getD
  rw [h.same]

end Found

/-- Where the one value is required and there, so is the other. -/
theorem Follows.required {l : Lookup α} {l' : Lookup β} (h : Found m key R l l') :
    T.Follows (liftM l.required) (liftM l'.required) (fun a b => R a b ∧ m.containsKey key = true) True := by
  refine .lift fun a ha => ?_
  cases h with
  | present h h' hab there =>
    rw [Lookup.required_eq_ok.1 ha] at h
    cases h
    exact ⟨_, Lookup.required_eq_ok.2 h', hab, there⟩
  | missing h _ =>
    rw [Lookup.required_eq_ok.1 ha] at h
    exact absurd h (by simp)

namespace Follows

/-! ## §2. Lookups. -/

/-- A lookup marks its key, and finds related values where reading gives such. -/
theorem lookup (h : T.Cuts m m') (key : String) {read : Node → Except Error α}
    {read' : Node → Except Error β}
    (hread : ∀ n a, m.node.get? key = some n → read n = .ok a →
      ∃ b, read' (n.without T.gone (m.child key)) = .ok b ∧ R a b) :
    T.Follows (liftM (m.lookup key read)) (liftM (m'.lookup key read')) (Found m key R)
      (T.Keeps m key) := by
  intro session l after hrun
  rw [Building.run_lookup] at hrun
  obtain ⟨hlook, rfl⟩ := Prod.mk.inj hrun
  have hmarks : session.usage.Within
      (if m.containsKey key then session.usage.markRead (m.child key) else session.usage) := by
    split
    next => exact .markRead _ _
    next => exact .refl _
  -- what the second lookup finds, where the key stays
  have hagain : T.Keeps m key → ∃ l', m'.look key read' = .ok l' ∧ Found m key R l l' := by
    intro hkeep
    rcases Mapping.look_eq_ok.1 hlook with ⟨hnull, rfl⟩ | ⟨n, a, hget, hkind, ha, rfl⟩
    · refine ⟨_, Mapping.look_eq_ok.2 (.inl ⟨?_, rfl⟩), .missing rfl rfl⟩
      rw [h.get?_kept hkeep]
      intro n' hn'
      obtain ⟨n, hn, rfl⟩ := Option.map_eq_some_iff.1 hn'
      rw [Node.kind_without]
      exact hnull n hn
    · obtain ⟨b, hb, hab⟩ := hread n a hget ha
      refine ⟨_, Mapping.look_eq_ok.2 (.inr ⟨_, b, ?_, ?_, hb, rfl⟩), .present rfl rfl hab ?_⟩
      · rw [h.get?_kept hkeep, hget]
        rfl
      · rwa [Node.kind_without]
      · simp [Mapping.containsKey, hget]
  have hcounterpart : ∃ l', Found m key R l l' := by
    rcases Mapping.look_eq_ok.1 hlook with ⟨-, rfl⟩ | ⟨n, a, hget, -, ha, rfl⟩
    · exact ⟨.missing "", .missing rfl rfl⟩
    · obtain ⟨b, -, hab⟩ := hread n a hget ha
      exact ⟨.present b, .present rfl rfl hab (by simp [Mapping.containsKey, hget])⟩
  refine ⟨.of_marks hmarks rfl, hcounterpart, fun husage => ?_⟩
  have hkeep : T.Keeps m key := by
    intro hkey hgone
    refine T.not_read _ hgone (husage.read ?_)
    rw [if_pos hkey]
    exact List.mem_cons_self
  refine ⟨hkeep, fun events => ?_⟩
  obtain ⟨l', hlook', hfound⟩ := hagain hkeep
  refine ⟨l', events, ?_, hfound⟩
  rw [Building.run_lookup, hlook', h.containsKey_kept hkeep, h.child]

/-- The text of a scalar does not depend on what is trimmed. -/
theorem scalarAt_without (m' : Mapping) {n : Node} {gone : List Path} {path : Path} {text : String}
    (h : m.scalarAt key n = .ok text) : m'.scalarAt key (n.without gone path) = .ok text := by
  unfold Mapping.scalarAt at h ⊢
  rw [Node.scalarText_without]
  cases htext : n.scalarText with
  | none => rw [htext] at h; exact absurd h (by simp)
  | some _ => rwa [htext] at h

theorem string (h : T.Cuts m m') (key : String) :
    T.Follows (liftM (m.string key)) (liftM (m'.string key)) (Found m key Eq) (T.Keeps m key) :=
  lookup h key fun _ text _ hread => ⟨text, scalarAt_without m' hread, rfl⟩

/-- A scalar whose text is read in the same way, up to errors. -/
theorem scalar (h : T.Cuts m m') (key : String) {f f' : String → Except Error α}
    (hf : ∀ text a, f text = .ok a → f' text = .ok a) :
    T.Follows (liftM (m.lookup key fun n => m.scalarAt key n >>= f))
      (liftM (m'.lookup key fun n => m'.scalarAt key n >>= f')) (Found m key Eq) (T.Keeps m key) := by
  refine lookup h key fun n a _ hread => ⟨a, ?_, rfl⟩
  obtain ⟨text, htext, hread⟩ := Outcome.bind_eq_ok.1 hread
  exact Outcome.bind_eq_ok.2 ⟨text, scalarAt_without m' htext, hf text a hread⟩

theorem boolean (h : T.Cuts m m') (key : String) :
    T.Follows (liftM (m.boolean key)) (liftM (m'.boolean key)) (Found m key Eq) (T.Keeps m key) := by
  refine lookup h key fun n b _ hread => ⟨b, ?_, rfl⟩
  rw [Node.boolean?_without]
  cases hb : n.boolean? with
  | some _ => rwa [hb] at hread
  | none =>
    simp only [hb] at hread ⊢
    obtain ⟨text, htext, hread⟩ := Outcome.bind_eq_ok.1 hread
    refine Outcome.bind_eq_ok.2 ⟨text, scalarAt_without m' htext, ?_⟩
    by_cases htrue : text = "true"
    · rwa [if_pos htrue] at hread ⊢
    · by_cases hfalse : text = "false"
      · rwa [if_neg htrue, if_pos hfalse] at hread ⊢
      · rw [if_neg htrue, if_neg hfalse] at hread
        exact absurd hread nofun

theorem number (h : T.Cuts m m') (key : String) :
    T.Follows (liftM (m.number key)) (liftM (m'.number key)) (Found m key Eq) (T.Keeps m key) := by
  refine scalar h key fun text k hread => ?_
  split at hread
  next => exact hread
  next => exact absurd hread nofun

theorem oneOf [Spelled α] (h : T.Cuts m m') (key : String) :
    T.Follows (liftM (m.oneOf α key)) (liftM (m'.oneOf α key)) (Found m key Eq) (T.Keeps m key) := by
  refine scalar h key fun text a hread => ?_
  split at hread
  next => exact hread
  next => exact absurd hread nofun

theorem mapping (h : T.Cuts m m') (key : String) :
    T.Follows (liftM (m.mapping key)) (liftM (m'.mapping key)) (Found m key T.Cuts) (T.Keeps m key) := by
  refine lookup h key fun n c _ hread => ?_
  rw [h.child]
  exact cuts_of_ofNode h.file h.file' hread

theorem sequence (h : T.Cuts m m') (key : String) :
    T.Follows (liftM (m.sequence key)) (liftM (m'.sequence key)) (Found m key T.CutsSequence)
      (T.Keeps m key) := by
  refine lookup h key fun n s _ hread => ?_
  rw [h.child]
  exact cutsSequence_of_ofNode h.file h.file' hread

theorem texts {s s' : Sequence} (h : T.CutsSequence s s') :
    T.Follows (liftM s.texts) (liftM s'.texts) Eq True :=
  lift fun texts hok => ⟨texts, h.texts hok, rfl⟩

theorem mappings {s s' : Sequence} (h : T.CutsSequence s s') :
    T.Follows (liftM s.mappings) (liftM s'.mappings) (List.Forall₂ T.Cuts) True :=
  lift fun _ hok => h.mappings hok

/-! ## §3. Whole subtrees. -/

/-- A value that is read as a whole is not touched by trimming, so its JSON form is the same. -/
theorem value (h : T.Cuts m m') (key : String) :
    T.Follows (liftM (m.value key)) (liftM (m'.value key)) (Found m key Eq) (T.Keeps m key) := by
  have hmissing : Found (α := Json) m key Eq (m.absent key) (m'.absent key) := .missing rfl rfl
  intro session l after hrun
  rw [Building.run_value] at hrun
  cases hget : m.node.get? key with
  | none =>
    rw [hget] at hrun
    obtain ⟨hl, rfl⟩ := Prod.mk.inj hrun
    cases hl
    -- nothing to keep where the key was never there
    have hkeep : T.Keeps m key := fun hkey => by simp [Mapping.containsKey, hget] at hkey
    refine ⟨.refl _, ⟨_, hmissing⟩, fun _ => ⟨hkeep, fun events => ⟨_, events, ?_, hmissing⟩⟩⟩
    rw [Building.run_value, h.get?_kept hkeep, hget]
    rfl
  | some n =>
    simp only [hget] at hrun
    by_cases hnull : n.kind = .null
    · rw [if_pos hnull] at hrun
      obtain ⟨hl, rfl⟩ := Prod.mk.inj hrun
      cases hl
      refine ⟨.of_marks (.markRead _ _) rfl, ⟨_, hmissing⟩, fun husage => ?_⟩
      have hkeep : T.Keeps m key := fun _ hgone => T.not_read _ hgone (husage.read List.mem_cons_self)
      refine ⟨hkeep, fun events => ⟨_, events, ?_, hmissing⟩⟩
      rw [Building.run_value, h.get?_kept hkeep, hget]
      simp only [Option.map_some, Node.kind_without, hnull, if_true, h.child]
    · rw [if_neg hnull] at hrun
      obtain ⟨hl, rfl⟩ := Prod.mk.inj hrun
      cases hjson : n.json with
      | error p =>
        rw [hjson] at hl
        exact absurd hl (by simp)
      | ok json =>
        rw [hjson] at hl
        cases hl
        have hfound : Found m key Eq ⟨.present json, some (m.origin key)⟩
            ⟨.present json, some (m'.origin key)⟩ :=
          .present rfl rfl rfl (by simp [Mapping.containsKey, hget])
        refine ⟨.of_marks (.markSealed _ _) rfl, ⟨_, hfound⟩, fun husage => ?_⟩
        have hkeep : T.Keeps m key := fun _ hgone => T.not_read _ hgone (husage.read List.mem_cons_self)
        -- the value was read as a whole, so nothing inside it was unused and nothing was cut
        have hwhole : n.without T.gone (m.child key) = n :=
          Node.without_eq_self (T.not_inside _ (husage.sealed List.mem_cons_self))
        refine ⟨hkeep, fun events => ⟨_, events, ?_, hfound⟩⟩
        rw [Building.run_value, h.get?_kept hkeep, hget]
        simp only [Option.map_some, hwhole, hnull, if_false, hjson, h.child]

/-- Keys that are passed over stay. -/
theorem ignore (h : T.Cuts m m') (keys : List String) :
    T.Follows (liftM (m.ignore keys)) (liftM (m'.ignore keys)) (fun _ _ => True)
      (∀ key ∈ keys, T.Keeps m key) := by
  intro session u after hrun
  rw [Building.run_ignore] at hrun
  obtain ⟨-, rfl⟩ := Prod.mk.inj hrun
  obtain ⟨hmarks, hread⟩ := Mapping.within_passedOver session.usage
  refine ⟨.of_marks hmarks rfl, ⟨(), trivial⟩, fun husage => ?_⟩
  have hkeep : ∀ key ∈ keys, T.Keeps m key := fun key hk hkey hgone =>
    T.not_read _ hgone (husage.read (hread key hk hkey))
  refine ⟨hkeep, fun events => ⟨(), events, ?_, trivial⟩⟩
  have hsame : m'.passedOver keys session.usage = m.passedOver keys session.usage := by
    refine List.foldl_ext _ _ _ fun u key hk => ?_
    rw [h.containsKey_kept (hkeep key hk), h.child]
  rw [Building.run_ignore, hsame]

/-! ## §4. Decisions without a mark. -/

/-- A branch that marks the key on which it depends is the one that follows. -/
theorem ite_containsKey {x y : Building α} {x' y' : Building β} {F : Prop} (h : T.Cuts m m')
    (hthen : m.containsKey key = true → T.Follows x x' R (F ∧ T.Keeps m key))
    (helse : m.containsKey key = false → T.Follows y y' R F) :
    T.Follows (if m.containsKey key = true then x else y)
      (if m'.containsKey key = true then x' else y') R F := by
  cases hkey : m.containsKey key with
  | true =>
    refine (hthen hkey).congr_right fun hkeep => ?_
    rw [h.containsKey_kept hkeep, hkey, if_pos rfl]
  | false =>
    rw [h.not_containsKey hkey]
    exact helse hkey

/-! ## §5. Entries. -/

/-- Where each key of a mapping is looked up, all of them stay. -/
theorem mapM_keys {f : String → Building γ} {f' : String → Building δ} {S : γ → δ → Prop} (h : T.Cuts m m')
    (hf : ∀ key, T.Follows (f key) (f' key) S (T.Keeps m key)) :
    T.Follows (m.keys.mapM f) (m'.keys.mapM f') (List.Forall₂ S) True := by
  rw [h.keys]
  refine mapM_kept fun key hkey => (hf key).showing fun hkeep => ?_
  simpa using hkeep (Cuts.mem_keys.1 hkey)

theorem forM_keys {f f' : String → Building Unit} (h : T.Cuts m m') (p : String → Bool)
    (hf : ∀ key, T.Follows (f key) (f' key) (fun _ _ => True) (T.Keeps m key)) :
    T.Follows ((m.keys.filter p).forM f) ((m'.keys.filter p).forM f') (fun _ _ => True) True := by
  have hkeys : m'.keys.filter p = (m.keys.filter p).filter fun key => m.child key ∉ T.gone := by
    rw [h.keys, List.filter_filter, List.filter_filter]
    exact List.filter_congr fun _ _ => Bool.and_comm _ _
  rw [hkeys]
  refine forM_kept fun key hkey => (hf key).showing fun hkeep => ?_
  simpa using hkeep (Cuts.mem_keys.1 (List.mem_of_mem_filter hkey))

/-- All entries of a mapping stay when all of them are read. -/
theorem mappingEntries (h : T.Cuts m m') :
    T.Follows (liftM m.mappingEntries) (liftM m'.mappingEntries)
      (List.Forall₂ fun e e' => e.1 = e'.1 ∧ T.Cuts e.2 e'.2) True := by
  unfold Mapping.mappingEntries
  rw [Building.liftM_mapM, Building.liftM_mapM]
  refine mapM_keys h fun key => ?_
  rw [Building.liftM_bind, Building.liftM_bind]
  refine (mapping h key).bind_first fun found found' hfound => ?_
  rw [Building.liftM_bind, Building.liftM_bind]
  exact (required hfound).bind fun c c' hc => pure ⟨rfl, hc.1⟩ trivial

end Follows
end Trim
end OpenApi
