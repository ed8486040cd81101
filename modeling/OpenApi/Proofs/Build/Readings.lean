/-
  OpenApi.Proofs.Build.Readings — what readings of a document do to a session.

  A reading changes nothing but the marks of the session. A lookup gives nothing for a key that is absent or null,
  and else what reading the value gives.
-/
import OpenApi.Build.Session
import OpenApi.Proofs.Build.Yields

namespace OpenApi

/-! ## §1. Marks. -/

/-- All that is marked in the first is marked in the second. -/
structure Usage.Within (u v : Usage) : Prop where
  read : u.read ⊆ v.read
  sealed : u.sealed ⊆ v.sealed

namespace Usage.Within

variable {u v w : Usage}

theorem refl (u : Usage) : u.Within u := ⟨List.Subset.refl _, List.Subset.refl _⟩

theorem trans (h : u.Within v) (h' : v.Within w) : u.Within w :=
  ⟨List.Subset.trans h.read h'.read, List.Subset.trans h.sealed h'.sealed⟩

theorem markRead (u : Usage) (path : Path) : u.Within (u.markRead path) :=
  ⟨List.subset_cons_self _ _, List.Subset.refl _⟩

theorem markSealed (u : Usage) (path : Path) : u.Within (u.markSealed path) :=
  ⟨List.subset_cons_self _ _, List.subset_cons_self _ _⟩

end Usage.Within

variable {α β : Type} {m : Mapping} {key : String}

/-! ## §2. Lookups. -/

/-- A node that is read as a mapping is one. -/
theorem Mapping.ofNode_eq_ok {d : Document} {n : Node} {path : Path} :
    Mapping.ofNode d n path = .ok m ↔ n.kind = .mapping ∧ m = ⟨d, n, path⟩ := by
  unfold Mapping.ofNode
  by_cases hkind : n.kind = .mapping
  · simp [hkind, eq_comm]
  · simp [hkind]

/-- A node that is read as a sequence is one. -/
theorem Sequence.ofNode_eq_ok {d : Document} {n : Node} {path : Path} {s : Sequence} :
    Sequence.ofNode d n path = .ok s ↔ n.kind = .sequence ∧ s = ⟨d, n, path⟩ := by
  unfold Sequence.ofNode
  by_cases hkind : n.kind = .sequence
  · simp [hkind, eq_comm]
  · simp [hkind]

theorem Lookup.required_eq_ok {l : Lookup α} {a : α} :
    l.required = .ok a ↔ l.optional = some a := by
  unfold Lookup.required Lookup.optional
  cases l.outcome with
  | present value => simp
  | missing reason => simp

namespace Mapping

/-- What a lookup gives: nothing for a key that is absent or null, else what reading the value gives. -/
theorem look_eq_ok {read : Node → Except Error α} {l : Lookup α} :
    m.look key read = .ok l ↔
      ((∀ n, m.node.get? key = some n → n.kind = .null) ∧ l = m.absent key) ∨
        ∃ n a, m.node.get? key = some n ∧ n.kind ≠ .null ∧ read n = .ok a ∧
          l = ⟨.present a, some (m.origin key)⟩ := by
  unfold Mapping.look
  cases hget : m.node.get? key with
  | none => simp [eq_comm]
  | some n =>
    by_cases hnull : n.kind = .null
    · simp [hnull, eq_comm]
    · cases hread : read n with
      | error e => simp [hnull, hread, Except.map]
      | ok a => simp [hnull, Ne.symm hnull, hread, Except.map, eq_comm]

theorem run_lookup (m : Mapping) (key : String) (read : Node → Except Error α) (u : Usage) :
    (m.lookup key read).run.run u =
      (m.look key read, if m.containsKey key then u.markRead (m.child key) else u) := by
  unfold Mapping.lookup
  split
  next => rfl
  next => rfl

/-- Reading a value as a whole: nothing for a key that is absent, a mark for a null, and else the JSON form. -/
theorem run_value (m : Mapping) (key : String) (u : Usage) :
    (m.value key).run.run u =
      match m.node.get? key with
      | none => (.ok (m.absent key), u)
      | some n =>
        if n.kind = .null then (.ok (m.absent key), u.markRead (m.child key))
        else
          (match n.json with
            | .ok json => .ok ⟨.present json, some (m.origin key)⟩
            | .error p => .error (m.invalidValueAt key ("value has no JSON form: " ++ p.message)),
            u.markSealed (m.child key)) := by
  unfold Mapping.value
  cases m.node.get? key with
  | none => rfl
  | some n =>
    dsimp only
    -- a null is only marked as read; any other value is sealed, whether or not it has a JSON form
    by_cases hnull : n.kind = .null
    · simp only [hnull, if_true]
      rfl
    · simp only [hnull, if_false]
      cases n.json with
      | ok json => rfl
      | error p => rfl

/-- The marks after keys were passed over. -/
def passedOver (m : Mapping) (keys : List String) (u : Usage) : Usage :=
  keys.foldl (fun u key => if m.containsKey key then u.markSealed (m.child key) else u) u

/-- Passing keys over only adds marks, and reads the keys that are there. -/
theorem within_passedOver {keys : List String} :
    ∀ u, u.Within (passedOver m keys u) ∧
      ∀ key ∈ keys, m.containsKey key = true → m.child key ∈ (passedOver m keys u).read := by
  induction keys with
  | nil => exact fun u => ⟨.refl u, fun _ h => absurd h List.not_mem_nil⟩
  | cons key keys ih =>
    intro u
    have hstep : u.Within (if m.containsKey key then u.markSealed (m.child key) else u) := by
      split
      next => exact .markSealed _ _
      next => exact .refl _
    obtain ⟨hrest, hread⟩ := ih (if m.containsKey key then u.markSealed (m.child key) else u)
    refine ⟨hstep.trans hrest, fun k hk hkey => ?_⟩
    rcases List.mem_cons.1 hk with rfl | hk
    · refine hrest.read ?_
      rw [if_pos hkey]
      exact List.mem_cons_self
    · exact hread k hk hkey

end Mapping

namespace Building

/-! ## §3. Readings as steps. -/

theorem liftM_bind (x : Reading α) (f : α → Reading β) :
    (liftM (x >>= f) : Building β) = liftM x >>= fun a => liftM (f a) := by
  funext session
  have hleft : (liftM (x >>= f) : Building β) session =
      (((ExceptT.bindCont f (x.run.run session.usage).1).run (x.run.run session.usage).2).1,
        { session with usage :=
          ((ExceptT.bindCont f (x.run.run session.usage).1).run (x.run.run session.usage).2).2 }) := rfl
  have hright : (liftM x >>= fun a => (liftM (f a) : Building β)) session =
      (ExceptT.bindCont (fun a => (liftM (f a) : Building β)) (x.run.run session.usage).1).run
        { session with usage := (x.run.run session.usage).2 } := rfl
  rw [hleft, hright]
  cases (x.run.run session.usage).1 with
  | error e => rfl
  | ok a => rfl

/-- Reading a list of values is a step for each of them. -/
theorem liftM_mapM (f : α → Reading β) (xs : List α) :
    (liftM (xs.mapM f) : Building (List β)) = xs.mapM fun a => (liftM (f a) : Building β) := by
  induction xs with
  | nil => rfl
  | cons a xs ih =>
    rw [List.mapM_cons, List.mapM_cons, liftM_bind]
    refine congrArg _ (funext fun b => ?_)
    rw [liftM_bind, ih]
    rfl

/-! ## §4. Single readings. -/

theorem run_lookup (m : Mapping) (key : String) (read : Node → Except Error α) (session : Session) :
    (liftM (m.lookup key read) : Building (Lookup α)).run.run session =
      (m.look key read, { session with
        usage := if m.containsKey key then session.usage.markRead (m.child key) else session.usage }) := by
  show (((m.lookup key read).run.run session.usage).1,
    { session with usage := ((m.lookup key read).run.run session.usage).2 }) = _
  rw [Mapping.run_lookup]

theorem run_value (m : Mapping) (key : String) (session : Session) :
    (liftM (m.value key) : Building (Lookup Json)).run.run session =
      match m.node.get? key with
      | none => (.ok (m.absent key), session)
      | some n =>
        if n.kind = .null then
          (.ok (m.absent key), { session with usage := session.usage.markRead (m.child key) })
        else
          (match n.json with
            | .ok json => .ok ⟨.present json, some (m.origin key)⟩
            | .error p => .error (m.invalidValueAt key ("value has no JSON form: " ++ p.message)),
            { session with usage := session.usage.markSealed (m.child key) }) := by
  show (((m.value key).run.run session.usage).1,
    { session with usage := ((m.value key).run.run session.usage).2 }) = _
  rw [Mapping.run_value]
  cases m.node.get? key with
  | none => rfl
  | some n =>
    dsimp only
    split
    next => rfl
    next => rfl

theorem run_ignore (m : Mapping) (keys : List String) (session : Session) :
    (liftM (m.ignore keys) : Building Unit).run.run session =
      (.ok (), { session with usage := m.passedOver keys session.usage }) := rfl

end Building

end OpenApi
