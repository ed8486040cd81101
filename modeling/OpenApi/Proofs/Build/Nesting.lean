/-
  OpenApi.Proofs.Build.Nesting — the height of a node bounds how deep schemas are nested in it.

  Reading a schema descends from a mapping to mappings below it, which are lower. So readers of parts that agree
  on lower mappings may be exchanged, and any bound that is not less than the height gives the same reading.
  Main statement: `readSchemaTo_eq`.
-/
import OpenApi.Build.Schemas
import OpenApi.Proofs.Build.Readings
import OpenApi.Proofs.Document.Trimming

namespace OpenApi

/-! ## §1. Results of steps. -/

namespace Building

variable {α β : Type}

/-- What a step goes on with matters only for the results that it can have. -/
theorem bind_congr_ok {x : Building α} {g g' : α → Building β}
    (h : ∀ session a after, x.run.run session = (.ok a, after) → g a = g' a) : x >>= g = x >>= g' := by
  funext session
  have hbind : ∀ k : α → Building β,
      (x >>= k) session = (ExceptT.bindCont k (x.run.run session).1).run (x.run.run session).2 :=
    fun _ => rfl
  rw [hbind, hbind]
  cases hx : x.run.run session with
  | mk result after =>
    cases result with
    | error e => rfl
    | ok a =>
      show (g a).run after = (g' a).run after
      rw [h session a after hx]

theorem mapM_congr {f f' : α → Building β} {xs : List α} (h : ∀ a ∈ xs, f a = f' a) :
    xs.mapM f = xs.mapM f' := by
  induction xs with
  | nil => rfl
  | cons a xs ih =>
    rw [List.mapM_cons, List.mapM_cons, h a List.mem_cons_self,
      ih fun b hb => h b (List.mem_cons_of_mem _ hb)]

/-- Each result of a list of steps is the result of one of them. -/
theorem mem_of_mapM_ok {f : α → Building β} {xs : List α} :
    ∀ {session after : Session} {ys : List β}, (xs.mapM f).run.run session = (.ok ys, after) →
      ∀ y ∈ ys, ∃ x ∈ xs, ∃ before middle, (f x).run.run before = (.ok y, middle) := by
  induction xs with
  | nil =>
    intro session after ys hrun y hy
    obtain ⟨rfl, -⟩ := run_pure_ok hrun
    exact absurd hy List.not_mem_nil
  | cons x xs ih =>
    intro session after ys hrun y hy
    rw [List.mapM_cons] at hrun
    obtain ⟨z, middle, hz, hrun⟩ := run_bind_ok hrun
    obtain ⟨zs, last, hzs, hrun⟩ := run_bind_ok hrun
    obtain ⟨rfl, -⟩ := run_pure_ok hrun
    rcases List.mem_cons.1 hy with rfl | hy
    · exact ⟨x, List.mem_cons_self, session, middle, hz⟩
    · obtain ⟨x', hx', hrun⟩ := ih hzs y hy
      exact ⟨x', List.mem_cons_of_mem _ hx', hrun⟩

end Building

/-! ## §2. Mappings inside a mapping. -/

namespace Mapping

/-- The node of `c` is a mapping that is lower than that of `m`. -/
def Above (m c : Mapping) : Prop := c.node.kind = .mapping ∧ c.node.height < m.node.height

variable {m c : Mapping} {key : String}

theorem above_of_mapping {session after : Session} {found : Lookup Mapping}
    (h : (liftM (m.mapping key) : Building _).run.run session = (.ok found, after))
    (hfound : found.optional = some c) : m.Above c := by
  unfold Mapping.mapping at h
  rw [Building.run_lookup] at h
  rcases look_eq_ok.1 (Prod.mk.inj h).1 with ⟨-, rfl⟩ | ⟨n, d, hget, -, hnode, rfl⟩
  · exact absurd hfound nofun
  · cases hfound
    obtain ⟨hkind, rfl⟩ := ofNode_eq_ok.1 hnode
    exact ⟨hkind, Node.height_lt_of_get? hget⟩

/-- A mapping that is required under a key is lower. -/
theorem above_of_required {before session middle after : Session} {found : Lookup Mapping}
    (h : (liftM (m.mapping key) : Building _).run.run before = (.ok found, session))
    (hrequired : (liftM found.required : Building Mapping).run.run middle = (.ok c, after)) :
    m.Above c :=
  above_of_mapping h (Lookup.required_eq_ok.1 (Building.run_lift_ok hrequired).1)

theorem above_of_mappingEntries {session after : Session} {entries : List (String × Mapping)}
    (h : (liftM m.mappingEntries : Building _).run.run session = (.ok entries, after)) :
    ∀ e ∈ entries, m.Above e.2 := by
  intro e he
  unfold mappingEntries at h
  rw [Building.liftM_mapM] at h
  obtain ⟨key, -, before, last, h⟩ := Building.mem_of_mapM_ok h e he
  rw [Building.liftM_bind] at h
  obtain ⟨found, middle, hfound, h⟩ := Building.run_bind_ok h
  rw [Building.liftM_bind] at h
  obtain ⟨d, final, hrequired, h⟩ := Building.run_bind_ok h
  obtain ⟨rfl, -⟩ := Building.run_pure_ok h
  exact above_of_required hfound hrequired

/-- A mapping has a height. -/
theorem height_pos (h : m.node.kind = .mapping) : 0 < m.node.height := by
  generalize m.node = n at h
  induction n using Node.induction with
  | mapping entries _ => rw [Node.height]; exact Nat.succ_pos _
  | tagged tag n ih => rw [Node.height]; exact Nat.succ_pos _
  | null | bool _ | number _ _ | string _ | sequence _ _ => simp [Node.kind] at h

end Mapping

/-! ## §3. Readers of parts. -/

namespace Build

open Building (bind_congr_ok)

section

variable {build build' : Mapping → Building Schema} {m : Mapping}

theorem readMapValues_congr (h : ∀ c, m.Above c → build c = build' c) :
    readMapValues build m = readMapValues build' m := by
  unfold readMapValues
  split
  next =>
    refine bind_congr_ok fun _ found _ hfound => bind_congr_ok fun _ values _ hvalues => ?_
    rw [h values (Mapping.above_of_required hfound hvalues)]
  next => rfl
  next => rfl
  next => rfl

theorem readArray_congr (h : ∀ c, m.Above c → build c = build' c) :
    readArray build m = readArray build' m := by
  unfold readArray
  refine bind_congr_ok fun _ found _ hfound => bind_congr_ok fun _ items _ hitems => ?_
  rw [h items (Mapping.above_of_required hfound hitems)]

theorem readProperty_congr {owner : Owner} {name : String} {required : Bool} (h : build m = build' m) :
    readProperty build owner name required m = readProperty build' owner name required m := by
  unfold readProperty
  rw [h]

end

section

variable {build build' : Owner → Mapping → Building Schema} {m : Mapping}

theorem readProperties_congr (h : ∀ owner c, m.Above c → build owner c = build' owner c) (owner : Owner)
    (required : List String) :
    readProperties build owner required m = readProperties build' owner required m := by
  unfold readProperties
  refine bind_congr_ok fun _ found _ hfound => ?_
  cases hproperties : found.optional with
  | none => rfl
  | some properties =>
    have hbelow := Mapping.above_of_mapping hfound hproperties
    refine bind_congr_ok fun _ entries _ hentries => Building.mapM_congr fun entry hentry => ?_
    have hentry := Mapping.above_of_mappingEntries hentries entry hentry
    exact readProperty_congr (h _ _ ⟨hentry.1, Nat.lt_trans hentry.2 hbelow.2⟩)

theorem readObject_congr (h : ∀ owner c, m.Above c → build owner c = build' owner c) (owner : Owner) :
    readObject build owner m = readObject build' owner m := by
  unfold readObject
  simp only [readProperties_congr h]

end

/-! ## §4. Schemas. -/

/-- **Any bound that is not less than the height of a mapping gives the same reading.** -/
theorem readSchemaTo_eq {height : Nat} : ∀ {height' : Nat} {owner : Owner} {m : Mapping},
    m.node.kind = .mapping → m.node.height ≤ height → m.node.height ≤ height' →
      readSchemaTo height owner m = readSchemaTo height' owner m := by
  induction height with
  | zero =>
    intro height' owner m hkind hle _
    exact absurd hle (Nat.not_le.2 (Mapping.height_pos hkind))
  | succ height ih =>
    intro height' owner m hkind hle hle'
    cases height' with
    | zero => exact absurd hle' (Nat.not_le.2 (Mapping.height_pos hkind))
    | succ height' =>
      have hbelow : ∀ owner c, m.Above c → readSchemaTo height owner c = readSchemaTo height' owner c :=
        fun owner c hc => ih hc.1 (Nat.le_of_lt_succ (Nat.lt_of_lt_of_le hc.2 hle))
          (Nat.le_of_lt_succ (Nat.lt_of_lt_of_le hc.2 hle'))
      unfold readSchemaTo
      simp only [readObject_congr hbelow, readMapValues_congr (hbelow owner), readArray_congr (hbelow owner)]

end Build

end OpenApi
