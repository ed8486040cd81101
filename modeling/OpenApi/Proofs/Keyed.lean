/-
  OpenApi.Proofs.Keyed — finding and putting entries with a key.

  Of entries put one after the other, each key keeps the place where it first came and the entry that came last
  (`map_putAll`, `find?_putAll`). So it does not matter whether entries are put one by one or after being
  put together with others first (`putAll_putAll`).
-/
import Mathlib.Data.List.Forall2
import Mathlib.Data.List.Induction
import Mathlib.Data.List.Nodup
import OpenApi.Keyed

namespace OpenApi.Keyed

variable {α κ : Type} [DecidableEq κ] {key : α → κ} {k : κ} {entries : List α}

/-! ## §1. Finding. -/

theorem find?_eq_some {entry : α} (h : find? key k entries = some entry) :
    entry ∈ entries ∧ key entry = k :=
  ⟨List.mem_of_find?_eq_some h, by simpa using List.find?_some h⟩

theorem find?_eq_none : find? key k entries = none ↔ ∀ e ∈ entries, key e ≠ k := by
  simp [find?]

theorem find?_append (more : List α) :
    find? key k (entries ++ more) = (find? key k entries).or (find? key k more) := List.find?_append

/-- The value under a key of entries whose values were made from what was there. -/
theorem value?_map {β γ : Type} (f : κ → β → γ) (entries : List (κ × β)) :
    value? k (entries.map fun e => (e.1, f e.1 e.2)) = (value? k entries).map (f k) := by
  unfold value? find?
  induction entries with
  | nil => rfl
  | cons e rest ih =>
    by_cases hk : e.1 = k
    · simp [hk]
    · simpa [hk] using ih

/-- The values under a key of entries that correspond one by one. -/
theorem value?_rel {β γ : Type} {R : κ → β → γ → Prop} {xs : List (κ × β)} {ys : List (κ × γ)}
    (h : List.Forall₂ (fun e e' => e'.1 = e.1 ∧ R e.1 e.2 e'.2) xs ys) (k : κ) :
    Option.Rel (R k) (value? k xs) (value? k ys) := by
  unfold value? find?
  induction h with
  | nil => exact .none
  | @cons e e' _ _ he _ ih =>
    obtain ⟨hkey, hvalue⟩ := he
    by_cases hfirst : e.1 = k
    · rw [List.find?_cons_of_pos (by simpa using hfirst), List.find?_cons_of_pos (by simpa [hkey] using hfirst)]
      subst hfirst
      exact .some hvalue
    · rw [List.find?_cons_of_neg (by simpa using hfirst), List.find?_cons_of_neg (by simpa [hkey] using hfirst)]
      exact ih

/-- Entries with distinct keys are found by their keys. -/
theorem find?_key_of_mem (h : (entries.map key).Nodup) {entry : α} (he : entry ∈ entries) :
    find? key (key entry) entries = some entry := by
  cases hf : find? key (key entry) entries with
  | none => exact absurd rfl (find?_eq_none.1 hf entry he)
  | some e =>
    obtain ⟨hmem, hkey⟩ := find?_eq_some hf
    rw [List.inj_on_of_nodup_map h hmem he hkey]

/-! ## §2. Putting. -/

theorem putAll_append (more rest : List α) :
    putAll key entries (more ++ rest) = putAll key (putAll key entries more) rest := List.foldl_append

/-- Putting keeps the keys in their places, and adds a new one at the end. -/
theorem map_put (entry : α) :
    (put key entry entries).map key =
      if key entry ∈ entries.map key then entries.map key else entries.map key ++ [key entry] := by
  induction entries with
  | nil => rfl
  | cons e rest ih =>
    unfold put
    by_cases heq : key e = key entry
    · simp [heq]
    · rw [if_neg heq, List.map_cons, ih, List.map_cons]
      simp only [List.mem_cons, Ne.symm heq, false_or]
      split
      next => rfl
      next => rfl

/-- What was put is found, and everything else is found as before. -/
theorem find?_put (entry : α) :
    find? key k (put key entry entries) = if key entry = k then some entry else find? key k entries := by
  unfold find?
  induction entries with
  | nil =>
    unfold put
    by_cases hk : key entry = k
    · simp [hk]
    · simp [hk]
  | cons e rest ih =>
    unfold put
    -- an entry with the key is replaced here; otherwise the rest of the list takes it
    by_cases heq : key e = key entry
    · by_cases hk : key entry = k
      · simp [heq, hk]
      · simp [heq, hk]
    · rw [if_neg heq]
      by_cases hk : key e = k
      · have hne : key entry ≠ k := fun h => heq (hk.trans h.symm)
        simp [hk, hne]
      · simp [hk, ih]

/-- The value that was put stands under its key, and those under other keys stay. -/
theorem value?_isSome {β : Type} {entries : List (κ × β)} :
    (value? k entries).isSome = true ↔ k ∈ entries.map Prod.fst := by
  unfold value? find?
  simp [List.find?_isSome]

theorem value?_put {β : Type} {k' : κ} {v : β} {entries : List (κ × β)} :
    value? k (put Prod.fst (k', v) entries) = if k' = k then some v else value? k entries := by
  unfold value?
  rw [find?_put]
  split
  next => rfl
  next => rfl

theorem mem_put {entry x : α} (h : x ∈ put key entry entries) : x = entry ∨ x ∈ entries := by
  induction entries with
  | nil => exact .inl (List.mem_singleton.1 h)
  | cons e rest ih =>
    unfold put at h
    split at h
    next =>
      rcases List.mem_cons.1 h with hx | hx
      · exact .inl hx
      · exact .inr (List.mem_cons_of_mem _ hx)
    next =>
      rcases List.mem_cons.1 h with hx | hx
      · exact .inr (hx ▸ List.mem_cons_self)
      · exact (ih hx).imp_right (List.mem_cons_of_mem _)

/-- An entry with a new key is put at the end. -/
theorem put_of_not_mem {entry : α} (h : key entry ∉ entries.map key) : put key entry entries = entries ++ [entry] := by
  induction entries with
  | nil => rfl
  | cons e rest ih =>
    have he : key e ≠ key entry := fun heq => h (heq ▸ List.mem_cons_self)
    have hrest : key entry ∉ rest.map key := fun hmem => h (List.mem_cons_of_mem _ hmem)
    unfold put
    rw [if_neg he, ih hrest, List.cons_append]

theorem nodup_put (h : (entries.map key).Nodup) (entry : α) :
    ((put key entry entries).map key).Nodup := by
  rw [map_put]
  split
  next => exact h
  next hnew =>
    refine List.nodup_append.2 ⟨h, List.nodup_singleton _, ?_⟩
    rintro a ha b hb rfl
    exact hnew (List.mem_singleton.1 hb ▸ ha)

/-! ## §3. Putting entries one after the other. -/

/-- What is there after entries were put was put or there before. -/
theorem mem_putAll {x : α} {more : List α} (h : x ∈ putAll key entries more) :
    x ∈ entries ∨ x ∈ more := by
  induction more generalizing entries with
  | nil => exact .inl h
  | cons e more ih =>
    rcases @ih (put key e entries) h with hx | hx
    · rcases mem_put hx with rfl | hx
      · exact .inr List.mem_cons_self
      · exact .inl hx
    · exact .inr (List.mem_cons_of_mem _ hx)

/-- Under each key the last entry that was put is found, or else what was there before. -/
theorem find?_putAll {more : List α} :
    find? key k (putAll key entries more) = (find? key k more.reverse).or (find? key k entries) := by
  induction more using List.reverseRecOn with
  | nil => rfl
  | append_singleton more e ih =>
    have hlast : putAll key entries (more ++ [e]) = put key e (putAll key entries more) :=
      putAll_append more [e]
    rw [hlast, find?_put, ih]
    unfold find?
    by_cases hk : key e = k
    · simp [hk]
    · simp [hk]

theorem nodup_putAll (h : (entries.map key).Nodup) (more : List α) :
    ((putAll key entries more).map key).Nodup := by
  induction more generalizing entries with
  | nil => exact h
  | cons e more ih => exact ih (nodup_put h e)

/-- Among entries some are alone with their keys: none of them comes after another entry of its key. -/
def KeysNew (key : α → κ) (P : α → Prop) (entries : List α) : Prop := entries.Pairwise fun a b => P b → key a ≠ key b

theorem KeysNew.put {P : α → Prop} (h : KeysNew key P entries) (entry : α) : KeysNew key P (put key entry entries) := by
  unfold KeysNew at h ⊢
  induction entries with
  | nil => exact List.pairwise_singleton _ _
  | cons e rest ih =>
    obtain ⟨hfirst, hrest⟩ := List.pairwise_cons.1 h
    unfold Keyed.put
    split
    next heq => exact List.pairwise_cons.2 ⟨fun b hb hP => heq ▸ hfirst b hb hP, hrest⟩
    next hne =>
      refine List.pairwise_cons.2 ⟨fun b hb hP => ?_, ih hrest⟩
      rcases mem_put hb with rfl | hb
      · exact hne
      · exact hfirst b hb hP

theorem KeysNew.putAll {P : α → Prop} {more : List α} :
    ∀ {entries : List α}, KeysNew key P entries → KeysNew key P (putAll key entries more) := by
  induction more with
  | nil => exact fun h => h
  | cons e more ih => exact fun h => ih (h.put e)

/-- Entries that were not there before do not share their keys. -/
theorem eq_of_mem_putAll {more : List α} {x y : α} (hx : x ∈ putAll key entries more)
    (hy : y ∈ putAll key entries more) (hnewx : x ∉ entries) (hnewy : y ∉ entries) (h : key x = key y) : x = y := by
  have hold : KeysNew key (· ∉ entries) entries :=
    List.pairwise_of_forall_mem_list fun _ _ _ hb hnew => absurd hb hnew
  have hpairs : KeysNew key (· ∉ entries) (Keyed.putAll key entries more) := hold.putAll
  obtain ⟨i, hi, rfl⟩ := List.mem_iff_getElem.1 hx
  obtain ⟨j, hj, rfl⟩ := List.mem_iff_getElem.1 hy
  rcases Nat.lt_trichotomy i j with hij | rfl | hji
  · exact absurd h (List.pairwise_iff_getElem.1 hpairs i j hi hj hij hnewy)
  · rfl
  · exact absurd h.symm (List.pairwise_iff_getElem.1 hpairs j i hj hi hji hnewx)

/-- Entries with distinct keys that are new are put at the end. -/
theorem putAll_of_nodup {more : List α} (h : ((entries ++ more).map key).Nodup) :
    putAll key entries more = entries ++ more := by
  induction more generalizing entries with
  | nil => exact (List.append_nil _).symm
  | cons e more ih =>
    have hnew : key e ∉ entries.map key := by
      rw [List.map_append, List.map_cons] at h
      exact fun hmem => (List.nodup_append.1 h).2.2 _ hmem _ List.mem_cons_self rfl
    have hput : put key e entries = entries ++ [e] := put_of_not_mem hnew
    rw [List.append_cons] at h ⊢
    show putAll key (put key e entries) more = entries ++ [e] ++ more
    rw [hput, ih h]

theorem nodup_putAll_nil (more : List α) : ((putAll key [] more).map key).Nodup := by
  have hnone : (([] : List α).map key).Nodup := List.nodup_nil
  exact nodup_putAll hnone more

theorem eraseDups_concat (ks : List κ) :
    (ks ++ [k]).eraseDups = if k ∈ ks then ks.eraseDups else ks.eraseDups ++ [k] := by
  rw [List.eraseDups_append]
  by_cases hmem : k ∈ ks
  · have hnone : List.removeAll [k] ks = [] :=
      List.filter_eq_nil_iff.2 fun _ hx => by simp [List.mem_singleton.1 hx, hmem]
    rw [if_pos hmem, hnone, List.eraseDups_nil, List.append_nil]
  · have hall : List.removeAll [k] ks = [k] :=
      List.filter_eq_self.2 fun _ hx => by simp [List.mem_singleton.1 hx, hmem]
    rw [if_neg hmem, hall]
    rfl

/-- The keys that were there keep their places, and the others follow in the order in which they first came. -/
theorem map_putAll (more : List α) : (putAll key entries more).map key =
    entries.map key ++ ((more.map key).filter fun k => k ∉ entries.map key).eraseDups := by
  induction more using List.reverseRecOn with
  | nil => exact (List.append_nil _).symm
  | append_singleton more e ih =>
    have hlast : putAll key entries (more ++ [e]) = put key e (putAll key entries more) := putAll_append more [e]
    rw [hlast, map_put, ih, List.map_append, List.filter_append, List.map_singleton]
    generalize entries.map key = there
    by_cases hthere : key e ∈ there
    · rw [if_pos (List.mem_append_left _ hthere), List.filter_cons_of_neg (by simpa using hthere), List.filter_nil,
        List.append_nil]
    · rw [List.filter_cons_of_pos (by simpa using hthere), List.filter_nil, eraseDups_concat]
      by_cases hnew : key e ∈ (more.map key).filter fun k => k ∉ there
      · rw [if_pos hnew, if_pos (List.mem_append_right _ (List.mem_eraseDups.2 hnew))]
      · rw [if_neg hnew, if_neg fun h => (List.mem_append.1 h).elim hthere fun h => hnew (List.mem_eraseDups.1 h),
          List.append_assoc]

/-- The keys stand in the order in which they first came. -/
theorem map_putAll_nil (more : List α) : (putAll key [] more).map key = (more.map key).eraseDups := by
  simp [map_putAll]

/-- The keys are distinct just if those that were there before are. -/
theorem nodup_putAll_iff (more : List α) : ((putAll key entries more).map key).Nodup ↔ (entries.map key).Nodup := by
  refine ⟨fun h => ?_, fun h => nodup_putAll h more⟩
  rw [map_putAll] at h
  exact (List.nodup_append.1 h).1

/-- An entry stays if another key is put, or if an earlier entry has its key. -/
theorem getElem?_put {entry e : α} {i : Nat} (he : entries[i]? = some e)
    (h : key e = key entry → key e ∈ (entries.take i).map key) : (put key entry entries)[i]? = some e := by
  induction entries generalizing i with
  | nil => exact absurd he nofun
  | cons x rest ih =>
    unfold put
    cases i with
    | zero =>
      obtain rfl : x = e := Option.some.inj he
      rw [if_neg fun heq => List.not_mem_nil (h heq)]
      rfl
    | succ i =>
      split
      next => exact he
      next hne =>
        refine ih he fun heq => (List.mem_cons.1 (h heq)).resolve_left fun hx => ?_
        exact hne (hx.symm.trans heq)

/-- Of entries that repeat a key only the first is replaced. -/
theorem getElem?_putAll {e : α} {i : Nat} (he : entries[i]? = some e) (hrepeats : key e ∈ (entries.take i).map key)
    (more : List α) : (putAll key entries more)[i]? = some e := by
  induction more generalizing entries with
  | nil => exact he
  | cons x more ih =>
    have hi : i ≤ (entries.map key).length := by
      rw [List.length_map]
      exact Nat.le_of_lt (List.getElem?_eq_some_iff.1 he).1
    refine ih (getElem?_put he fun _ => hrepeats) ?_
    rw [List.map_take] at hrepeats ⊢
    rw [map_put]
    split
    next => exact hrepeats
    next => rwa [List.take_append_of_le_length hi]

/-! ## §4. Putting entries that were put together. -/

/-- Of two entries with one key, only the second counts. -/
theorem put_put_of_eq {x y : α} (h : key x = key y) :
    put key x (put key y entries) = put key x entries := by
  induction entries with
  | nil => simp [put, h]
  | cons e rest ih =>
    by_cases heq : key e = key y
    · simp [put, heq, h]
    · simp [put, heq, h, ih]

/-- Two entries may change places if one of them replaces an entry that is there. -/
theorem put_comm_of_mem {x y : α} (hmem : key x ∈ entries.map key) (h : key x ≠ key y) :
    put key x (put key y entries) = put key y (put key x entries) := by
  induction entries with
  | nil => exact absurd hmem List.not_mem_nil
  | cons e rest ih =>
    by_cases hx : key e = key x
    · by_cases hy : key e = key y
      · exact absurd (hx.symm.trans hy) h
      · simp [put, hx, h]
    · have hrest : key x ∈ rest.map key := (List.mem_cons.1 hmem).resolve_left (Ne.symm hx)
      by_cases hy : key e = key y
      · simp [put, hy, Ne.symm h]
      · simp [put, hx, hy, ih hrest]

/-- An entry that replaces one that is there may be put before others of other keys, or after. -/
theorem putAll_put_comm {x : α} {more : List α} (hmem : key x ∈ entries.map key)
    (hnew : key x ∉ more.map key) :
    putAll key (put key x entries) more = put key x (putAll key entries more) := by
  induction more generalizing entries with
  | nil => rfl
  | cons e more ih =>
    have hne : key x ≠ key e := fun h => hnew (h ▸ List.mem_cons_self)
    have hthere : key x ∈ (put key e entries).map key := by
      rw [map_put]
      split
      next => exact hmem
      next => exact List.mem_append_left _ hmem
    calc putAll key (put key x entries) (e :: more)
        = putAll key (put key e (put key x entries)) more := rfl
      _ = putAll key (put key x (put key e entries)) more := by rw [put_comm_of_mem hmem hne]
      _ = put key x (putAll key (put key e entries) more) :=
          ih hthere fun h => hnew (List.mem_cons_of_mem _ h)

/-- An entry may be put among others with distinct keys before they are put, or after them. -/
theorem putAll_put {x : α} {more : List α} (h : (more.map key).Nodup) :
    putAll key entries (put key x more) = put key x (putAll key entries more) := by
  induction more generalizing entries with
  | nil => rfl
  | cons e more ih =>
    obtain ⟨hnew, hmore⟩ := List.nodup_cons.1 h
    by_cases heq : key e = key x
    · have hthere : key x ∈ (put key e entries).map key := by
        rw [map_put, heq]
        split
        next hmem => exact hmem
        next => exact List.mem_append_right _ List.mem_cons_self
      calc putAll key entries (put key x (e :: more))
          = putAll key (put key x entries) more := by rw [put, if_pos heq]; rfl
        _ = putAll key (put key x (put key e entries)) more := by rw [put_put_of_eq heq.symm]
        _ = put key x (putAll key (put key e entries) more) := putAll_put_comm hthere (heq ▸ hnew)
    · calc putAll key entries (put key x (e :: more))
          = putAll key (put key e entries) (put key x more) := by rw [put, if_neg heq]; rfl
        _ = put key x (putAll key (put key e entries) more) := ih hmore

/-- **Entries may be put one by one, or put together first.** -/
theorem putAll_putAll (more : List α) :
    putAll key entries (putAll key [] more) = putAll key entries more := by
  induction more using List.reverseRecOn with
  | nil => rfl
  | append_singleton more e ih =>
    have hlast : ∀ start, putAll key start (more ++ [e]) = put key e (putAll key start more) :=
      fun _ => putAll_append more [e]
    rw [hlast, hlast, putAll_put (nodup_putAll_nil more), ih]

end OpenApi.Keyed
