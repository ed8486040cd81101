/-
  OpenApi.Proofs.Order.Reordering — documents whose schemas are declared in another order.

  Entries may change places in the mapping of schemas among the components of a document; everything else stays. As
  long as no two schemas share a key, lookups find the same under every key, and the same keys are left unused.
  Main statement:
  `Usage.mem_unused_of_reordered`.
-/
import OpenApi.Proofs.Order.Carried

namespace OpenApi

/-! ## §1. Reordered trees. -/

namespace Node

/-- The same entries in another order. -/
inductive Reorders : Node → Node → Prop
  | mapping {entries entries' : List (Key × Node)} (h : entries.Perm entries') :
      Reorders (.mapping entries) (.mapping entries')
  | tagged {tag : String} {n n' : Node} (h : Reorders n n') : Reorders (.tagged tag n) (.tagged tag n')

/-- The same entries, except that values under a key may be changed in some way. -/
inductive Alters (key : String) (R : Node → Node → Prop) : Node → Node → Prop
  | mapping {entries entries' : List (Key × Node)}
      (h : List.Forall₂ (fun e e' => e'.1 = e.1 ∧ (e'.2 = e.2 ∨ e.1.text = some key ∧ R e.2 e'.2)) entries
        entries') :
      Alters key R (.mapping entries) (.mapping entries')
  | tagged {tag : String} {n n' : Node} (h : Alters key R n n') : Alters key R (.tagged tag n) (.tagged tag n')

variable {n n' : Node} {key k : String} {R : Node → Node → Prop}

theorem Reorders.symm (h : Reorders n n') : Reorders n' n := by
  induction h with
  | mapping h => exact .mapping h.symm
  | tagged _ ih => exact .tagged ih

theorem Alters.symm (hR : ∀ n n', R n n' → R n' n) (h : Alters key R n n') : Alters key R n' n := by
  induction h with
  | mapping h =>
    refine .mapping (h.flip.imp fun e' e he => ⟨he.1.symm, ?_⟩)
    rcases he.2 with hsame | ⟨hkey, hvalue⟩
    · exact .inl hsame.symm
    · exact .inr ⟨by rw [he.1, hkey], hR _ _ hvalue⟩
  | tagged _ ih => exact .tagged ih

theorem Reorders.kind (h : Reorders n n') : n.kind = .mapping ∧ n'.kind = .mapping := by
  induction h with
  | mapping => exact ⟨rfl, rfl⟩
  | tagged _ ih => exact ih

theorem Alters.kind (h : Alters key R n n') : n.kind = .mapping ∧ n'.kind = .mapping := by
  induction h with
  | mapping => exact ⟨rfl, rfl⟩
  | tagged _ ih => exact ih

theorem Reorders.entries (h : Reorders n n') : n.entries.Perm n'.entries := by
  induction h with
  | mapping h => exact h
  | tagged _ ih => exact ih

theorem Alters.entries (h : Alters key R n n') :
    List.Forall₂ (fun e e' => e'.1 = e.1 ∧ (e'.2 = e.2 ∨ e.1.text = some key ∧ R e.2 e'.2)) n.entries
      n'.entries := by
  induction h with
  | mapping h => exact h
  | tagged _ ih => exact ih

/-! ## §2. Lookups. -/

theorem Reorders.keys (h : Reorders n n') : n.keys.Perm n'.keys := h.entries.filterMap _

/-- Entries that change places are found by their keys, if these are distinct. -/
theorem Reorders.get? (h : Reorders n n') (hdistinct : n.keys.Nodup) (k : String) : n'.get? k = n.get? k := by
  have hone : ∀ a ∈ n.entries, ∀ b ∈ n.entries, decide (a.1.text = some k) = true →
      decide (b.1.text = some k) = true → a = b := fun a ha b hb hpa hpb =>
    eq_of_keys_nodup hdistinct ha hb (of_decide_eq_true hpa) (of_decide_eq_true hpb)
  unfold Node.get?
  rw [Spec.Alike.find?_eq_of_perm h.entries hone]

/-- The entries of two trees of which one alters the other. -/
theorem keys_of_forall₂ {entries entries' : List (Key × Node)}
    (h : List.Forall₂ (fun e e' => e'.1 = e.1 ∧ (e'.2 = e.2 ∨ e.1.text = some key ∧ R e.2 e'.2)) entries
      entries') : (entries'.filterMap fun e => e.1.text) = entries.filterMap fun e => e.1.text := by
  induction h with
  | nil => rfl
  | cons he _ ih => rw [List.filterMap_cons, List.filterMap_cons, he.1, ih]

theorem find?_of_forall₂ {entries entries' : List (Key × Node)} {e : Key × Node}
    (h : List.Forall₂ (fun e e' => e'.1 = e.1 ∧ (e'.2 = e.2 ∨ e.1.text = some key ∧ R e.2 e'.2)) entries
      entries') (he : entries.find? (fun e => e.1.text = some k) = some e) :
    ∃ e', entries'.find? (fun e => e.1.text = some k) = some e' ∧ (e'.2 = e.2 ∨ k = key ∧ R e.2 e'.2) := by
  induction h with
  | nil => exact absurd he nofun
  | @cons f f' _ _ hf _ ih =>
    by_cases hk : f.1.text = some k
    · rw [List.find?_cons_of_pos (by simpa using hk)] at he
      cases he
      refine ⟨f', List.find?_cons_of_pos (by simpa [hf.1] using hk), ?_⟩
      exact hf.2.imp_right fun hvalue => ⟨Option.some.inj (hk.symm.trans hvalue.1), hvalue.2⟩
    · rw [List.find?_cons_of_neg (by simpa using hk)] at he
      obtain ⟨e', he', hvalue⟩ := ih he
      refine ⟨e', ?_, hvalue⟩
      rw [List.find?_cons_of_neg (by simpa [hf.1] using hk)]
      exact he'

theorem Alters.keys (h : Alters key R n n') : n'.keys = n.keys := keys_of_forall₂ h.entries

/-- Values under other keys are the same, and a value under the key may be changed. -/
theorem Alters.get? {m : Node} (h : Alters key R n n') (hfound : n.get? k = some m) :
    ∃ m', n'.get? k = some m' ∧ (m' = m ∨ k = key ∧ R m m') := by
  obtain ⟨e, he, rfl⟩ := Option.map_eq_some_iff.1 hfound
  obtain ⟨e', he', hvalue⟩ := find?_of_forall₂ h.entries he
  exact ⟨e'.2, Option.map_eq_some_iff.2 ⟨e', he', rfl⟩, hvalue⟩

end Node

/-- The second document is the first one with its schemas declared in another order. -/
structure Document.Reordered (d d' : Document) : Prop where
  filename : d'.filename = d.filename
  root : d'.root = d.root ∨ d.root.Alters "components" (Node.Alters "schemas" Node.Reorders) d'.root

/-- No two schemas of the document share a key. -/
def Node.SchemasDistinct (root : Node) : Prop :=
  ∀ components schemas, root.get? "components" = some components → components.get? "schemas" = some schemas →
    schemas.keys.Nodup

namespace Usage

/-! ## §3. Unused keys. -/

variable {u v : Usage} {path p : Path} {n n' : Node}

/-- The same marks leave the same keys unused. -/
theorem Same.unusedBelow (h : u.Same v) (n : Node) :
    ∀ path, u.unusedBelow path n = v.unusedBelow path n := by
  have hread : ∀ p, u.read.contains p = v.read.contains p := fun p => by
    rw [Bool.eq_iff_iff, List.contains_iff_mem, List.contains_iff_mem, h.read]
  have hsealed : ∀ p, u.sealed.contains p = v.sealed.contains p := fun p => by
    rw [Bool.eq_iff_iff, List.contains_iff_mem, List.contains_iff_mem, h.sealed]
  -- the tree is walked with the marks at hand, which answer alike
  induction n using Node.induction with
  | sequence items ih =>
    intro path
    have hitems : ∀ index, u.unusedItems path index items = v.unusedItems path index items := by
      induction items with
      | nil => exact fun _ => by rw [unusedItems, unusedItems]
      | cons n rest ihrest =>
        intro index
        obtain ⟨hn, hrest⟩ := List.forall_mem_cons.1 ih
        rw [unusedItems, unusedItems, hn, ihrest hrest]
    rw [Usage.unusedBelow, Usage.unusedBelow, hsealed, hitems]
  | mapping entries ih =>
    intro path
    have hentries : u.unusedEntries path entries = v.unusedEntries path entries := by
      induction entries with
      | nil => rw [unusedEntries, unusedEntries]
      | cons e rest ihrest =>
        obtain ⟨key, n⟩ := e
        obtain ⟨hn, hrest⟩ := List.forall_mem_cons.1 ih
        rw [unusedEntries, unusedEntries, ihrest hrest]
        cases key.text with
        | none => rfl
        | some text =>
          dsimp only
          rw [hn]
    have hkeys : ∀ below, u.unusedKeys path below = v.unusedKeys path below := fun below => by
      unfold unusedKeys
      simp only [hread]
    rw [Usage.unusedBelow, Usage.unusedBelow, hsealed, hentries, hkeys]
  | tagged tag n ih => exact fun path => ih path
  | _ => simp [Usage.unusedBelow]

/-- Trees with the same keys report the same, if the values under each key do. -/
theorem mem_unusedBelow_of_keys (hkind : n.kind = .mapping) (hkind' : n'.kind = .mapping)
    (hkeys : n.keys ⊆ n'.keys)
    (hvalues : ∀ key m, n.get? key = some m → ∃ m', n'.get? key = some m' ∧
      (p ∈ u.unusedBelow (path ++ [key]) m → p ∈ u.unusedBelow (path ++ [key]) m'))
    (h : p ∈ u.unusedBelow path n) : p ∈ u.unusedBelow path n' := by
  obtain ⟨hopen, key, hkey, hext, hbelow⟩ := (mem_unusedBelow hkind).1 h
  refine (mem_unusedBelow hkind').2 ⟨hopen, key, hkeys hkey, hext, hbelow.imp_right ?_⟩
  rintro ⟨hread, m, hget, hm⟩
  obtain ⟨m', hget', hvalue⟩ := hvalues key m hget
  exact ⟨hread, m', hget', hvalue hm⟩

theorem mem_unusedBelow_of_reorders (h : n.Reorders n') (hdistinct : n.keys.Nodup)
    (hp : p ∈ u.unusedBelow path n) : p ∈ u.unusedBelow path n' := by
  refine mem_unusedBelow_of_keys h.kind.1 h.kind.2 h.keys.subset (fun key m hget => ?_) hp
  exact ⟨m, by rw [h.get? hdistinct, hget], id⟩

/-- The order of schemas does not matter for what is left unused. -/
theorem mem_unused_of_reordered {d d' : Document} (h : d.Reordered d') (hdistinct : d.root.SchemasDistinct)
    (hp : p ∈ u.unused d.root) : p ∈ u.unused d'.root := by
  rcases h.root with hsame | hroot
  · rw [hsame]
    exact hp
  · refine mem_unusedBelow_of_keys hroot.kind.1 hroot.kind.2 (hroot.keys ▸ List.Subset.refl _) ?_ hp
    intro key components hget
    obtain ⟨components', hget', hvalue⟩ := hroot.get? hget
    refine ⟨components', hget', ?_⟩
    rcases hvalue with rfl | ⟨rfl, hcomponents⟩
    · exact id
    · refine mem_unusedBelow_of_keys hcomponents.kind.1 hcomponents.kind.2
        (hcomponents.keys ▸ List.Subset.refl _) fun key schemas hschemas => ?_
      obtain ⟨schemas', hschemas', hvalue⟩ := hcomponents.get? hschemas
      refine ⟨schemas', hschemas', ?_⟩
      rcases hvalue with rfl | ⟨rfl, hreorders⟩
      · exact id
      · exact mem_unusedBelow_of_reorders hreorders (hdistinct _ _ hget hschemas)

end Usage

end OpenApi
