/-
  OpenApi.Proofs.Order.DocumentReaders — reading a document whose schemas are declared in another order.

  Everything but the schemas among the components is the same in both documents, so it is read alike; the schemas may
  be read in any order. A document that was read declares no schema twice.
  Main statement: `readWith_carried`.
-/
import OpenApi.Build.Basic
import OpenApi.Proofs.Order.Declarations
import OpenApi.Proofs.Strictness.DocumentReaders

namespace OpenApi

/-! ## §1. Altered mappings. -/

namespace Node

variable {n n' : Node} {key k : String} {R : Node → Node → Prop}

theorem Alters.refl (h : n.kind = .mapping) : Alters key R n n := by
  induction n using Node.induction with
  | mapping entries _ => exact .mapping (List.forall₂_same.2 fun _ _ => ⟨rfl, .inl rfl⟩)
  | tagged tag n ih => exact .tagged (ih h)
  | null | bool | number | string | sequence => exact absurd h nofun

theorem Reorders.refl (h : n.kind = .mapping) : Reorders n n := by
  induction n using Node.induction with
  | mapping entries _ => exact .mapping (.refl entries)
  | tagged tag n ih => exact .tagged (ih h)
  | null | bool | number | string | sequence => exact absurd h nofun

/-- A null has no keys, tags looked through. -/
theorem entries_of_null (h : n.kind = .null) : n.entries = [] := by
  induction n using Node.induction with
  | null => rfl
  | tagged tag n ih => exact ih h
  | bool | number | string | sequence | mapping => exact absurd h nofun

theorem Alters.get?_eq_none (h : Alters key R n n') (hnone : n.get? k = none) : n'.get? k = none := by
  have hkeys : k ∉ n'.keys := by
    rw [h.keys, Node.mem_keys, hnone]
    exact Bool.false_ne_true
  rw [Node.mem_keys, Bool.not_eq_true, Option.isSome_eq_false_iff] at hkeys
  exact Option.isNone_iff_eq_none.1 hkeys

end Node

/-- The second mapping is the first one in another document of the same name, where the value under the key may be
changed in some way. -/
structure Mapping.Beside (key : String) (R : Node → Node → Prop) (m m' : Mapping) : Prop where
  node : m.node.Alters key R m'.node
  path : m'.path = m.path
  filename : m'.filename = m.filename

namespace Mapping.Beside

variable {key k : String} {R : Node → Node → Prop} {m m' : Mapping}

theorem child (h : Beside key R m m') (k : String) : m'.child k = m.child k := by
  unfold Mapping.child
  rw [h.path]

theorem keys (h : Beside key R m m') : m'.keys = m.keys := h.node.keys

theorem containsKey (h : Beside key R m m') (k : String) : m'.containsKey k = m.containsKey k := by
  rw [Bool.eq_iff_iff, ← Trim.Cuts.mem_keys, ← Trim.Cuts.mem_keys, h.keys]

end Mapping.Beside

namespace Building

variable {α β : Type} {key k : String} {R : Node → Node → Prop} {m m' : Mapping}

/-! ## §2. Lookups. -/

/-- Two lookups of a key found related values, or both found none since there is none. -/
inductive Looked (m : Mapping) (k : String) (S : α → β → Prop) (l : Lookup α) (l' : Lookup β) : Prop
  | present {a : α} {b : β} (h : l.optional = some a) (h' : l'.optional = some b) (hab : S a b)
  | missing (h : l.optional = none) (h' : l'.optional = none) (hnull : ∀ n, m.node.get? k = some n → n.kind = .null)

theorem Looked.outcome {S : α → β → Prop} {l : Lookup α} {l' : Lookup β} (h : Looked m k S l l') :
    Option.Rel S l.optional l'.optional := by
  cases h with
  | present h h' hab => rw [h, h']; exact .some hab
  | missing h h' => rw [h, h']; exact .none

namespace Carried

theorem lookup {S : α → β → Prop} (h : m.Beside key R m') (hR : ∀ n n', R n n' → n'.kind = n.kind)
    {read : Node → Except Error α} {read' : Node → Except Error β}
    (hread : ∀ n n' a, m.node.get? k = some n → (n' = n ∨ k = key ∧ R n n') → read n = .ok a →
      ∃ b, read' n' = .ok b ∧ S a b) :
    Carried (liftM (m.lookup k read) : Building (Lookup α)) (liftM (m'.lookup k read')) (Looked m k S) := by
  intro s t l after hst hrun
  rw [run_lookup] at hrun
  obtain ⟨hlook, rfl⟩ := Prod.mk.inj hrun
  -- the value under the key is the same or altered; neither makes it null or takes it away
  have hfound : ∃ l', m'.look k read' = .ok l' ∧ Looked m k S l l' := by
    rcases Mapping.look_eq_ok.1 hlook with ⟨hnull, rfl⟩ | ⟨n, a, hget, hkind, ha, rfl⟩
    · refine ⟨_, Mapping.look_eq_ok.2 (.inl ⟨fun n' hn' => ?_, rfl⟩), .missing rfl rfl hnull⟩
      cases hget : m.node.get? k with
      | none =>
        rw [h.node.get?_eq_none hget] at hn'
        exact absurd hn' nofun
      | some n =>
        obtain ⟨n'', hget'', hvalue⟩ := h.node.get? hget
        rw [hn'] at hget''
        cases hget''
        rcases hvalue with rfl | ⟨-, hvalue⟩
        · exact hnull n' hget
        · rw [hR _ _ hvalue]
          exact hnull n hget
    · obtain ⟨n', hget', hvalue⟩ := h.node.get? hget
      obtain ⟨b, hb, hab⟩ := hread n n' a hget hvalue ha
      have hkind' : n'.kind ≠ .null := by
        rcases hvalue with rfl | ⟨-, hvalue⟩
        · exact hkind
        · rw [hR _ _ hvalue]
          exact hkind
      exact ⟨_, Mapping.look_eq_ok.2 (.inr ⟨n', b, hget', hkind', hb, rfl⟩), .present rfl rfl hab⟩
  obtain ⟨l', hlook', hlooked⟩ := hfound
  have hrun' := run_lookup m' k read' t
  rw [hlook', h.containsKey, h.child] at hrun'
  refine ⟨l', _, hrun', hlooked, ?_, hst.spec, hst.made, hst.made'⟩
  split
  next => exact hst.usage.markRead _
  next => exact hst.usage

/-- A mapping under another key is a copy. -/
theorem mapping (h : m.Beside key R m') (hR : ∀ n n', R n n' → n'.kind = n.kind) (hk : k ≠ key) :
    Carried (liftM (m.mapping k) : Building (Lookup Mapping)) (liftM (m'.mapping k))
      (Looked m k Mapping.Copy) := by
  refine lookup h hR fun n n' c hget hvalue hread => ?_
  obtain rfl : n' = n := hvalue.resolve_right fun hother => hk hother.1
  obtain ⟨hkind, rfl⟩ := Mapping.ofNode_eq_ok.1 hread
  exact ⟨_, Mapping.ofNode_eq_ok.2 ⟨hkind, rfl⟩, rfl, h.child k, h.filename, hkind⟩

/-- The mapping under the key may be changed. -/
theorem mapping_altered (h : m.Beside key R m') (hR : ∀ n n', R n n' → n'.kind = n.kind) :
    Carried (liftM (m.mapping key) : Building (Lookup Mapping)) (liftM (m'.mapping key))
      (Looked m key fun c c' => m.node.get? key = some c.node ∧ c.node.kind = .mapping ∧
        (c'.node = c.node ∨ R c.node c'.node) ∧ c'.path = c.path ∧ c'.filename = c.filename) := by
  refine lookup h hR fun n n' c hget hvalue hread => ?_
  obtain ⟨hkind, rfl⟩ := Mapping.ofNode_eq_ok.1 hread
  have hkind' : n'.kind = .mapping := by
    rcases hvalue with rfl | ⟨-, hvalue⟩
    · exact hkind
    · rw [hR _ _ hvalue]
      exact hkind
  exact ⟨_, Mapping.ofNode_eq_ok.2 ⟨hkind', rfl⟩, hget, hkind, hvalue.imp_right And.right, h.child key, h.filename⟩

/-- A sequence under another key is a copy. -/
theorem sequence (h : m.Beside key R m') (hR : ∀ n n', R n n' → n'.kind = n.kind) (hk : k ≠ key) :
    Carried (liftM (m.sequence k) : Building (Lookup Sequence)) (liftM (m'.sequence k))
      (Looked m k fun c c' => ∀ usage, (Trim.whole m.filename usage).CutsSequence c c') := by
  refine lookup h hR fun n n' c hget hvalue hread => ?_
  obtain rfl : n' = n := hvalue.resolve_right fun hother => hk hother.1
  obtain ⟨hkind, rfl⟩ := Sequence.ofNode_eq_ok.1 hread
  exact ⟨_, Sequence.ofNode_eq_ok.2 ⟨hkind, rfl⟩, fun usage => ⟨(Node.without_nil _ _).symm, h.child k, rfl, h.filename⟩⟩

/-- The same keys are passed over. -/
theorem ignore (h : m.Beside key R m') (keys : List String) :
    Carried (liftM (m.ignore keys) : Building Unit) (liftM (m'.ignore keys)) fun _ _ => True := by
  intro s t u after hst hrun
  rw [run_ignore] at hrun
  obtain ⟨-, rfl⟩ := Prod.mk.inj hrun
  have hpassed : ∀ {u v : Usage}, u.Same v → (m.passedOver keys u).Same (m'.passedOver keys v) := by
    clear hrun
    unfold Mapping.passedOver
    induction keys with
    | nil => exact fun huv => huv
    | cons key keys ih =>
      intro u v huv
      rw [List.foldl_cons, List.foldl_cons, h.containsKey, h.child]
      split
      next => exact ih (huv.markSealed _)
      next => exact ih huv
  exact ⟨(), _, run_ignore m' keys t, trivial, hpassed hst.usage, hst.spec, hst.made, hst.made'⟩

end Carried

end Building

namespace Build

open Building (Carried Steady Looked)
open Agreement (tables)

variable {m m' : Mapping}

/-! ## §3. Components. -/

theorem kind_of_reorders (n n' : Node) (h : n.Reorders n') : n'.kind = n.kind := by rw [h.kind.1, h.kind.2]

theorem kind_of_alters {key : String} {R : Node → Node → Prop} (n n' : Node) (h : n.Alters key R n') :
    n'.kind = n.kind := by rw [h.kind.1, h.kind.2]

/-- The schemas among the components may be declared in another order; no two of them share a key. -/
theorem readComponentModels_carried (h : m.Beside "schemas" Node.Reorders m') :
    Carried (readComponentModels m) (readComponentModels m') fun _ _ =>
      ∀ schemas, m.node.get? "schemas" = some schemas → schemas.keys.Nodup := by
  unfold readComponentModels
  refine (Carried.mapping_altered h kind_of_reorders).bind fun found found' hfound => ?_
  cases hfound with
  | missing hl hl' hnull =>
    rw [hl, hl']
    refine .pure fun schemas hget => ?_
    unfold Node.keys
    rw [Node.entries_of_null (hnull schemas hget)]
    exact List.nodup_nil
  | @present c c' hl hl' hc =>
    obtain ⟨hget, hkind, hnode, hpath, hfilename⟩ := hc
    rw [hl, hl']
    have hreorders : c.node.Reorders c'.node := by
      rcases hnode with hsame | hreorders
      · rw [hsame]
        exact .refl hkind
      · exact hreorders
    -- first the order changes, then the document
    have hmiddle : Carried (readModels c) (readModels { c with node := c'.node }) fun _ _ => c.node.keys.Nodup :=
      readModels_reordered hreorders rfl rfl
    have hcopy : Mapping.Copy { c with node := c'.node } c' := ⟨rfl, hpath, hfilename, hreorders.kind.2⟩
    refine (hmiddle.followed fun usage => readModels_follows (hcopy.cuts usage)).mono fun _ _ hnodup => ?_
    obtain ⟨-, hnodup, -⟩ := hnodup
    intro schemas hschemas
    rw [hget] at hschemas
    cases hschemas
    exact hnodup

theorem readComponentSchemes_carried {R : Node → Node → Prop} (h : m.Beside "schemas" R m')
    (hR : ∀ n n', R n n' → n'.kind = n.kind) :
    Carried (readComponentSchemes m) (readComponentSchemes m') fun _ _ => True := by
  unfold readComponentSchemes
  refine (Carried.mapping h hR (by decide)).bind fun found found' hfound => ?_
  refine Carried.optionally hfound.outcome (fun c c' hc => ?_) trivial
  exact .of_copy (readSchemes_steady c) fun usage => readSchemes_follows (hc.cuts usage)

/-! ## §4. Documents. -/

section

variable {R : Node → Node → Prop} (h : m.Beside "components" R m') (hR : ∀ n n', R n n' → n'.kind = n.kind)
include h hR

theorem readServers_carried : Carried (readServers m) (readServers m') Eq := by
  unfold readServers
  refine (Carried.sequence h hR (by decide)).bind fun found found' hfound => ?_
  cases hfound with
  | missing hl hl' _ =>
    rw [hl, hl']
    exact .pure rfl
  | @present servers servers' hl hl' hservers =>
    rw [hl, hl']
    -- servers are read in a copy of the state, so what they mark is compared after the whole list
    refine .of_copy (F := True)
      (Steady.lift fun ms => (Steady.mapM fun m _ => readServer_steady m).bind fun servers => ?_)
      fun usage => (Trim.Follows.mappings (hservers usage)).bind fun ms ms' hms => ?_
    · split
      next => exact .pure
      next => exact .pure
    · refine (Trim.Follows.mapM_eq (Q := (Trim.whole m.filename usage).Cuts)
        (fun c c' hc => readServer_follows hc) hms).bind ?_
      rintro servers _ rfl
      split
      next => exact .pure rfl trivial
      next => exact .pure rfl trivial

theorem readCommonSecurity_carried : Carried (readCommonSecurity m) (readCommonSecurity m') Eq := by
  unfold readCommonSecurity
  refine (Carried.sequence h hR (by decide)).bind fun found found' hfound => ?_
  refine Carried.optionally hfound.outcome (fun c c' hc => ?_) rfl
  exact .of_copy (readRequirements_steady c) fun usage => readRequirements_follows (hc usage)

end

/-- The components of a document whose schemas are declared in another order. -/
theorem components_of_looked {found found' : Lookup Mapping}
    (h : Looked m "components" (fun c c' => m.node.get? "components" = some c.node ∧ c.node.kind = .mapping ∧
      (c'.node = c.node ∨ c.node.Alters "schemas" Node.Reorders c'.node) ∧ c'.path = c.path ∧
        c'.filename = c.filename) found found') :
    Looked m "components" (fun c c' => m.node.get? "components" = some c.node ∧
      c.Beside "schemas" Node.Reorders c') found found' := by
  cases h with
  | missing hl hl' hnull => exact .missing hl hl' hnull
  | @present c c' hl hl' hc =>
    obtain ⟨hget, hkind, hnode, hpath, hfilename⟩ := hc
    refine .present hl hl' ⟨hget, ?_, hpath, hfilename⟩
    rcases hnode with hsame | halters
    · rw [hsame]
      exact .refl hkind
    · exact halters

/-- What is known of the schemas among the components is known of the document. -/
theorem schemasDistinct_of_components {components : Node} (hget : m.node.get? "components" = some components)
    (h : ∀ schemas, components.get? "schemas" = some schemas → schemas.keys.Nodup) :
    m.node.SchemasDistinct := by
  intro components' schemas hget' hschemas
  rw [hget] at hget'
  cases hget'
  exact h schemas hschemas

theorem schemasDistinct_of_null (h : ∀ n, m.node.get? "components" = some n → n.kind = .null) :
    m.node.SchemasDistinct := by
  intro components schemas hget hschemas
  unfold Node.get? at hschemas
  rw [Node.entries_of_null (h components hget)] at hschemas
  exact absurd hschemas nofun

theorem readEntryDocument_carried (options : Options)
    (h : m.Beside "components" (Node.Alters "schemas" Node.Reorders) m') :
    Carried (readEntryDocument options m) (readEntryDocument options m') fun _ _ => m.node.SchemasDistinct := by
  unfold readEntryDocument
  refine (Carried.ignore h _).bind fun _ _ _ => ?_
  refine (Carried.mapping h kind_of_alters (by decide)).bind fun info info' hinfo => ?_
  refine (Carried.optionally (S := fun _ _ => True) hinfo.outcome (fun c c' hc => ?_) trivial).bind fun _ _ _ => ?_
  · exact .of_copy (declareInfo_steady c) fun usage => declareInfo_follows (hc.cuts usage)
  refine (readServers_carried h kind_of_alters).bind ?_
  rintro servers _ rfl
  have hdescribe : Carried (Building.update fun spec => .ok { spec with servers })
      (Building.update fun spec => .ok { spec with servers }) fun _ _ => True := by
    refine .update fun s t hst s' hs' => ?_
    refine ⟨.describe s.info servers, { t with servers }, hs', rfl, ?_⟩
    rw [hst.info]
    rfl
  refine hdescribe.bind fun _ _ _ => ?_
  refine (Carried.mapping_altered h kind_of_alters).bind fun found found' hfound => ?_
  -- the components are looked at twice: for their schemas and, in the end, for their security schemes
  have hcomponents := components_of_looked hfound
  have hmodels : Carried (Building.optionally readComponentModels () found.optional)
      (Building.optionally readComponentModels () found'.optional) fun _ _ => m.node.SchemasDistinct := by
    cases hcomponents with
    | missing hl hl' hnull =>
      rw [hl, hl']
      exact .pure (schemasDistinct_of_null hnull)
    | present hl hl' hc =>
      rw [hl, hl']
      exact (readComponentModels_carried hc.2).mono fun _ _ => schemasDistinct_of_components hc.1
  refine hmodels.bind fun _ _ hdistinct => ?_
  refine (readCommonSecurity_carried h kind_of_alters).bind ?_
  rintro security _ rfl
  refine (Carried.mapping h kind_of_alters (by decide)).bind fun paths paths' hpaths => ?_
  refine (Carried.optionally (S := fun _ _ => True) hpaths.outcome (fun c c' hc => ?_) trivial).bind fun _ _ _ => ?_
  · exact .of_copy (readPaths_steady _ c) fun usage => readPaths_follows (hc.cuts usage) _
  refine Carried.optionally hcomponents.outcome (fun c c' hc => ?_) hdistinct
  exact (readComponentSchemes_carried hc.2 kind_of_reorders).mono fun _ _ _ => hdistinct

theorem readForeignDocument_carried (h : m.Beside "components" (Node.Alters "schemas" Node.Reorders) m') :
    Carried (readForeignDocument m) (readForeignDocument m') fun _ _ => m.node.SchemasDistinct := by
  unfold readForeignDocument
  refine (Carried.ignore h _).bind fun _ _ _ => ?_
  refine (Carried.mapping_altered h kind_of_alters).bind fun found found' hfound => ?_
  cases components_of_looked hfound with
  | missing hl hl' hnull =>
    rw [hl, hl']
    exact .pure (schemasDistinct_of_null hnull)
  | present hl hl' hc =>
    rw [hl, hl']
    dsimp only
    rw [hc.2.keys]
    refine (Carried.ignore hc.2 _).bind fun _ _ _ => ?_
    exact (readComponentModels_carried hc.2).mono fun _ _ => schemasDistinct_of_components hc.1

/-! ## §5. Whole documents. -/

/-- Where the root of the document is a mapping, so is that of the other one, next to it. -/
theorem beside_of_mapping {d d' : Document} (h : d.Reordered d') {m : Mapping} (hm : d.mapping = .ok m) :
    ∃ m', d'.mapping = .ok m' ∧ m.Beside "components" (Node.Alters "schemas" Node.Reorders) m' ∧ m.node = d.root := by
  obtain ⟨hkind, rfl⟩ := Mapping.ofNode_eq_ok.1 hm
  have halters : d.root.Alters "components" (Node.Alters "schemas" Node.Reorders) d'.root := by
    rcases h.root with hsame | halters
    · rw [hsame]
      exact .refl hkind
    · exact halters
  exact ⟨_, Mapping.ofNode_eq_ok.2 ⟨halters.kind.2, rfl⟩, ⟨halters, rfl, h.filename⟩, rfl⟩

/-- **A document whose schemas are declared in another order is read alike:** the same keys are marked, and the specs
hold the same. A document that was read declares no schema twice. -/
theorem readWith_carried {read : Mapping → Building Unit}
    (hread : ∀ m m' : Mapping, m.Beside "components" (Node.Alters "schemas" Node.Reorders) m' →
      Carried (read m) (read m') fun _ _ => m.node.SchemasDistinct)
    {d d' : Document} (h : d.Reordered d') :
    Carried (readWith read d) (readWith read d') fun u u' => u.Same u' ∧ d.root.SchemasDistinct := by
  have hroot : Carried (liftM d.mapping >>= read) (liftM d'.mapping >>= read) fun _ _ =>
      d.root.SchemasDistinct := by
    refine Carried.bind (R := fun m m' => m.Beside "components" (Node.Alters "schemas" Node.Reorders) m' ∧
      m.node = d.root) (.lift fun m hm => beside_of_mapping h hm) fun m m' hm => ?_
    rw [← hm.2]
    exact hread m m' hm.1
  intro s t u after hst hrun
  rw [run_readWith] at hrun
  -- each document is read with marks of its own
  have hfresh : Session.Alike { s with usage := .none } { t with usage := .none } :=
    ⟨.refl _, hst.spec, hst.made, hst.made'⟩
  cases hfrom : (liftM d.mapping >>= read).run.run { s with usage := .none } with
  | mk result last =>
    rw [hfrom] at hrun
    obtain ⟨hresult, rfl⟩ := Prod.mk.inj hrun
    cases result with
    | error e => exact absurd hresult nofun
    | ok _ =>
      have husage : last.usage = u := Except.ok.inj hresult
      obtain ⟨_, last', hfrom', hdistinct, halike⟩ := hroot _ _ _ _ hfresh hfrom
      refine ⟨last'.usage, last', ?_, ⟨husage ▸ halike.usage, hdistinct⟩, halike⟩
      rw [run_readWith, hfrom']
      rfl

end Build

end OpenApi
