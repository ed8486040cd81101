/-
  OpenApi.Proofs.Pairs.Lookups — lookups in mappings that belong together.

  Mappings at the same path of two documents of one name, whose nodes belong together, are asked for the same keys.
  What one lookup finds belongs to what the other one finds, and the marks stay together. Most keys that are looked up
  are known names, which are no extensions; of tables each key is.
-/
import OpenApi.Document.Mapping
import OpenApi.Proofs.Pairs.Pairing

namespace OpenApi

variable {α β γ δ : Type}

/-- A lookup has a value where asking for it gives one. -/
theorem Lookup.optional_eq (l : Lookup α) : l.optional = l.required.toOption := by
  unfold Lookup.optional Lookup.required
  cases l.outcome with
  | present a => rfl
  | missing reason => rfl

/-- Both lookups were made in a document. They found related values, or both found none, for which the errors belong
together. -/
structure Lookup.Pair (E : Error → Error → Prop) (R : α → β → Prop) (l : Lookup α) (l' : Lookup β) : Prop where
  required : Both E R l.required l'.required
  origin : l.origin.isSome = true
  origin' : l'.origin.isSome = true

namespace Lookup.Pair

variable {E : Error → Error → Prop} {R : α → β → Prop} {l : Lookup α} {l' : Lookup β}

theorem optional (h : Lookup.Pair E R l l') : Option.Rel R l.optional l'.optional := by
  rw [l.optional_eq, l'.optional_eq]
  exact h.required.optional

theorem cases (h : Lookup.Pair E R l l') :
    (∃ a b, l.optional = some a ∧ l'.optional = some b ∧ R a b) ∨ l.optional = none ∧ l'.optional = none := by
  have hvalues := h.optional
  generalize l.optional = o at hvalues ⊢
  generalize l'.optional = o' at hvalues ⊢
  cases hvalues with
  | some hab => exact .inl ⟨_, _, rfl, rfl, hab⟩
  | none => exact .inr ⟨rfl, rfl⟩

theorem same {k k' : Lookup α} (h : Lookup.Pair E Eq k k') : k'.optional = k.optional := by
  obtain ⟨a, b, hk, hk', hab⟩ | ⟨hk, hk'⟩ := h.cases
  · rw [hk, hk', hab]
  · rw [hk, hk']

theorem getD {k k' : Lookup α} (h : Lookup.Pair E Eq k k') (default : α) : k'.getD default = k.getD default := by
  unfold Lookup.getD
  rw [h.same]

end Lookup.Pair

namespace Pairing

variable {P : Pairing} {r : Role}

/-! ## §1. Mappings and sequences. -/

/-- The mappings stand at the same path of documents of one name, and their nodes belong together. -/
structure Pair (P : Pairing) (r : Role) (m m' : Mapping) : Prop where
  filename : m'.filename = m.filename
  path : m'.path = m.path
  node : P.nodes r m.node m'.node
  kind : m.node.kind = .mapping

/-- The sequences stand at the same path of documents of one name, and their nodes belong together. -/
structure Rows (P : Pairing) (r : Role) (s s' : Sequence) : Prop where
  filename : s'.document.filename = s.document.filename
  path : s'.path = s.path
  node : P.nodes r s.node s'.node

/-- The documents have one name, and their trees belong together. -/
structure Documents (P : Pairing) (r : Role) (d d' : Document) : Prop where
  filename : d'.filename = d.filename
  root : P.nodes r d.root d'.root

/-- Both nodes are mappings or both are none. -/
theorem pair_of_ofNode {d d' : Document} (hd : d'.filename = d.filename) {n n' : Node} (h : P.nodes r n n')
    (path : Path) : Both P.errors (P.Pair r) (Mapping.ofNode d n path) (Mapping.ofNode d' n' path) := by
  unfold Mapping.ofNode
  rw [P.kind h]
  by_cases hkind : n.kind = .mapping
  · rw [if_pos hkind, if_pos hkind]
    exact .ok ⟨hd, rfl, h, hkind⟩
  · rw [if_neg hkind, if_neg hkind]
    exact .error (P.alike (Source.wrongKind_alike hd _ _ _))

/-- Both nodes are sequences or both are none. -/
theorem rows_of_ofNode {d d' : Document} (hd : d'.filename = d.filename) {n n' : Node} (h : P.nodes r n n')
    (path : Path) : Both P.errors (P.Rows r) (Sequence.ofNode d n path) (Sequence.ofNode d' n' path) := by
  unfold Sequence.ofNode
  rw [P.kind h]
  by_cases hkind : n.kind = .sequence
  · rw [if_pos hkind, if_pos hkind]
    exact .ok ⟨hd, rfl, h⟩
  · rw [if_neg hkind, if_neg hkind]
    exact .error (P.alike (Source.wrongKind_alike hd _ _ _))

theorem Documents.mapping {d d' : Document} (h : P.Documents r d d') :
    Both P.errors (P.Pair r) d.mapping d'.mapping :=
  pair_of_ofNode h.filename h.root []

/-! ## §2. Sequences. -/

theorem itemsFrom_rel {R : Node → Node → Prop} {items items' : List Node} (h : List.Forall₂ R items items')
    (path : Path) : ∀ index, List.Forall₂ (fun e e' => e'.1 = e.1 ∧ R e.2 e'.2)
      (Sequence.itemsFrom path index items) (Sequence.itemsFrom path index items') := by
  induction h with
  | nil => exact fun _ => .nil
  | cons hn _ ih => exact fun index => .cons ⟨rfl, hn⟩ (ih (index + 1))

namespace Rows

variable {s s' : Sequence}

theorem items (h : P.Rows r s s') :
    List.Forall₂ (fun e e' => e'.1 = e.1 ∧ P.nodes r e.2 e'.2) s.items s'.items := by
  unfold Sequence.items
  rw [h.path]
  exact itemsFrom_rel (P.items h.node) _ 0

theorem mappings (h : P.Rows r s s') : Both P.errors (List.Forall₂ (P.Pair r)) s.mappings s'.mappings := by
  refine Both.mapM (fun e e' he => ?_) h.items
  rw [he.1]
  exact pair_of_ofNode h.filename he.2 _

theorem texts (h : P.Rows r s s') : Both P.errors Eq s.texts s'.texts := by
  have hitems : Both P.errors (List.Forall₂ Eq) s.texts s'.texts := by
    refine Both.mapM (fun e e' he => ?_) h.items
    rw [P.scalarText he.2]
    cases e.2.scalarText with
    | some text => exact .ok rfl
    | none =>
      dsimp only
      rw [he.1, P.kind he.2]
      exact .error (P.alike (Source.wrongKind_alike h.filename _ _ _))
  exact hitems.mono fun _ _ heq => List.forall₂_eq_eq_eq ▸ heq

end Rows

namespace Pair

variable {m m' : Mapping} {key : String} {R : α → β → Prop}

/-! ## §3. Questions that mark nothing. -/

theorem child (h : P.Pair r m m') (key : String) : m'.child key = m.child key := by
  unfold Mapping.child
  rw [h.path]

theorem kind' (h : P.Pair r m m') : m'.node.kind = .mapping := (P.kind h.node).trans h.kind

theorem containsKey (h : P.Pair r m m') (hkey : key ∈ r.deciding) : m'.containsKey key = m.containsKey key :=
  P.decided h.node hkey

theorem isEmpty (h : P.Pair (.schema true) m m') : m'.isEmpty = m.isEmpty := P.isEmpty h.node

theorem inert (h : P.Pair .member m m') :
    m'.keys.all Build.inertKeys.contains = m.keys.all Build.inertKeys.contains := P.inert h.node

theorem methods (h : P.Pair .pathItem m m') :
    (m'.keys.filter fun key => !Build.isItemKey key) = m.keys.filter fun key => !Build.isItemKey key :=
  P.methods h.node

theorem absent (h : P.Pair r m m') (key : String) :
    Lookup.Pair P.errors R (m.absent key) (m'.absent key) := by
  refine ⟨.error ?_, rfl, rfl⟩
  show P.errors (m.source.missingField m.path key m.keys) (m'.source.missingField m'.path key m'.keys)
  rw [h.path]
  exact P.missing _ _ h.node h.filename

/-- Where all keys of a list decide, the same one of them is found first. -/
theorem find?_containsKey (h : P.Pair r m m') {keys : List String} (hkeys : ∀ key ∈ keys, key ∈ r.deciding) :
    keys.find? m'.containsKey = keys.find? m.containsKey := by
  induction keys with
  | nil => rfl
  | cons key keys ih =>
    rw [List.find?_cons, List.find?_cons, h.containsKey (hkeys key List.mem_cons_self),
      ih fun k hk => hkeys k (List.mem_cons_of_mem _ hk)]

/-- The kinds of the values under a key are the same, but that null may be missing. -/
theorem kindOf (h : P.Pair r m m') (hkey : r.Finds key) :
    m'.kindOf key = m.kindOf key ∨ (m.kindOf key = none ∨ m.kindOf key = some .null) ∧
      (m'.kindOf key = none ∨ m'.kindOf key = some .null) := by
  have hnull : ∀ {o : Option Node}, (∀ n, o = some n → n.kind = .null) →
      o.map Node.kind = none ∨ o.map Node.kind = some .null := by
    intro o ho
    cases o with
    | none => exact .inl rfl
    | some n => exact .inr (congrArg some (ho n rfl))
  unfold Mapping.kindOf
  obtain ⟨n, n', ho, ho', hn⟩ | ⟨ho, ho'⟩ := P.get? h.node hkey
  · rw [ho, ho']
    exact .inl (congrArg some (P.kind hn))
  · exact .inr ⟨hnull ho, hnull ho'⟩

/-! ## §4. Errors. -/

theorem unsupported (h : P.Pair r m m') (what : String) : P.errors (m.unsupported what) (m'.unsupported what) :=
  P.alike (Mapping.unsupported_alike h.filename h.path what)

theorem unsupportedAt (h : P.Pair r m m') (key what : String) :
    P.errors (m.unsupportedAt key what) (m'.unsupportedAt key what) :=
  P.alike (Mapping.unsupportedAt_alike h.filename h.path key what)

theorem invalidReferenceAt (h : P.Pair r m m') (key reference : String) :
    P.errors (m.invalidReferenceAt key reference) (m'.invalidReferenceAt key reference) :=
  P.alike (Mapping.invalidReferenceAt_alike h.filename h.path key reference)

theorem invalidValueAt (h : P.Pair r m m') (key message : String) :
    P.errors (m.invalidValueAt key message) (m'.invalidValueAt key message) :=
  P.alike (Mapping.invalidValueAt_alike h.filename h.path key message)

/-! ## §5. Lookups. -/

/-- The marks stay together when a key is looked up on both sides. -/
theorem marked (h : P.Pair r m m') (hkey : r.Finds key) {mark : Usage → Path → Usage}
    (hmark : ∀ {u u'} path, P.marks u u' → P.marks (mark u path) (mark u' path)) {u u' : Usage}
    (hu : P.marks u u') :
    P.marks (if m.containsKey key then mark u (m.child key) else u)
      (if m'.containsKey key then mark u' (m'.child key) else u') := by
  -- the key is there on both sides or on none, or its marks tell nothing apart
  rcases P.there h.node hkey with hsame | hany
  · have hthere : m'.containsKey key = m.containsKey key := hsame
    rw [hthere, h.child]
    split
    next => exact hmark _ hu
    next => exact hu
  · exact hany _ _

/-- A lookup that reads values that belong together alike. -/
theorem lookup (h : P.Pair r m m') (hkey : r.Finds key) {read : Node → Except Error α}
    {read' : Node → Except Error β}
    (hread : ∀ n n', P.nodes (r.under key) n n' → Both P.errors R (read n) (read' n')) :
    P.Reads (Lookup.Pair P.errors R) (m.lookup key read) (m'.lookup key read') := by
  have hlook : Both P.errors (Lookup.Pair P.errors R) (m.look key read) (m'.look key read') := by
    have habsent : Lookup.Pair P.errors R (m.absent key) (m'.absent key) := h.absent key
    obtain ⟨n, n', ho, ho', hn⟩ | ⟨ho, ho'⟩ := P.get? h.node hkey
    · unfold Mapping.look
      rw [ho, ho']
      dsimp only
      rw [P.kind hn]
      by_cases hnull : n.kind = .null
      · -- a null is told as absent, and leaves no more than its mark
        rw [if_pos hnull, if_pos hnull]
        exact .ok habsent
      · rw [if_neg hnull, if_neg hnull]
        exact (hread n n' hn).map fun a b hab => ⟨.ok hab, rfl, rfl⟩
    · rw [Mapping.look_eq_ok.2 (.inl ⟨ho, rfl⟩), Mapping.look_eq_ok.2 (.inl ⟨ho', rfl⟩)]
      exact .ok habsent
  intro u u' hu
  rw [Mapping.run_lookup, Mapping.run_lookup]
  exact ⟨hlook, h.marked hkey P.markRead hu⟩

theorem mapping (h : P.Pair r m m') (hkey : r.Finds key) :
    P.Reads (Lookup.Pair P.errors (P.Pair (r.under key))) (m.mapping key) (m'.mapping key) := by
  refine h.lookup hkey fun n n' hn => ?_
  rw [h.child]
  exact pair_of_ofNode h.filename hn _

theorem sequence (h : P.Pair r m m') (hkey : r.Finds key) :
    P.Reads (Lookup.Pair P.errors (P.Rows (r.under key))) (m.sequence key) (m'.sequence key) := by
  refine h.lookup hkey fun n n' hn => ?_
  rw [h.child]
  exact rows_of_ofNode h.filename hn _

theorem scalarAt (h : P.Pair r m m') {q : Role} {n n' : Node} (hn : P.nodes q n n') :
    Both P.errors Eq (m.scalarAt key n) (m'.scalarAt key n') := by
  unfold Mapping.scalarAt
  rw [P.scalarText hn, P.kind hn, h.child]
  cases n.scalarText with
  | some text => exact .ok rfl
  | none => exact .error (P.alike (Source.wrongKind_alike h.filename _ _ _))

theorem string (h : P.Pair r m m') (hkey : r.Finds key) :
    P.Reads (Lookup.Pair P.errors Eq) (m.string key) (m'.string key) :=
  h.lookup hkey fun _ _ => h.scalarAt

/-- A scalar of which something is read. -/
theorem scalar (h : P.Pair r m m') (hkey : r.Finds key) {f f' : String → Except Error α}
    (hf : ∀ text, Both P.errors Eq (f text) (f' text)) :
    P.Reads (Lookup.Pair P.errors Eq) (m.lookup key fun n => m.scalarAt key n >>= f)
      (m'.lookup key fun n => m'.scalarAt key n >>= f') := by
  refine h.lookup hkey fun n n' hn => (h.scalarAt hn).bind ?_
  rintro text _ rfl
  exact hf text

theorem boolean (h : P.Pair r m m') (hkey : r.Finds key) :
    P.Reads (Lookup.Pair P.errors Eq) (m.boolean key) (m'.boolean key) := by
  refine h.lookup hkey fun n n' hn => ?_
  rw [P.boolean? hn]
  cases n.boolean? with
  | some b => exact .ok rfl
  | none =>
    apply (h.scalarAt hn).bind
    rintro text _ rfl
    by_cases htrue : text = "true"
    · rw [if_pos htrue, if_pos htrue]
      exact .ok rfl
    by_cases hfalse : text = "false"
    · rw [if_neg htrue, if_neg htrue, if_pos hfalse, if_pos hfalse]
      exact .ok rfl
    rw [if_neg htrue, if_neg htrue, if_neg hfalse, if_neg hfalse, h.child]
    exact .error (P.alike (Source.invalidVariant_alike h.filename _ _ _))

theorem number (h : P.Pair r m m') (hkey : r.Finds key) :
    P.Reads (Lookup.Pair P.errors Eq) (m.number key) (m'.number key) := by
  refine h.scalar hkey fun text => ?_
  cases Text.unsigned? Mapping.numberBound text with
  | some k => exact .ok rfl
  | none => exact .error (h.invalidValueAt key _)

theorem oneOf [Spelled α] (h : P.Pair r m m') (hkey : r.Finds key) :
    P.Reads (Lookup.Pair P.errors Eq) (m.oneOf α key) (m'.oneOf α key) := by
  refine h.scalar hkey fun text => ?_
  cases (Spelled.ofText? text : Option α) with
  | some value => exact .ok rfl
  | none =>
    dsimp only
    rw [h.child]
    exact .error (P.alike (Source.invalidVariant_alike h.filename _ _ _))

/-! ## §6. Whole subtrees. -/

/-- Where nothing stands under a key but null, no value is found, and a null is marked as read. -/
theorem run_value_neither (ho : ∀ n, m.node.get? key = some n → n.kind = .null) (u : Usage) :
    (m.value key).run.run u = (.ok (m.absent key), if m.containsKey key then u.markRead (m.child key) else u) := by
  rw [Mapping.run_value]
  unfold Mapping.containsKey
  cases hget : m.node.get? key with
  | none => rfl
  | some n => exact if_pos (ho n hget)

/-- A value of which everything counts. -/
theorem value (h : P.Pair r m m') (hkey : r.Finds key) (hexact : r.under key = .exact) :
    P.Reads (Lookup.Pair P.errors Eq) (m.value key) (m'.value key) := by
  have habsent : Lookup.Pair P.errors (Eq (α := Json)) (m.absent key) (m'.absent key) := h.absent key
  intro u u' hu
  obtain ⟨n, n', ho, ho', hn⟩ | ⟨ho, ho'⟩ := P.get? h.node hkey
  · rw [hexact] at hn
    rw [Mapping.run_value, Mapping.run_value, ho, ho']
    dsimp only
    rw [P.kind hn, P.json hn, h.child]
    by_cases hnull : n.kind = .null
    · rw [if_pos hnull, if_pos hnull]
      exact ⟨.ok habsent, P.markRead _ hu⟩
    · rw [if_neg hnull, if_neg hnull]
      refine ⟨?_, P.markSealed _ hu⟩
      cases n.json with
      | ok json => exact .ok ⟨.ok rfl, rfl, rfl⟩
      | error p => exact .error (h.invalidValueAt key _)
  · rw [run_value_neither ho, run_value_neither ho']
    exact ⟨.ok habsent, h.marked hkey P.markRead hu⟩

/-- Passing keys over, which are known names unless all keys count. -/
theorem ignore (h : P.Pair r m m') (keys : List String)
    (hkeys : keys.all (fun key => !Usage.isExtension key || r.isListed) = true) :
    P.Reads Eq (m.ignore keys) (m'.ignore keys) := by
  have hmarks : ∀ {u u' : Usage}, P.marks u u' → P.marks (m.passedOver keys u) (m'.passedOver keys u') := by
    induction keys with
    | nil => exact fun hu => hu
    | cons key keys ih =>
      intro u u' hu
      rw [List.all_cons, Bool.and_eq_true, Bool.or_eq_true, Bool.not_eq_true'] at hkeys
      exact ih hkeys.2 (h.marked hkeys.1.symm P.markSealed hu)
  exact fun u u' hu => ⟨.ok rfl, hmarks hu⟩

/-- Passing all components over but one. -/
theorem ignoreOthers (h : P.Pair .components m m') :
    P.Reads Eq (m.ignore (m.keys.filter fun k => k != key)) (m'.ignore (m'.keys.filter fun k => k != key)) :=
  fun _ _ hu => ⟨.ok rfl, P.others key h.node h.path hu⟩

/-- Entries with the same key and values that belong together. -/
def SameEntry (P : Pairing) (r : Role) (e e' : String × Mapping) : Prop := e.1 = e'.1 ∧ P.Pair r e.2 e'.2

theorem keys (h : P.Pair r m m') (hlisted : r.isListed = true) : m'.keys = m.keys := P.listed h.node hlisted

theorem mappingEntries {values : Role} (h : P.Pair (.table values) m m') :
    P.Reads (List.Forall₂ (SameEntry P values)) m.mappingEntries m'.mappingEntries := by
  unfold Mapping.mappingEntries
  rw [h.keys rfl]
  refine Mirrors.mapM (Q := Eq) ?_ (List.forall₂_refl _)
  rintro key _ rfl
  refine (h.mapping (.inl rfl)).bind fun found found' hfound => ?_
  exact (Mirrors.ofExcept hfound.required).bind fun c c' hc => .pure ⟨rfl, hc⟩

end Pair

/-- A lookup of a value that must be there, and what is done with the value. -/
theorem Reads.bind_required {R : α → β → Prop} {S : γ → δ → Prop} {x : Reading (Lookup α)}
    {x' : Reading (Lookup β)} {g : α → Building γ} {g' : β → Building δ} (h : P.Reads (Lookup.Pair P.errors R) x x')
    (hg : ∀ a b, R a b → P.Matches S (g a) (g' b)) :
    P.Matches S (liftM x >>= fun l => liftM l.required >>= g) (liftM x' >>= fun l => liftM l.required >>= g') :=
  h.lift.bind fun _ _ hl => (Mirrors.ofExcept hl.required).bind hg

end Pairing

end OpenApi
