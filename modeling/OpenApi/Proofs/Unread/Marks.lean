/-
  OpenApi.Proofs.Unread.Marks — the marks that questions leave.

  A question looks keys up in one mapping, and may take some of them as a whole. The keys are listed for each
  question from what was found before (`Places.lookedUp`, `Places.takenWhole`), so the list for all questions says
  what was asked without the marks. A mapping that was found stands where its path leads in the document
  (`Mapping.Placed`), which is why the marks on the tree are those on the list (`Places.Recorded.askAll`).
-/
import OpenApi.Proofs.Build.Found
import OpenApi.Proofs.Formats.Queries
import OpenApi.Proofs.Unread.KeyPaths

namespace OpenApi

variable {α β : Type}

/-! ## §1. What was asked for. -/

/-- The keys that are looked up to read all values as mappings: the first value that is none ends the reading. -/
def Mapping.tried (m : Mapping) : List String → List String
  | [] => []
  | key :: rest => if m.kindOf key = some .mapping then key :: m.tried rest else [key]

namespace Places

/-- The paths of keys of the mapping at a place. -/
def paths (p : Places) (place : Nat) (keys : Mapping → List String) : List Path :=
  match p.mappings[place]? with
  | some m => (keys m).map m.child
  | Option.none => []

theorem paths_nil (p : Places) (place : Nat) : (p.paths place fun _ => []) = [] := by
  unfold paths
  cases p.mappings[place]? with
  | some m => rfl
  | none => rfl

/-- The paths of the keys that a question looks up. -/
def lookedUp (p : Places) : Query → List Path
  | .string place key => p.paths place fun _ => [key]
  | .boolean place key => p.paths place fun _ => [key]
  | .number place key => p.paths place fun _ => [key]
  | @Query.oneOf _ _ place key => p.paths place fun _ => [key]
  | .value place key => p.paths place fun _ => [key]
  | .mapping place key => p.paths place fun _ => [key]
  | .sequence place key => p.paths place fun _ => [key]
  | .mappingEntries place => p.paths place fun m => m.tried m.keys
  | .ignore place keys => p.paths place fun _ => keys
  -- what is there, and what the items of a sequence are, is seen without looking a key up
  | .kindOf _ _ | .containsKey _ _ | .keys _ | .mappings _ | .texts _ => []

/-- The paths of the keys that a question takes with all that is below them. -/
def takenWhole (p : Places) : Query → List Path
  | .value place key => p.paths place fun _ => [key]
  | .ignore place keys => p.paths place fun _ => keys
  | _ => []

/-- What is listed for each of some questions, asked in order. -/
def listed (list : Places → Query → List Path) : List Query → Places → Usage → List Path
  | [], _, _ => []
  | q :: rest, p, u => list p q ++ listed list rest (p.ask u q).places (p.ask u q).usage

end Places

namespace Document

/-- Whoever reads a document starts with its root, if that is a mapping. -/
def start (d : Document) : Places := ⟨d.mapping.toOption.toList, []⟩

/-- The marks after questions about a document. -/
def marksAfter (d : Document) (queries : List Query) : Usage := (Places.askAll queries d.start .none).2

/-- The paths of the keys that the questions looked up. -/
def lookedUp (d : Document) (queries : List Query) : List Path :=
  Places.listed Places.lookedUp queries d.start .none

/-- The paths of the keys that the questions took as a whole. -/
def takenWhole (d : Document) (queries : List Query) : List Path :=
  Places.listed Places.takenWhole queries d.start .none

end Document

/-! ## §2. The marks of one reading. -/

namespace Reading

theorem run_bind_ok {x : Reading α} {u : Usage} {a : α} (h : (x.run.run u).1 = .ok a) (f : α → Reading β) :
    (x >>= f).run.run u = (f a).run.run (x.run.run u).2 := by
  show (ExceptT.bindCont f (x.run.run u).1).run (x.run.run u).2 = _
  rw [h]
  rfl

theorem run_bind_error {x : Reading α} {u : Usage} {e : Error} (h : (x.run.run u).1 = .error e) (f : α → Reading β) :
    (x >>= f).run.run u = (.error e, (x.run.run u).2) := by
  show (ExceptT.bindCont f (x.run.run u).1).run (x.run.run u).2 = _
  rw [h]
  rfl

end Reading

/-- The reading leaves marks on those of the keys that are in the mapping: all of them are marked as read, and
some of them as a whole. -/
structure Mapping.Marks (m : Mapping) (r : Reading α) (keys whole : List String) : Prop where
  read : ∀ u path, path ∈ (r.run.run u).2.read ↔
    path ∈ u.read ∨ ∃ key ∈ keys, m.containsKey key = true ∧ path = m.child key
  sealed : ∀ u path, path ∈ (r.run.run u).2.sealed ↔
    path ∈ u.sealed ∨ ∃ key ∈ whole, m.containsKey key = true ∧ path = m.child key

namespace Mapping.Marks

variable {m : Mapping} {key : String}

/-- What leaves the marks as they are. -/
theorem silent {r : Reading α} (h : ∀ u, (r.run.run u).2 = u) : m.Marks r [] [] where
  read u path := by simp [h]
  sealed u path := by simp [h]

theorem lookup (m : Mapping) (key : String) (read : Node → Except Error α) : m.Marks (m.lookup key read) [key] [] where
  read u path := by
    rw [run_lookup]
    by_cases hkey : m.containsKey key = true
    · simp [hkey, Usage.markRead, or_comm]
    · simp [hkey]
  sealed u path := by
    rw [run_lookup]
    by_cases hkey : m.containsKey key = true
    · simp [hkey, Usage.markRead]
    · simp [hkey]

/-- A value is taken as a whole, unless it is null. -/
theorem value (m : Mapping) (key : String) :
    m.Marks (m.value key) [key] (if m.kindOf key = some .null then [] else [key]) where
  read u path := by
    rw [run_value]
    unfold Mapping.containsKey
    cases hget : m.node.get? key with
    | none => simp [hget]
    | some n =>
      -- a null is marked as read; any other value is sealed, which reads it too
      by_cases hnull : n.kind = .null
      · simp [hget, hnull, Usage.markRead, or_comm]
      · simp [hget, hnull, Usage.markSealed, or_comm]
  sealed u path := by
    rw [run_value]
    unfold Mapping.containsKey Mapping.kindOf
    cases hget : m.node.get? key with
    | none => simp [hget]
    | some n =>
      by_cases hnull : n.kind = .null
      · simp [hnull, Usage.markRead]
      · simp [hget, hnull, Usage.markSealed, or_comm]

theorem ignore (m : Mapping) (keys : List String) : m.Marks (m.ignore keys) keys keys := by
  have hpassed : ∀ u path,
      (path ∈ (m.passedOver keys u).read ↔
        path ∈ u.read ∨ ∃ key ∈ keys, m.containsKey key = true ∧ path = m.child key) ∧
      (path ∈ (m.passedOver keys u).sealed ↔
        path ∈ u.sealed ∨ ∃ key ∈ keys, m.containsKey key = true ∧ path = m.child key) := by
    induction keys with
    | nil => simp [Mapping.passedOver]
    | cons key keys ih =>
      intro u path
      -- the first key is passed over, and then the others are
      obtain ⟨hread, hsealed⟩ := ih (if m.containsKey key then u.markSealed (m.child key) else u) path
      show (path ∈ (m.passedOver keys _).read ↔ _) ∧ (path ∈ (m.passedOver keys _).sealed ↔ _)
      rw [hread, hsealed]
      by_cases hkey : m.containsKey key = true
      · simp [hkey, Usage.markSealed, or_assoc, or_left_comm]
      · simp [hkey]
  exact ⟨fun u path => (hpassed u path).1, fun u path => (hpassed u path).2⟩

variable {x : Reading α} {f : α → Reading β} {keys keys' whole whole' : List String}

/-- A reading that goes on with the result of another one. -/
theorem bind_ok (hx : m.Marks x keys whole) {a : α} (ha : ∀ u, (x.run.run u).1 = .ok a)
    (hf : m.Marks (f a) keys' whole') : m.Marks (x >>= f) (keys ++ keys') (whole ++ whole') where
  read u path := by
    rw [Reading.run_bind_ok (ha u), hf.read, hx.read, or_assoc]
    simp [or_and_right, exists_or]
  sealed u path := by
    rw [Reading.run_bind_ok (ha u), hf.sealed, hx.sealed, or_assoc]
    simp [or_and_right, exists_or]

/-- A reading that ends with the error of another one. -/
theorem bind_error (hx : m.Marks x keys whole) {e : Error} (he : ∀ u, (x.run.run u).1 = .error e) :
    m.Marks (x >>= f) keys whole where
  read u path := by rw [Reading.run_bind_error (he u), hx.read]
  sealed u path := by rw [Reading.run_bind_error (he u), hx.sealed]

/-- A reading whose result goes on to one that marks nothing. -/
theorem bind_silent (hx : m.Marks x keys whole) (hf : ∀ a u, ((f a).run.run u).2 = u) :
    m.Marks (x >>= f) keys whole := by
  have hrun : ∀ u, ((x >>= f).run.run u).2 = (x.run.run u).2 := by
    intro u
    cases hresult : (x.run.run u).1 with
    | ok a => rw [Reading.run_bind_ok hresult, hf]
    | error e => rw [Reading.run_bind_error hresult]
  constructor
  · intro u path
    rw [hrun, hx.read]
  · intro u path
    rw [hrun, hx.sealed]

/-! ## §3. Trying the values of a mapping. -/

/-- The entry of a key whose value should be a mapping. -/
def entryAt (m : Mapping) (key : String) : Reading (String × Mapping) := do
  let found ← m.mapping key
  let c ← ExceptT.mk (Pure.pure found.required)
  return (key, c)

theorem entryAt_marks (m : Mapping) (key : String) : m.Marks (entryAt m key) [key] [] := by
  apply (lookup m key _).bind_silent
  intro found u
  cases found.required with
  | ok c => rfl
  | error e => rfl

theorem entryAt_eq_ok {e : String × Mapping} (h : m.Holds key e) (u : Usage) :
    ((entryAt m key).run.run u).1 = .ok e := by
  obtain ⟨name, c⟩ := e
  obtain rfl : name = key := h.name
  obtain ⟨found, hfound, hrequired⟩ := holds_iff.1 h
  have hlook : ((m.mapping name).run.run u).1 = .ok found := (congrArg Prod.fst (run_lookup m name _ u)).trans hfound
  unfold entryAt
  rw [Reading.run_bind_ok hlook, hrequired]
  rfl

theorem entryAt_eq_error (h : m.kindOf key ≠ some .mapping) : ∃ e, ∀ u, ((entryAt m key).run.run u).1 = .error e := by
  have hlook : ∀ u, ((m.mapping key).run.run u).1 = m.look key fun n => ofNode m.document n (m.child key) :=
    fun u => congrArg Prod.fst (run_lookup m key _ u)
  cases hfound : m.look key fun n => ofNode m.document n (m.child key) with
  | error e =>
    refine ⟨e, fun u => ?_⟩
    unfold entryAt
    rw [Reading.run_bind_error ((hlook u).trans hfound)]
  | ok found =>
    cases hrequired : found.required with
    | error e =>
      refine ⟨e, fun u => ?_⟩
      unfold entryAt
      rw [Reading.run_bind_ok ((hlook u).trans hfound), hrequired]
      rfl
    | ok c =>
      have hholds := holds_iff.2 ⟨found, hfound, hrequired⟩
      refine absurd ?_ h
      rw [Mapping.kindOf, hholds.found, Option.map_some, hholds.kind]

/-- The values are tried one after the other; the first that is no mapping ends the reading. -/
theorem mappingEntries (m : Mapping) : m.Marks m.mappingEntries (m.tried m.keys) [] := by
  show m.Marks (m.keys.mapM (entryAt m)) _ _
  generalize m.keys = keys
  induction keys with
  | nil => exact silent fun _ => rfl
  | cons key keys ih =>
    rw [List.mapM_cons, Mapping.tried]
    by_cases hkind : m.kindOf key = some .mapping
    · -- the entry is read whatever was marked before, and the reading goes on
      rw [if_pos hkind]
      obtain ⟨n, hn, hmapping⟩ := Option.map_eq_some_iff.1 hkind
      have hholds : m.Holds key (key, ⟨m.document, n, m.child key⟩) := ⟨rfl, rfl, rfl, hmapping, hn⟩
      exact (entryAt_marks m key).bind_ok (entryAt_eq_ok hholds) (ih.bind_silent fun _ _ => rfl)
    · rw [if_neg hkind]
      obtain ⟨e, he⟩ := entryAt_eq_error hkind
      exact (entryAt_marks m key).bind_error he

end Mapping.Marks

/-! ## §4. Where mappings and sequences stand. -/

variable {d : Document}

/-- The mapping stands in the document, where its path leads. -/
structure Mapping.Placed (d : Document) (m : Mapping) : Prop where
  kind : m.node.kind = .mapping
  node : d.root.at? m.path = some m.node

/-- The sequence stands in the document, where its path leads. -/
structure Sequence.Placed (d : Document) (s : Sequence) : Prop where
  kind : s.node.kind = .sequence
  node : d.root.at? s.path = some s.node

theorem Mapping.placed_of_ofNode {d' : Document} {n : Node} {path : Path} {m : Mapping}
    (hread : Mapping.ofNode d' n path = .ok m) (hn : d.root.at? path = some n) : m.Placed d := by
  obtain ⟨hkind, rfl⟩ := Mapping.ofNode_eq_ok.1 hread
  exact ⟨hkind, hn⟩

theorem Sequence.placed_of_ofNode {d' : Document} {n : Node} {path : Path} {s : Sequence}
    (hread : Sequence.ofNode d' n path = .ok s) (hn : d.root.at? path = some n) : s.Placed d := by
  obtain ⟨hkind, rfl⟩ := Sequence.ofNode_eq_ok.1 hread
  exact ⟨hkind, hn⟩

namespace Mapping.Placed

variable {m : Mapping} {key : String}

/-- A key leads to its value. -/
theorem at?_child (h : m.Placed d) (key : String) : d.root.at? (m.child key) = m.node.get? key := by
  rw [Mapping.child, Node.at?_append, h.node, Option.bind_some, Node.at?_cons, Node.child?_mapping h.kind]
  exact Option.bind_fun_some _

/-- What a lookup finds, if it is made from the value under the key and its path, is placed if that is. -/
theorem of_lookup (h : m.Placed d) {read : Node → Except Error α} {P : α → Prop}
    (hread : ∀ n a, d.root.at? (m.child key) = some n → read n = .ok a → P a) {u : Usage} {l : Lookup α}
    (hl : ((m.lookup key read).run.run u).1 = .ok l) : ∀ a ∈ l.optional.toList, P a := by
  rw [run_lookup] at hl
  rcases look_eq_ok.1 hl with ⟨-, rfl⟩ | ⟨n, a, hget, -, hok, rfl⟩
  · exact fun a ha => absurd ha List.not_mem_nil
  · intro b hb
    rw [List.mem_singleton.1 hb]
    exact hread n a ((h.at?_child key).trans hget) hok

theorem mappingEntries (h : m.Placed d) {u : Usage} {entries : List (String × Mapping)}
    (hok : (m.mappingEntries.run.run u).1 = .ok entries) : ∀ e ∈ entries, e.2.Placed d := by
  have hrun : (liftM m.mappingEntries : Building _).run.run ⟨u, .empty "", []⟩ =
      (.ok entries, ⟨(m.mappingEntries.run.run u).2, .empty "", []⟩) := congrArg (·, _) hok
  have hholds := (Building.run_mappingEntries.1 hrun).1
  intro e he
  obtain ⟨key, -, hkey⟩ := Outcome.exists_left hholds he
  exact ⟨hkey.kind, by rw [hkey.path, h.at?_child, hkey.found]⟩

end Mapping.Placed

/-- An item of a sequence has its index as the last segment. -/
theorem Sequence.mem_itemsFrom {path : Path} {items : List Node} {index : Nat} {item : Path × Node}
    (h : item ∈ itemsFrom path index items) :
    ∃ s, item.1 = path ++ [s] ∧ Node.itemAt? s index items = some item.2 := by
  have hindex : ∃ i, items[i]? = some item.2 ∧ item.1 = path ++ [toString (index + i)] := by
    induction items generalizing index with
    | nil => exact absurd h List.not_mem_nil
    | cons n rest ih =>
      rcases List.mem_cons.1 h with rfl | h
      · exact ⟨0, rfl, rfl⟩
      · obtain ⟨i, hi, hpath⟩ := ih h
        exact ⟨i + 1, hi, by rw [hpath, Nat.add_right_comm, Nat.add_assoc]⟩
  obtain ⟨i, hi, hpath⟩ := hindex
  exact ⟨_, hpath, Node.itemAt?_eq_some.2 ⟨i, rfl, hi⟩⟩

theorem Sequence.Placed.mappings {s : Sequence} (h : s.Placed d) {ms : List Mapping} (hok : s.mappings = .ok ms) :
    ∀ m ∈ ms, m.Placed d := by
  intro m hm
  obtain ⟨item, hitem, hread⟩ := Outcome.exists_left (Outcome.mapM_eq_ok.1 hok) hm
  obtain ⟨segment, hpath, hitem⟩ := Sequence.mem_itemsFrom hitem
  refine Mapping.placed_of_ofNode hread ?_
  rw [hpath, Node.at?_append, h.node, Option.bind_some, Node.at?_cons, Node.child?_sequence h.kind, hitem]
  rfl

/-! ## §5. The marks after questions. -/

/-- What was found is placed, and of the nodes in the tree those are marked that were looked up, and those as a
whole that were taken so. Null has nothing below it, so it does not matter whether a null is taken as a whole. -/
structure Places.Recorded (d : Document) (p : Places) (u : Usage) (looked whole : List Path) : Prop where
  mappings : ∀ m ∈ p.mappings, m.Placed d
  sequences : ∀ s ∈ p.sequences, s.Placed d
  read : ∀ path n, d.root.at? path = some n → (path ∈ u.read ↔ path ∈ looked)
  sealed : ∀ path n, d.root.at? path = some n → n.kind ≠ .null → (path ∈ u.sealed ↔ path ∈ whole)
  keys : ∀ path ∈ u.sealed, path ∈ d.root.keyPaths

/-- What is recorded holds after a reply. -/
def Reply.Records (d : Document) (x : Reply) (looked whole : List Path) : Prop :=
  x.places.Recorded d x.usage looked whole

namespace Places.Recorded

variable {p : Places} {u : Usage} {looked whole : List Path} {place : Nat}

/-- Nothing was asked yet. -/
theorem start (d : Document) : d.start.Recorded d .none [] [] where
  mappings m hm := by
    have hroot : d.mapping = .ok m := by
      unfold Document.start at hm
      cases hmapping : d.mapping with
      | error e =>
        rw [hmapping] at hm
        exact absurd hm List.not_mem_nil
      | ok root =>
        rw [hmapping] at hm
        rw [List.mem_singleton.1 hm]
    exact Mapping.placed_of_ofNode hroot rfl
  sequences s hs := absurd hs List.not_mem_nil
  read path n hn := .rfl
  sealed path n hn hnull := .rfl
  keys path hpath := absurd hpath List.not_mem_nil

/-- A reading of a mapping records the keys that it looks up, and those that it takes as a whole. -/
theorem after (hd : d.root.keysDistinct = true) (h : p.Recorded d u looked whole) {m : Mapping} (hm : m.Placed d)
    {r : Reading α} {keys marked taken : List String} (hmarks : m.Marks r keys marked)
    (htaken : ∀ key, m.kindOf key ≠ some .null → (key ∈ marked ↔ key ∈ taken)) :
    p.Recorded d (r.run.run u).2 (looked ++ keys.map m.child) (whole ++ taken.map m.child) where
  mappings := h.mappings
  sequences := h.sequences
  read path n hn := by
    rw [hmarks.read, h.read path n hn, List.mem_append, List.mem_map]
    refine or_congr_right (exists_congr fun key => and_congr_right fun _ => ?_)
    constructor
    · rintro ⟨-, hpath⟩
      exact hpath.symm
    · rintro rfl
      -- the path leads to a node, so the key is there
      rw [hm.at?_child] at hn
      exact ⟨by rw [Mapping.containsKey, hn]; rfl, rfl⟩
  sealed path n hn hnull := by
    rw [hmarks.sealed, h.sealed path n hn hnull, List.mem_append, List.mem_map]
    refine or_congr_right (exists_congr fun key => ?_)
    -- where the path leads to something that is not null, marked and taken keys are the same
    have hkind : path = m.child key → m.kindOf key ≠ some .null := by
      rintro rfl
      rw [Mapping.kindOf, ← hm.at?_child, hn]
      exact fun hnone => hnull (Option.some.inj hnone)
    constructor
    · rintro ⟨hkey, -, hpath⟩
      exact ⟨(htaken key (hkind hpath)).1 hkey, hpath.symm⟩
    · rintro ⟨hkey, rfl⟩
      rw [hm.at?_child] at hn
      exact ⟨(htaken key (hkind rfl)).2 hkey, by rw [Mapping.containsKey, hn]; rfl, rfl⟩
  keys path hpath := by
    rcases (hmarks.sealed u path).1 hpath with hpath | ⟨key, -, hkey, rfl⟩
    · exact h.keys path hpath
    · exact Node.mem_keyPaths_at? hd hm.node (Node.mem_keys.2 hkey)

/-- What a step found is placed, and its marks are recorded. -/
theorem step {r : Reading α} (h : p.Recorded d (r.run.run u).2 looked whole) {view : α → β} {found : α → Places}
    (hfound : ∀ a, (r.run.run u).1 = .ok a →
      (∀ m ∈ (found a).mappings, m.Placed d) ∧ ∀ s ∈ (found a).sequences, s.Placed d) :
    (p.step u r view found).Records d looked whole := by
  unfold Reply.Records Places.step
  generalize r.run.run u = after at h hfound
  obtain ⟨result, v⟩ := after
  cases result with
  | error e => exact h
  | ok a =>
    obtain ⟨hmappings, hsequences⟩ := hfound a rfl
    refine ⟨fun m hm => ?_, fun s hs => ?_, h.read, h.sealed, h.keys⟩
    · exact (List.mem_append.1 hm).elim (h.mappings m) (hmappings m)
    · exact (List.mem_append.1 hs).elim (h.sequences s) (hsequences s)

theorem look {r : Reading α} (h : p.Recorded d (r.run.run u).2 looked whole) {view : α → β} :
    (p.look u r view).Records d looked whole :=
  h.step fun _ _ =>
    ⟨fun _ hnone => absurd hnone List.not_mem_nil, fun _ hnone => absurd hnone List.not_mem_nil⟩

theorem atMapping (h : p.Recorded d u looked whole) {f : Mapping → Reply} {keys taken : Mapping → List String}
    (hf : ∀ m, m.Placed d → (f m).Records d (looked ++ (keys m).map m.child) (whole ++ (taken m).map m.child)) :
    (p.atMapping u place f).Records d (looked ++ p.paths place keys) (whole ++ p.paths place taken) := by
  unfold Places.atMapping Places.paths
  cases hplace : p.mappings[place]? with
  | some m => exact hf m (h.mappings m (List.mem_of_getElem? hplace))
  | none =>
    dsimp only
    rw [List.append_nil, List.append_nil]
    exact h

/-- A question that takes nothing as a whole. -/
theorem asks (h : p.Recorded d u looked whole) {f : Mapping → Reply} {keys : Mapping → List String}
    (hf : ∀ m, m.Placed d → (f m).Records d (looked ++ (keys m).map m.child) (whole ++ [])) :
    (p.atMapping u place f).Records d (looked ++ p.paths place keys) (whole ++ []) := by
  have hasks : (p.atMapping u place f).Records d (looked ++ p.paths place keys) (whole ++ p.paths place fun _ => []) :=
    h.atMapping hf
  rwa [paths_nil] at hasks

/-- A question that looks nothing up. -/
theorem sees (h : p.Recorded d u looked whole) {f : Mapping → Reply}
    (hf : ∀ m, m.Placed d → (f m).Records d (looked ++ []) (whole ++ [])) :
    (p.atMapping u place f).Records d (looked ++ []) (whole ++ []) := by
  have hsees : (p.atMapping u place f).Records d (looked ++ p.paths place fun _ => []) (whole ++ []) := h.asks hf
  rwa [paths_nil] at hsees

theorem atSequence (h : p.Recorded d u looked whole) {f : Sequence → Reply}
    (hf : ∀ s, s.Placed d → (f s).Records d looked whole) : (p.atSequence u place f).Records d looked whole := by
  unfold Places.atSequence
  cases hplace : p.sequences[place]? with
  | some s => exact hf s (h.sequences s (List.mem_of_getElem? hplace))
  | none => exact h

/-- **A question** records the keys that it looks up, and those that it takes as a whole. -/
theorem ask (hd : d.root.keysDistinct = true) (h : p.Recorded d u looked whole) (q : Query) :
    (p.ask u q).Records d (looked ++ p.lookedUp q) (whole ++ p.takenWhole q) := by
  have hlookup : ∀ {α : Type} {m : Mapping} {key : String} {read : Node → Except Error α}, m.Placed d →
      p.Recorded d ((m.lookup key read).run.run u).2 (looked ++ [m.child key]) (whole ++ []) := fun hm =>
    h.after hd hm (.lookup _ _ _) fun _ _ => .rfl
  cases q with
  | kindOf place key => exact h.sees fun m hm => (h.after hd hm (.silent fun _ => rfl) fun _ _ => .rfl).look
  | containsKey place key => exact h.sees fun m hm => (h.after hd hm (.silent fun _ => rfl) fun _ _ => .rfl).look
  | keys place => exact h.sees fun m hm => (h.after hd hm (.silent fun _ => rfl) fun _ _ => .rfl).look
  | string place key => exact h.asks fun m hm => (hlookup hm).look
  | boolean place key => exact h.asks fun m hm => (hlookup hm).look
  | number place key => exact h.asks fun m hm => (hlookup hm).look
  | oneOf α place key => exact h.asks fun m hm => (hlookup hm).look
  | value place key =>
    -- a null is not sealed, but the record only speaks of what is not null
    refine h.atMapping fun m hm => (h.after hd hm (.value m key) fun k hk => ?_).look
    split
    next hnull =>
      refine iff_of_false List.not_mem_nil fun hkey => hk ?_
      rwa [List.mem_singleton.1 hkey]
    next => exact .rfl
  | mapping place key =>
    -- what is found is placed in the document, and so are the questions about it
    refine h.asks fun m hm => (hlookup hm).step fun l hl => ⟨?_, fun _ hnone => absurd hnone List.not_mem_nil⟩
    exact hm.of_lookup (fun n c hn hread => Mapping.placed_of_ofNode hread hn) hl
  | sequence place key =>
    refine h.asks fun m hm => (hlookup hm).step fun l hl => ⟨fun _ hnone => absurd hnone List.not_mem_nil, ?_⟩
    exact hm.of_lookup (fun n s hn hread => Sequence.placed_of_ofNode hread hn) hl
  | mappingEntries place =>
    refine h.asks fun m hm => (h.after hd hm (.mappingEntries m) fun _ _ => .rfl).step fun entries hentries =>
      ⟨fun c hc => ?_, fun _ hnone => absurd hnone List.not_mem_nil⟩
    obtain ⟨e, he, rfl⟩ := List.mem_map.1 hc
    exact hm.mappingEntries hentries e he
  | ignore place keys => exact h.atMapping fun m hm => (h.after hd hm (.ignore m keys) fun _ _ => .rfl).look
  | mappings place =>
    show Reply.Records d _ (looked ++ []) (whole ++ [])
    rw [List.append_nil, List.append_nil]
    refine h.atSequence fun s hs => step (r := liftM s.mappings) h fun ms hms =>
      ⟨hs.mappings hms, fun _ hnone => absurd hnone List.not_mem_nil⟩
  | texts place =>
    show Reply.Records d _ (looked ++ []) (whole ++ [])
    rw [List.append_nil, List.append_nil]
    exact h.atSequence fun s hs => look (r := liftM s.texts) h

/-- **Questions in order** record the keys that each of them looks up, and those that each takes as a whole. -/
theorem askAll (hd : d.root.keysDistinct = true) (queries : List Query) :
    ∀ {p : Places} {u : Usage} {looked whole : List Path}, p.Recorded d u looked whole →
      ∃ q : Places, q.Recorded d (Places.askAll queries p u).2
        (looked ++ Places.listed Places.lookedUp queries p u)
        (whole ++ Places.listed Places.takenWhole queries p u) := by
  induction queries with
  | nil =>
    intro p u looked whole h
    refine ⟨p, ?_⟩
    show p.Recorded d u (looked ++ []) (whole ++ [])
    rwa [List.append_nil, List.append_nil]
  | cons q rest ih =>
    intro p u looked whole h
    -- the rest is asked from the places and the marks that the first question leaves
    obtain ⟨last, hlast⟩ := ih (h.ask hd q)
    rw [List.append_assoc, List.append_assoc] at hlast
    exact ⟨last, hlast⟩

end Places.Recorded

end OpenApi
