/-
  OpenApi.Proofs.Formats.Queries — asking a document one question after another.

  Whoever reads a document asks about the mappings and sequences that were found so far, the first of which is the
  root. A question about a place gives an answer, may find further places, and leaves its marks; after a failure
  the next question is asked all the same. An interview asks a list of questions and then lists the keys that were
  never read. Documents that are twins cannot be told apart by an interview (`Document.Twin.interview`).
-/
import OpenApi.Proofs.Formats.Twins

namespace OpenApi

variable {α β γ : Type}

/-! ## §1. Questions and answers. -/

/-- A question about a mapping or a sequence, which is named by the number of those that were found before it. -/
inductive Query : Type 1
  | kindOf (place : Nat) (key : String)
  | containsKey (place : Nat) (key : String)
  | keys (place : Nat)
  | string (place : Nat) (key : String)
  | boolean (place : Nat) (key : String)
  | number (place : Nat) (key : String)
  | oneOf (α : Type) [Spelled α] (place : Nat) (key : String)
  | value (place : Nat) (key : String)
  | mapping (place : Nat) (key : String)
  | sequence (place : Nat) (key : String)
  | mappingEntries (place : Nat)
  | ignore (place : Nat) (keys : List String)
  /-- The items of a sequence as mappings. -/
  | mappings (place : Nat)
  /-- The items of a sequence as texts. -/
  | texts (place : Nat)

/-- What can be seen of a step: its result, or its error without lines. -/
inductive Answer : Type 1
  | told {α : Type} (result : Except Cause α)
  /-- There is no such place. -/
  | nowhere

/-- The mappings and sequences that were found so far. -/
structure Places where
  mappings : List Mapping
  sequences : List Sequence

/-- The places of the first and those of the second. -/
def Places.and (p q : Places) : Places := ⟨p.mappings ++ q.mappings, p.sequences ++ q.sequences⟩

/-- No place. -/
def Places.none : Places := ⟨[], []⟩

/-- What can be seen of a result: it itself, or the error without lines. -/
def seen (r : Except Error α) : Except Cause α := r.mapError fun e => e.cause.unlined

/-- What can be seen of a lookup: what it found, and what comes of asking for the value. -/
def Lookup.seen (l : Lookup α) : Outcome α × Except Cause α := (l.outcome, OpenApi.seen l.required)

/-! ## §2. Interviews. -/

/-- What a question leads to: an answer, the places found so far and the marks so far. -/
structure Reply : Type 1 where
  answer : Answer
  places : Places
  usage : Usage

namespace Places

/-- Takes a step: its answer shows `view` of the result, and `found` are the places that it found. -/
def step (p : Places) (u : Usage) (r : Reading α) (view : α → β) (found : α → Places) : Reply :=
  let (result, after) := r.run.run u
  match result with
  | .ok a => ⟨.told (seen (.ok (view a))), p.and (found a), after⟩
  | .error e => ⟨.told (α := β) (seen (.error e)), p, after⟩

/-- A step that finds no place. -/
def look (p : Places) (u : Usage) (r : Reading α) (view : α → β) : Reply := p.step u r view fun _ => .none

/-- A step at a mapping that was found before. -/
def atMapping (p : Places) (u : Usage) (place : Nat) (f : Mapping → Reply) : Reply :=
  match p.mappings[place]? with
  | some m => f m
  | Option.none => ⟨.nowhere, p, u⟩

/-- A step at a sequence that was found before. -/
def atSequence (p : Places) (u : Usage) (place : Nat) (f : Sequence → Reply) : Reply :=
  match p.sequences[place]? with
  | some s => f s
  | Option.none => ⟨.nowhere, p, u⟩

/-- Asks one question. -/
def ask (p : Places) (u : Usage) : Query → Reply
  | .kindOf place key => p.atMapping u place fun m => p.look u (pure (m.kindOf key)) id
  | .containsKey place key => p.atMapping u place fun m => p.look u (pure (m.containsKey key)) id
  | .keys place => p.atMapping u place fun m => p.look u (pure m.keys) id
  | .string place key => p.atMapping u place fun m => p.look u (m.string key) Lookup.seen
  | .boolean place key => p.atMapping u place fun m => p.look u (m.boolean key) Lookup.seen
  | .number place key => p.atMapping u place fun m => p.look u (m.number key) Lookup.seen
  | @Query.oneOf α _ place key => p.atMapping u place fun m => p.look u (m.oneOf α key) Lookup.seen
  | .value place key => p.atMapping u place fun m => p.look u (m.value key) Lookup.seen
  | .mapping place key => p.atMapping u place fun m =>
    p.step u (m.mapping key) (fun l => (l.map Mapping.path).seen) fun l => ⟨l.optional.toList, []⟩
  | .sequence place key => p.atMapping u place fun m =>
    p.step u (m.sequence key) (fun l => (l.map fun s => (s.path, s.length)).seen) fun l => ⟨[], l.optional.toList⟩
  | .mappingEntries place => p.atMapping u place fun m =>
    p.step u m.mappingEntries (List.map fun e => (e.1, e.2.path)) fun entries => ⟨entries.map Prod.snd, []⟩
  | .ignore place keys => p.atMapping u place fun m => p.look u (m.ignore keys) id
  | .mappings place => p.atSequence u place fun s =>
    p.step u (liftM s.mappings) (List.map Mapping.path) fun ms => ⟨ms, []⟩
  | .texts place => p.atSequence u place fun s => p.look u (liftM s.texts) id

/-- Asks questions in order, and gives the answers and the marks in the end. -/
def askAll : List Query → Places → Usage → List Answer × Usage
  | [], _, u => ([], u)
  | q :: rest, p, u =>
    let reply := p.ask u q
    let (answers, u) := askAll rest reply.places reply.usage
    (reply.answer :: answers, u)

end Places

/-- Asks questions about a document, starting from its root, and then lists the keys that were never read. -/
def Document.interview (d : Document) (queries : List Query) : Except Cause (List Answer) × List Path :=
  match d.mapping with
  | .error e => (.error e.cause.unlined, Usage.none.unused d.root)
  | .ok root =>
    let (answers, u) := Places.askAll queries ⟨[root], []⟩ .none
    (.ok answers, u.unused d.root)

/-! ## §3. Replies about twins. -/

/-- The places of twins, in the same order. -/
structure Places.Twin (p p' : Places) : Prop where
  mappings : List.Forall₂ Mapping.Twin p.mappings p'.mappings
  sequences : List.Forall₂ Sequence.Twin p.sequences p'.sequences

/-- The same answer, twins and the same marks. -/
structure Reply.Twin (x x' : Reply) : Prop where
  answer : x'.answer = x.answer
  places : x.places.Twin x'.places
  usage : x'.usage = x.usage

/-- What can be seen of results that are equal or errors that are alike is the same. -/
theorem Both.seen {r r' : Except Error α} (h : Both Error.Alike Eq r r') : OpenApi.seen r' = OpenApi.seen r := by
  cases h with
  | ok hab => rw [hab]
  | error he => exact congrArg Except.error he.symm

/-- What can be seen of lookups that found the same is the same. -/
theorem Lookup.Pair.seen {l l' : Lookup α} (h : Lookup.Pair Error.Alike Eq l l') : l'.seen = l.seen := by
  unfold Lookup.seen
  rw [h.outcome, h.required.seen]

namespace Places.Twin

variable {p p' q q' : Places} {u : Usage} {R : α → β → Prop}

theorem none : Places.none.Twin Places.none := ⟨.nil, .nil⟩

theorem and (h : p.Twin p') (h' : q.Twin q') : (p.and q).Twin (p'.and q') :=
  ⟨List.rel_append h.mappings h'.mappings, List.rel_append h.sequences h'.sequences⟩

/-- What a step shows and finds goes by its result. -/
theorem step (h : p.Twin p') {r : Reading α} {r' : Reading β} (hr : Pairing.twins.Reads R r r') {view : α → γ}
    {view' : β → γ} {found : α → Places} {found' : β → Places} (hview : ∀ a b, R a b → view' b = view a)
    (hfound : ∀ a b, R a b → (found a).Twin (found' b)) :
    (p.step u r view found).Twin (p'.step u r' view' found') := by
  obtain ⟨hresult, hstate⟩ := hr u u rfl
  unfold Places.step
  generalize r.run.run u = after at hresult hstate ⊢
  generalize r'.run.run u = after' at hresult hstate ⊢
  obtain ⟨result, v⟩ := after
  obtain ⟨result', v'⟩ := after'
  cases hresult with
  | ok hab =>
    have hanswer := hview _ _ hab
    exact ⟨by dsimp only; rw [hanswer], h.and (hfound _ _ hab), hstate⟩
  | error he =>
    have hanswer : OpenApi.seen (.error _ : Except Error γ) = OpenApi.seen (.error _) := Both.seen (.error he)
    exact ⟨by dsimp only; rw [hanswer], h, hstate⟩

/-- A step whose result shows as a whole. -/
theorem look (h : p.Twin p') {r r' : Reading α} (hr : Pairing.twins.Reads Eq r r') :
    (p.look u r id).Twin (p'.look u r' id) :=
  h.step hr (fun _ _ hab => hab.symm) fun _ _ _ => none

/-- A lookup of a value that is no place. -/
theorem lookup (h : p.Twin p') {r r' : Reading (Lookup α)}
    (hr : Pairing.twins.Reads (Lookup.Pair Error.Alike Eq) r r') :
    (p.look u r Lookup.seen).Twin (p'.look u r' Lookup.seen) :=
  h.step hr (fun _ _ hl => hl.seen) fun _ _ _ => none

/-- What shows of related lists, if as much shows of related elements. -/
theorem map_eq {xs : List α} {ys : List β} (h : List.Forall₂ R xs ys) {f : α → γ} {f' : β → γ}
    (hf : ∀ a b, R a b → f' b = f a) : ys.map f' = xs.map f := by
  induction h with
  | nil => rfl
  | cons hab _ ih => rw [List.map_cons, List.map_cons, hf _ _ hab, ih]

/-- Related lists have related elements at each place. -/
theorem getElem? {xs : List α} {ys : List β} (h : List.Forall₂ R xs ys) :
    ∀ place : Nat, Option.Rel R xs[place]? ys[place]? := by
  induction h with
  | nil => exact fun _ => .none
  | cons hab _ ih =>
    intro place
    cases place with
    | zero => exact .some hab
    | succ place => exact ih place

theorem atMapping (h : p.Twin p') (place : Nat) {f f' : Mapping → Reply}
    (hf : ∀ m m', m.Twin m' → (f m).Twin (f' m')) : (p.atMapping u place f).Twin (p'.atMapping u place f') := by
  unfold Places.atMapping
  have hplace := getElem? h.mappings place
  generalize p.mappings[place]? = found at hplace ⊢
  generalize p'.mappings[place]? = found' at hplace ⊢
  cases hplace with
  | some hm => exact hf _ _ hm
  | none => exact ⟨rfl, h, rfl⟩

theorem atSequence (h : p.Twin p') (place : Nat) {f f' : Sequence → Reply}
    (hf : ∀ s s', s.Twin s' → (f s).Twin (f' s')) : (p.atSequence u place f).Twin (p'.atSequence u place f') := by
  unfold Places.atSequence
  have hplace := getElem? h.sequences place
  generalize p.sequences[place]? = found at hplace ⊢
  generalize p'.sequences[place]? = found' at hplace ⊢
  cases hplace with
  | some hs => exact hf _ _ hs
  | none => exact ⟨rfl, h, rfl⟩

/-- **A question about twins** has one answer, finds twins and leaves the same marks. -/
theorem ask (h : p.Twin p') (q : Query) : (p.ask u q).Twin (p'.ask u q) := by
  have hnode : ∀ {m m' : Mapping}, m.Twin m' → m'.node = m.node := fun hm => hm.node
  cases q with
  | kindOf place key =>
    refine h.atMapping place fun m m' hm => h.look (.pure ?_)
    unfold Mapping.kindOf
    rw [hnode hm]
  | containsKey place key =>
    refine h.atMapping place fun m m' hm => h.look (.pure ?_)
    unfold Mapping.containsKey
    rw [hnode hm]
  | keys place => exact h.atMapping place fun m m' hm => h.look (.pure (hm.keys rfl).symm)
  | string place key => exact h.atMapping place fun m m' hm => h.lookup (hm.string (.inl rfl))
  | boolean place key => exact h.atMapping place fun m m' hm => h.lookup (hm.boolean (.inl rfl))
  | number place key => exact h.atMapping place fun m m' hm => h.lookup (hm.number (.inl rfl))
  | oneOf α place key => exact h.atMapping place fun m m' hm => h.lookup (hm.oneOf (.inl rfl))
  | value place key => exact h.atMapping place fun m m' hm => h.lookup (hm.value (.inl rfl) rfl)
  | mapping place key =>
    -- from here on the questions find something: the parts found are twins in turn
    refine h.atMapping place fun m m' hm => h.step (hm.mapping (.inl rfl)) (fun l l' hl => ?_) fun l l' hl => ?_
    · exact (hl.map fun _ _ hc => hc.path.symm).seen
    · obtain ⟨c, c', hopt, hopt', hc⟩ | ⟨hopt, hopt'⟩ := hl.cases
      · rw [hopt, hopt']
        exact ⟨.cons hc.twin .nil, .nil⟩
      · rw [hopt, hopt']
        exact none
  | sequence place key =>
    refine h.atMapping place fun m m' hm => h.step (hm.sequence (.inl rfl)) (fun l l' hl => ?_) fun l l' hl => ?_
    · refine (hl.map fun s s' hs => ?_).seen
      rw [hs.path, Sequence.Twin.length hs]
    · obtain ⟨s, s', hopt, hopt', hs⟩ | ⟨hopt, hopt'⟩ := hl.cases
      · rw [hopt, hopt']
        exact ⟨.nil, .cons hs .nil⟩
      · rw [hopt, hopt']
        exact none
  | mappingEntries place =>
    refine h.atMapping place fun m m' hm => h.step hm.mappingEntries (fun es es' hes => ?_) fun es es' hes => ?_
    · refine map_eq hes fun e e' he => ?_
      rw [he.1, he.2.path]
    · exact ⟨List.rel_map (fun _ _ he => he.2.twin) hes, .nil⟩
  | ignore place keys =>
    -- of a twin every key counts, so that extensions may be passed over as well
    have hkeys := List.all_eq_true.2 fun (key : String) (_ : key ∈ keys) => Bool.or_true (!Usage.isExtension key)
    exact h.atMapping place fun m m' hm => h.look (hm.ignore keys hkeys)
  | mappings place =>
    refine h.atSequence place fun s s' hs => h.step (.ofExcept hs.mappings) (fun ms ms' hms => ?_) fun ms ms' hms => ?_
    · exact map_eq hms fun m m' hm => hm.path
    · exact ⟨hms.imp fun _ _ hm => hm.twin, .nil⟩
  | texts place => exact h.atSequence place fun s s' hs => h.look (.ofExcept hs.texts)

theorem askAll (queries : List Query) :
    ∀ {p p' : Places} {u : Usage}, p.Twin p' → Places.askAll queries p' u = Places.askAll queries p u := by
  induction queries with
  | nil => exact fun _ => rfl
  | cons q rest ih =>
    intro p p' u h
    -- the places of the first reply are twins, so the rest is asked of twins, from the same marks
    have hreply := h.ask (u := u) q
    unfold Places.askAll
    dsimp only
    rw [hreply.answer, hreply.usage, ih hreply.places]

end Places.Twin

/-- **An interview cannot tell twins apart**: it has the same answers and leaves the same keys unread. -/
theorem Document.Twin.interview {d d' : Document} (h : d.Twin d') (queries : List Query) :
    d'.interview queries = d.interview queries := by
  unfold Document.interview
  rw [h.root]
  have hroot := (h.documents (.table .exact)).mapping
  generalize d.mapping = root at hroot ⊢
  generalize d'.mapping = root' at hroot ⊢
  cases hroot with
  | ok hm =>
    have hplaces : Places.Twin ⟨[_], []⟩ ⟨[_], []⟩ := ⟨.cons hm .nil, .nil⟩
    dsimp only
    rw [hplaces.askAll queries]
  | error he =>
    dsimp only
    rw [he]

end OpenApi
