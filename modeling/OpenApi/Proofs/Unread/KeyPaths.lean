/-
  OpenApi.Proofs.Unread.KeyPaths — the paths to the keys of a tree, and those that are reported.

  The keys of a tree are listed with their paths, each before those below it (`Node.keyPaths`). Where the keys of each
  mapping have distinct texts, no path is listed twice, and the segments of a path lead from node to node
  (`Node.at?`). The report for any marks is a part of this list, in its order (`Usage.unusedBelow_sublist`), and
  which paths are in it is told by the marks on the way there (`Usage.mem_unusedBelow_iff`).
-/
import OpenApi.Proofs.Extensions.Marks

namespace OpenApi

namespace Node

/-! ## §1. Lists of paths. -/

mutual

/-- The paths to the keys of a tree, in document order. -/
def keyPaths : Node → List Path
  | .sequence items => itemsKeyPaths 0 items
  | .mapping entries => entriesKeyPaths entries
  | .tagged _ n => keyPaths n
  | _ => []

/-- The paths to the keys of entries, each followed by those in its value. -/
def entriesKeyPaths : List (Key × Node) → List Path
  | [] => []
  | (key, n) :: rest =>
    match key.text with
    | none => entriesKeyPaths rest
    | some text => ([] :: keyPaths n).map (text :: ·) ++ entriesKeyPaths rest

/-- The paths to the keys in items, the first of which has this index. -/
def itemsKeyPaths (index : Nat) : List Node → List Path
  | [] => []
  | n :: rest => (keyPaths n).map (toString index :: ·) ++ itemsKeyPaths (index + 1) rest

end

mutual

/-- Do the keys of each mapping have distinct texts? -/
def keysDistinct : Node → Bool
  | .sequence items => itemsKeysDistinct items
  | .mapping entries => decide (entries.filterMap fun e => e.1.text).Nodup && entriesKeysDistinct entries
  | .tagged _ n => keysDistinct n
  | _ => true

/-- Do the keys of each mapping in the values have distinct texts? -/
def entriesKeysDistinct : List (Key × Node) → Bool
  | [] => true
  | (_, n) :: rest => keysDistinct n && entriesKeysDistinct rest

/-- Do the keys of each mapping in the items have distinct texts? -/
def itemsKeysDistinct : List Node → Bool
  | [] => true
  | n :: rest => keysDistinct n && itemsKeysDistinct rest

end

theorem entriesKeysDistinct_iff {entries : List (Key × Node)} :
    entriesKeysDistinct entries = true ↔ ∀ e ∈ entries, e.2.keysDistinct = true := by
  induction entries with
  | nil => simp [entriesKeysDistinct]
  | cons e rest ih => rw [entriesKeysDistinct, Bool.and_eq_true, ih, List.forall_mem_cons]

theorem itemsKeysDistinct_iff {items : List Node} :
    itemsKeysDistinct items = true ↔ ∀ n ∈ items, n.keysDistinct = true := by
  induction items with
  | nil => simp [itemsKeysDistinct]
  | cons n rest ih => rw [itemsKeysDistinct, Bool.and_eq_true, ih, List.forall_mem_cons]

theorem keysDistinct_sequence {items : List Node} :
    (sequence items).keysDistinct = true ↔ ∀ n ∈ items, n.keysDistinct = true := by
  rw [keysDistinct, itemsKeysDistinct_iff]

theorem keysDistinct_mapping {entries : List (Key × Node)} :
    (mapping entries).keysDistinct = true ↔
      (mapping entries).keys.Nodup ∧ ∀ e ∈ entries, e.2.keysDistinct = true := by
  rw [keysDistinct, Bool.and_eq_true, decide_eq_true_eq, entriesKeysDistinct_iff]
  rfl

/-! ## §2. Nodes at paths. -/

/-- The item that has its index as this segment, in items the first of which has `index`. -/
def itemAt? (segment : String) (index : Nat) : List Node → Option Node
  | [] => none
  | n :: rest => if toString index = segment then some n else itemAt? segment (index + 1) rest

/-- The node that stands one segment below: the value of a key or an item of a sequence. -/
def child? (n : Node) (segment : String) : Option Node := (n.get? segment).or (itemAt? segment 0 n.items)

/-- The node that a path leads to. -/
def at? (n : Node) : Path → Option Node
  | [] => some n
  | segment :: rest =>
    match n.child? segment with
    | none => none
    | some c => c.at? rest

variable {n c : Node} {s : String} {rest : Path}

theorem at?_cons : n.at? (s :: rest) = (n.child? s).bind fun c => c.at? rest := by
  rw [at?]
  cases n.child? s with
  | none => rfl
  | some c => rfl

theorem at?_append (path : Path) : n.at? (path ++ rest) = (n.at? path).bind fun c => c.at? rest := by
  induction path generalizing n with
  | nil => rfl
  | cons s path ih =>
    rw [List.cons_append, at?_cons, at?_cons]
    cases n.child? s with
    | none => rfl
    | some c => exact ih

/-- Indices that are written alike are equal. -/
theorem index_inj {i j : Nat} (h : toString i = toString j) : i = j := by
  have hdigits : ∀ k : Nat, (toString k).toList = Nat.toDigits 10 k := fun _ => Nat.toList_repr
  have hsame : Nat.toDigits 10 i = Nat.toDigits 10 j := by rw [← hdigits, ← hdigits, h]
  calc i = Nat.ofDigitChars 10 (Nat.toDigits 10 i) 0 := Nat.ofDigitChars_ten_toDigits.symm
    _ = Nat.ofDigitChars 10 (Nat.toDigits 10 j) 0 := by rw [hsame]
    _ = j := Nat.ofDigitChars_ten_toDigits

/-- The segment of an item is its index. -/
theorem itemAt?_eq_some {items : List Node} {index : Nat} :
    itemAt? s index items = some c ↔ ∃ i, s = toString (index + i) ∧ items[i]? = some c := by
  induction items generalizing index with
  | nil => simp [itemAt?]
  | cons n rest ih =>
    rw [itemAt?]
    -- the positions of the rest are counted from the next index
    by_cases hfirst : toString index = s
    · subst hfirst
      rw [if_pos rfl]
      constructor
      · intro h
        exact ⟨0, rfl, h⟩
      · rintro ⟨i, hi, hc⟩
        have hzero : i = 0 := by
          have := index_inj hi
          omega
        rwa [hzero] at hc
    · rw [if_neg hfirst, ih]
      constructor
      · rintro ⟨i, hi, hc⟩
        exact ⟨i + 1, by rw [hi, Nat.add_right_comm, Nat.add_assoc], hc⟩
      · rintro ⟨i, hi, hc⟩
        cases i with
        | zero => exact absurd hi.symm hfirst
        | succ i => exact ⟨i, by rw [hi, Nat.add_right_comm, Nat.add_assoc], hc⟩

/-- No later item has the index of an item. -/
theorem itemAt?_later (items : List Node) (index : Nat) : itemAt? (toString index) (index + 1) items = none := by
  by_contra hfound
  obtain ⟨c, hc⟩ := Option.ne_none_iff_exists'.1 hfound
  obtain ⟨i, hi, -⟩ := itemAt?_eq_some.1 hc
  have := index_inj hi
  omega

theorem child?_mapping (h : n.kind = .mapping) : n.child? s = n.get? s := by
  have hitems : n.items = [] := by
    induction n using Node.induction with
    | mapping => rfl
    | tagged tag n ih => exact ih h
    | null | bool | number | string | sequence => exact absurd h nofun
  unfold child?
  rw [hitems]
  exact Option.or_none

theorem child?_sequence (h : n.kind = .sequence) : n.child? s = itemAt? s 0 n.items := by
  have hentries : n.entries = [] := by
    induction n using Node.induction with
    | sequence => rfl
    | tagged tag n ih => exact ih h
    | null | bool | number | string | mapping => exact absurd h nofun
  unfold child? get?
  rw [hentries]
  rfl

/-! ## §3. Where the keys of a tree are. -/

theorem mem_entriesKeyPaths {entries : List (Key × Node)} : s :: rest ∈ entriesKeyPaths entries ↔
    ∃ e ∈ entries, e.1.text = some s ∧ (rest = [] ∨ rest ∈ e.2.keyPaths) := by
  induction entries with
  | nil => simp [entriesKeyPaths]
  | cons e more ih =>
    obtain ⟨key, n⟩ := e
    rw [entriesKeyPaths]
    cases hkey : key.text with
    | none => simp [hkey, ih]
    | some text =>
      by_cases htext : text = s
      · simp [hkey, ih, htext, or_assoc]
      · simp [hkey, ih, htext, Ne.symm htext]

theorem mem_itemsKeyPaths {items : List Node} {index : Nat} : s :: rest ∈ itemsKeyPaths index items ↔
    ∃ c, itemAt? s index items = some c ∧ rest ∈ c.keyPaths := by
  induction items generalizing index with
  | nil => simp [itemsKeyPaths, itemAt?]
  | cons n more ih =>
    rw [itemsKeyPaths, itemAt?, List.mem_append, ih]
    by_cases hfirst : toString index = s
    · subst hfirst
      rw [itemAt?_later, if_pos rfl]
      simp
    · have hhere : s :: rest ∉ n.keyPaths.map (toString index :: ·) := by
        intro h
        obtain ⟨_, _, heq⟩ := List.mem_map.1 h
        exact hfirst (List.cons.inj heq).1
      rw [if_neg hfirst, or_iff_right hhere]

theorem nil_not_mem_keyPaths (n : Node) : [] ∉ n.keyPaths := by
  -- every path of an entry or an item starts with its own name
  have hentries : ∀ entries, [] ∉ entriesKeyPaths entries := by
    intro entries
    induction entries with
    | nil => simp [entriesKeyPaths]
    | cons e rest ih =>
      rw [entriesKeyPaths]
      cases e.1.text with
      | none => exact ih
      | some text => simp [ih]
  have hitems : ∀ items index, [] ∉ itemsKeyPaths index items := by
    intro items
    induction items with
    | nil => simp [itemsKeyPaths]
    | cons n rest ih => simp [itemsKeyPaths, ih]
  induction n using Node.induction with
  | sequence items _ => exact hitems items 0
  | mapping entries _ => exact hentries entries
  | tagged tag n ih => exact ih
  | _ => simp [keyPaths]

/-- A node one segment below a tree whose mappings have distinct keys has such mappings too. -/
theorem keysDistinct_child (h : n.keysDistinct = true) (hc : n.child? s = some c) : c.keysDistinct = true := by
  induction n using Node.induction with
  | sequence items _ =>
    obtain ⟨i, -, hi⟩ := itemAt?_eq_some.1 hc
    exact keysDistinct_sequence.1 h c (List.mem_of_getElem? hi)
  | mapping entries _ =>
    rw [child?_mapping rfl] at hc
    obtain ⟨e, he, rfl⟩ := Option.map_eq_some_iff.1 hc
    exact (keysDistinct_mapping.1 h).2 e (List.mem_of_find?_eq_some he)
  | tagged tag n ih => exact ih h hc
  | _ => exact absurd hc nofun

/-- **A key is on a path** or further down, in the node below the first segment. -/
theorem mem_keyPaths_cons (h : n.keysDistinct = true) : s :: rest ∈ n.keyPaths ↔
    ∃ c, n.child? s = some c ∧ (rest = [] ∧ s ∈ n.keys ∨ rest ∈ c.keyPaths) := by
  induction n using Node.induction with
  | sequence items _ =>
    rw [keyPaths, mem_itemsKeyPaths, child?_sequence rfl]
    simp [keys, entries, Node.items]
  | mapping entries _ =>
    rw [keyPaths, mem_entriesKeyPaths, child?_mapping rfl]
    constructor
    · rintro ⟨e, he, hkey, hrest⟩
      refine ⟨e.2, get?_of_mem (keysDistinct_mapping.1 h).1 he hkey, hrest.imp_left fun hnil => ⟨hnil, ?_⟩⟩
      exact List.mem_filterMap.2 ⟨e, he, hkey⟩
    · rintro ⟨c, hc, hrest⟩
      obtain ⟨e, he, rfl⟩ := Option.map_eq_some_iff.1 hc
      exact ⟨e, List.mem_of_find?_eq_some he, by simpa using List.find?_some he, hrest.imp_left And.left⟩
  | tagged tag n ih => exact ih h
  | _ => simp [keyPaths, child?, get?, entries, items, itemAt?]

/-- The keys of a node that a path leads to are on the path, one segment further. -/
theorem mem_keyPaths_at? (h : n.keysDistinct = true) {path : Path} (hc : n.at? path = some c) (hs : s ∈ c.keys) :
    path ++ [s] ∈ n.keyPaths := by
  induction path generalizing n with
  | nil =>
    cases hc
    obtain ⟨m, hm⟩ := Option.isSome_iff_exists.1 (mem_keys.1 hs)
    have hchild : c.child? s = some m := by
      unfold child?
      rw [hm]
      rfl
    exact (mem_keyPaths_cons h).2 ⟨m, hchild, .inl ⟨rfl, hs⟩⟩
  | cons segment path ih =>
    rw [at?_cons] at hc
    obtain ⟨m, hm, hc⟩ := Option.bind_eq_some_iff.1 hc
    exact (mem_keyPaths_cons h).2 ⟨m, hm, .inr (ih (keysDistinct_child h hm) hc)⟩

/-- The start of a path to a key leads to a node that is not null. -/
theorem exists_at?_above_key (h : n.keysDistinct = true) {path : Path} (hkey : path ++ s :: rest ∈ n.keyPaths) :
    ∃ c, n.at? path = some c ∧ c.kind ≠ .null := by
  induction path generalizing n with
  | nil =>
    refine ⟨n, rfl, fun hnull => ?_⟩
    have hnone : n.keyPaths = [] := by
      induction n using Node.induction with
      | null => rfl
      | tagged tag n ih => exact ih h hkey hnull
      | bool | number | string | sequence | mapping => exact absurd hnull nofun
    rw [hnone] at hkey
    exact absurd hkey List.not_mem_nil
  | cons segment path ih =>
    obtain ⟨c, hc, ⟨hnil, -⟩ | hbelow⟩ := (mem_keyPaths_cons h).1 hkey
    · simp at hnil
    · rw [at?_cons, hc]
      exact ih (keysDistinct_child h hc) hbelow

/-- A path to a key leads to the value of the key. -/
theorem exists_at?_of_mem_keyPaths (h : n.keysDistinct = true) {path : Path} (hkey : path ∈ n.keyPaths) :
    ∃ c, n.at? path = some c := by
  induction path generalizing n with
  | nil => exact ⟨n, rfl⟩
  | cons segment path ih =>
    obtain ⟨c, hc, ⟨rfl, -⟩ | hbelow⟩ := (mem_keyPaths_cons h).1 hkey
    · exact ⟨c, by rw [at?_cons, hc]; rfl⟩
    · rw [at?_cons, hc]
      exact ih (keysDistinct_child h hc) hbelow

/-- **No path is listed twice.** -/
theorem nodup_keyPaths (h : n.keysDistinct = true) : n.keyPaths.Nodup := by
  induction n using Node.induction with
  | sequence items ih =>
    have hitems : ∀ index, (itemsKeyPaths index items).Nodup := by
      replace h := keysDistinct_sequence.1 h
      induction items with
      | nil => simp [itemsKeyPaths]
      | cons n rest ihrest =>
        intro index
        obtain ⟨hn, hrest⟩ := List.forall_mem_cons.1 ih
        obtain ⟨hdistinct, hdistincts⟩ := List.forall_mem_cons.1 h
        rw [itemsKeyPaths, List.nodup_append]
        refine ⟨(hn hdistinct).map List.cons_injective, ihrest hrest hdistincts _, ?_⟩
        -- a path into the first item starts with its index, and no later item has that
        rintro _ hp _ hq rfl
        obtain ⟨q, -, rfl⟩ := List.mem_map.1 hp
        obtain ⟨c, hc, -⟩ := mem_itemsKeyPaths.1 hq
        rw [itemAt?_later] at hc
        exact absurd hc nofun
    exact hitems 0
  | mapping entries ih =>
    obtain ⟨hkeys, hvalues⟩ := keysDistinct_mapping.1 h
    show (entriesKeyPaths entries).Nodup
    clear h
    induction entries with
    | nil => simp [entriesKeyPaths]
    | cons e rest ihrest =>
      obtain ⟨key, n⟩ := e
      obtain ⟨hn, hrest⟩ := List.forall_mem_cons.1 ih
      obtain ⟨hdistinct, hdistincts⟩ := List.forall_mem_cons.1 hvalues
      rw [entriesKeyPaths]
      cases hkey : key.text with
      | none =>
        have hsame : (mapping ((key, n) :: rest)).keys = (mapping rest).keys := List.filterMap_cons_none hkey
        exact ihrest hrest (hsame ▸ hkeys) hdistincts
      | some text =>
        rw [keys_mapping_cons hkey, List.nodup_cons] at hkeys
        have hhere : ([] :: n.keyPaths).Nodup := List.nodup_cons.2 ⟨nil_not_mem_keyPaths n, hn hdistinct⟩
        refine List.nodup_append.2 ⟨hhere.map List.cons_injective, ihrest hrest hkeys.2 hdistincts, ?_⟩
        -- a path that both lists have starts with one text, which would be the text of two keys
        rintro _ hp _ hq rfl
        obtain ⟨q, -, rfl⟩ := List.mem_map.1 hp
        obtain ⟨e, he, hekey, -⟩ := mem_entriesKeyPaths.1 hq
        exact hkeys.1 (List.mem_filterMap.2 ⟨e, he, hekey⟩)
  | tagged tag n ih => exact ih h
  | _ => simp [keyPaths]

end Node

namespace Usage

variable {u : Usage} {n : Node} {path rest : Path} {s : String}

/-! ## §4. The order of the report. -/

/-- Paths that start with a path and a segment. -/
theorem map_append_map_cons (path : Path) (segment : String) (paths : List Path) :
    (paths.map (segment :: ·)).map (path ++ ·) = paths.map (path ++ [segment] ++ ·) := by
  simp [Function.comp_def]

/-- What is listed for each key of a mapping is part of the paths to keys, if it is for each key alone. -/
theorem flatMap_unusedEntries_sublist {list : String × List Path → List Path} {entries : List (Key × Node)}
    (h : ∀ e ∈ entries, ∀ text, e.1.text = some text →
      (list (text, unusedBelow u (path ++ [text]) e.2)).Sublist
        (([] :: e.2.keyPaths).map (path ++ [text] ++ ·))) :
    ((unusedEntries u path entries).flatMap list).Sublist ((Node.entriesKeyPaths entries).map (path ++ ·)) := by
  induction entries with
  | nil => simp [unusedEntries]
  | cons e rest ih =>
    obtain ⟨key, n⟩ := e
    obtain ⟨hn, hrest⟩ := List.forall_mem_cons.1 h
    rw [unusedEntries, Node.entriesKeyPaths]
    cases hkey : key.text with
    | none => exact ih hrest
    | some text =>
      rw [List.flatMap_cons, List.map_append, map_append_map_cons]
      exact (hn text hkey).append (ih hrest)

/-- **What is reported is part of the paths to keys,** in document order. -/
theorem unusedBelow_sublist (h : n.keysDistinct = true) :
    (unusedBelow u path n).Sublist (n.keyPaths.map (path ++ ·)) := by
  induction n using Node.induction generalizing path with
  | sequence items ih =>
    have hitems : ∀ index,
        (unusedItems u path index items).Sublist ((Node.itemsKeyPaths index items).map (path ++ ·)) := by
      replace h := Node.keysDistinct_sequence.1 h
      induction items with
      | nil => simp [unusedItems]
      | cons n rest ihrest =>
        intro index
        obtain ⟨hn, hrest⟩ := List.forall_mem_cons.1 ih
        obtain ⟨hdistinct, hdistincts⟩ := List.forall_mem_cons.1 h
        rw [unusedItems, Node.itemsKeyPaths, List.map_append, map_append_map_cons]
        exact (hn hdistinct).append (ihrest hrest hdistincts _)
    rw [unusedBelow, Node.keyPaths]
    split
    next => exact List.nil_sublist _
    next => exact hitems 0
  | mapping entries ih =>
    obtain ⟨hkeys, hvalues⟩ := Node.keysDistinct_mapping.1 h
    rw [unusedBelow, Node.keyPaths]
    split
    next => exact List.nil_sublist _
    next =>
      apply flatMap_unusedEntries_sublist
      intro e he text hkey
      -- the first entry with this text is the entry itself
      rw [find?_unusedEntries, Node.get?_of_mem hkeys he hkey]
      dsimp only [Option.map_some]
      split
      next => exact List.nil_sublist _
      next =>
        split
        next => exact (ih e he (hvalues e he)).cons _
        next => simp
  | tagged tag n ih => exact ih h
  | _ => simp [unusedBelow]

/-! ## §5. Membership in the report. -/

/-- A path that is reported below a segment starts with it. -/
theorem eq_of_mem_unusedBelow {segment : String} (h : path ++ s :: rest ∈ unusedBelow u (path ++ [segment]) n) :
    s = segment := by
  obtain ⟨key, more, heq⟩ := (unread_of_mem_unusedBelow h).strictly_below
  rw [List.append_assoc, List.append_cancel_left_eq] at heq
  exact (List.cons.inj heq).1

theorem mem_unusedItems {items : List Node} {index : Nat} : path ++ s :: rest ∈ unusedItems u path index items ↔
    ∃ c, Node.itemAt? s index items = some c ∧ path ++ s :: rest ∈ unusedBelow u (path ++ [s]) c := by
  induction items generalizing index with
  | nil => simp [unusedItems, Node.itemAt?]
  | cons n more ih =>
    rw [unusedItems, Node.itemAt?, List.mem_append, ih]
    by_cases hfirst : toString index = s
    · subst hfirst
      rw [Node.itemAt?_later, if_pos rfl]
      simp
    · have hhere : path ++ s :: rest ∉ unusedBelow u (path ++ [toString index]) n := by
        intro h
        exact hfirst (eq_of_mem_unusedBelow h).symm
      rw [if_neg hfirst, or_iff_right hhere]

/-- What a node reports: a key that was not read, or what is reported below an item or a key that was read. -/
theorem mem_unusedBelow_cons : path ++ s :: rest ∈ unusedBelow u path n ↔
    path ∉ u.sealed ∧ isExtension s = false ∧ ∃ c, n.child? s = some c ∧
      (s ∈ n.keys ∧ path ++ [s] ∉ u.read ∧ rest = [] ∨
        (s ∈ n.keys → path ++ [s] ∈ u.read) ∧ path ++ s :: rest ∈ unusedBelow u (path ++ [s]) c) := by
  induction n using Node.induction with
  | sequence items _ =>
    have hitems : path ++ s :: rest ∈ unusedBelow u path (.sequence items) ↔
        path ∉ u.sealed ∧ path ++ s :: rest ∈ unusedItems u path 0 items := by
      rw [unusedBelow]
      by_cases hopen : path ∈ u.sealed
      · simp [hopen]
      · simp [hopen]
    have hnot : s ∉ (Node.sequence items).keys := List.not_mem_nil
    rw [hitems, mem_unusedItems, Node.child?_sequence rfl]
    refine and_congr_right fun _ => ?_
    -- a position is no key, so an item itself is never reported, only what is below it
    constructor
    · rintro ⟨c, hc, hreported⟩
      obtain ⟨i, rfl, -⟩ := Node.itemAt?_eq_some.1 hc
      exact ⟨isExtension_toString _, c, hc, .inr ⟨fun hkey => absurd hkey hnot, hreported⟩⟩
    · rintro ⟨-, c, hc, ⟨hkey, -⟩ | ⟨-, hreported⟩⟩
      · exact absurd hkey hnot
      · exact ⟨c, hc, hreported⟩
  | mapping entries _ =>
    rw [mem_unusedBelow_mapping, Node.child?_mapping rfl]
    refine and_congr_right fun _ => ?_
    constructor
    · rintro ⟨key, hkey, hext, ⟨hread, heq⟩ | ⟨hread, c, hc, hreported⟩⟩
      · rw [List.append_cancel_left_eq] at heq
        obtain ⟨rfl, rfl⟩ := List.cons.inj heq
        obtain ⟨c, hc⟩ := Option.isSome_iff_exists.1 (Node.mem_keys.1 hkey)
        exact ⟨hext, c, hc, .inl ⟨hkey, hread, rfl⟩⟩
      · obtain rfl := eq_of_mem_unusedBelow hreported
        exact ⟨hext, c, hc, .inr ⟨fun _ => hread, hreported⟩⟩
    · rintro ⟨hext, c, hc, ⟨hkey, hread, rfl⟩ | ⟨hread, hreported⟩⟩
      · exact ⟨s, hkey, hext, .inl ⟨hread, rfl⟩⟩
      · have hkey : s ∈ (Node.mapping entries).keys := Node.mem_keys.2 (by rw [hc]; rfl)
        exact ⟨s, hkey, hext, .inr ⟨hread hkey, c, hc, hreported⟩⟩
  | tagged tag n ih => exact ih
  | _ => simp [unusedBelow, Node.child?, Node.get?, Node.entries, Node.items, Node.itemAt?]

/-- The key at a path below `path` is told by the marks to be reported: it was not read, and every key above it was
read, but not as a whole. -/
structure Reports (u : Usage) (n : Node) (path rest : Path) : Prop where
  key : rest ∈ n.keyPaths
  named : Named rest
  unread : path ++ rest ∉ u.read
  above : ∀ q, q <+: rest → q ≠ rest → path ++ q ∉ u.sealed ∧ (q ∈ n.keyPaths → path ++ q ∈ u.read)

/-- What the marks tell about a path goes by its first segment and by what they tell below. -/
theorem reports_cons (h : n.keysDistinct = true) : u.Reports n path (s :: rest) ↔
    path ∉ u.sealed ∧ isExtension s = false ∧ ∃ c, n.child? s = some c ∧
      (s ∈ n.keys ∧ path ++ [s] ∉ u.read ∧ rest = [] ∨
        (s ∈ n.keys → path ++ [s] ∈ u.read) ∧ u.Reports c (path ++ [s]) rest) := by
  have hassoc : ∀ q : Path, path ++ s :: q = path ++ [s] ++ q := fun q => by simp
  constructor
  · intro hreports
    obtain ⟨c, hc, hrest⟩ := (Node.mem_keyPaths_cons h).1 hreports.key
    obtain ⟨hext, hnamed⟩ := List.forall_mem_cons.1 hreports.named
    have hopen := (hreports.above [] List.nil_prefix (List.cons_ne_nil _ _).symm).1
    rw [List.append_nil] at hopen
    refine ⟨hopen, hext, c, hc, ?_⟩
    rcases hrest with ⟨rfl, hkey⟩ | hrest
    · exact .inl ⟨hkey, hreports.unread, rfl⟩
    · -- the proper prefixes of the rest are those of the whole path without their first segment
      have hbelow : ∀ q, q <+: rest → q ≠ rest →
          path ++ s :: q ∉ u.sealed ∧ (s :: q ∈ n.keyPaths → path ++ s :: q ∈ u.read) := by
        intro q hq hne
        exact hreports.above (s :: q) (List.cons_prefix_cons.2 ⟨rfl, hq⟩) fun heq => hne (List.cons.inj heq).2
      refine .inr ⟨fun hkey => ?_, hrest, hnamed, hassoc rest ▸ hreports.unread, fun q hq hne => ?_⟩
      · have hne : [] ≠ rest := fun heq => Node.nil_not_mem_keyPaths c (heq ▸ hrest)
        exact (hbelow [] List.nil_prefix hne).2 ((Node.mem_keyPaths_cons h).2 ⟨c, hc, .inl ⟨rfl, hkey⟩⟩)
      · rw [← hassoc]
        obtain ⟨hsealed, hread⟩ := hbelow q hq hne
        exact ⟨hsealed, fun hkey => hread ((Node.mem_keyPaths_cons h).2 ⟨c, hc, .inr hkey⟩)⟩
  · rintro ⟨hopen, hext, c, hc, hcases⟩
    have hnil : path ++ [] ∉ u.sealed ∧ ([] ∈ n.keyPaths → path ++ [] ∈ u.read) :=
      ⟨by rwa [List.append_nil], fun hkey => absurd hkey (Node.nil_not_mem_keyPaths n)⟩
    rcases hcases with ⟨hkey, hread, rfl⟩ | ⟨hread, hreports⟩
    · refine ⟨(Node.mem_keyPaths_cons h).2 ⟨c, hc, .inl ⟨rfl, hkey⟩⟩, ?_, hread, fun q hq hne => ?_⟩
      · intro key hkey
        rw [List.mem_singleton.1 hkey]
        exact hext
      · rcases List.prefix_cons_iff.1 hq with rfl | ⟨t, rfl, ht⟩
        · exact hnil
        · exact absurd (congrArg (s :: ·) (List.prefix_nil.1 ht)) hne
    · refine ⟨(Node.mem_keyPaths_cons h).2 ⟨c, hc, .inr hreports.key⟩,
        List.forall_mem_cons.2 ⟨hext, hreports.named⟩, hassoc rest ▸ hreports.unread, fun q hq hne => ?_⟩
      rcases List.prefix_cons_iff.1 hq with rfl | ⟨t, rfl, ht⟩
      · exact hnil
      · rw [hassoc]
        obtain ⟨hsealed, hbelow⟩ := hreports.above t ht fun heq => hne (congrArg (s :: ·) heq)
        refine ⟨hsealed, fun hkey => ?_⟩
        -- the prefix ends with a key of the node, or with one further down
        obtain ⟨c', hc', hcase⟩ := (Node.mem_keyPaths_cons h).1 hkey
        obtain rfl : c = c' := Option.some.inj (hc.symm.trans hc')
        rcases hcase with ⟨rfl, hs⟩ | hdown
        · rw [List.append_nil]
          exact hread hs
        · exact hbelow hdown

/-- **The report holds just the paths that the marks tell.** -/
theorem mem_unusedBelow_iff (h : n.keysDistinct = true) :
    path ++ rest ∈ unusedBelow u path n ↔ u.Reports n path rest := by
  induction rest generalizing n path with
  | nil =>
    refine iff_of_false (fun hreported => ?_) fun hreports => Node.nil_not_mem_keyPaths n hreports.key
    obtain ⟨key, more, heq⟩ := (unread_of_mem_unusedBelow hreported).strictly_below
    simp at heq
  | cons s rest ih =>
    rw [mem_unusedBelow_cons, reports_cons h]
    -- both sides step to the same node below, where the induction hypothesis applies
    refine and_congr_right fun _ => and_congr_right fun _ => exists_congr fun c => and_congr_right fun hc => ?_
    rw [← ih (Node.keysDistinct_child h hc), List.append_assoc, List.singleton_append]

end Usage

end OpenApi
