/-
  OpenApi.Proofs.Document.Trimming — trees without the entries that nothing read.

  A tree is trimmed by leaving out the entries at some paths. The nodes that stay keep their kinds, and a
  lookup finds what it found before, itself trimmed, unless the entry is gone. The paths of interest are those
  of unused keys: none of them was read, and none lies below what was read as a whole (`Unread.not_read`,
  `Unread.not_sealed`). Without them no key is unused (`unused_without`).
-/
import Mathlib.Data.List.Basic
import Mathlib.Data.List.Pairwise
import Mathlib.Order.MinMax
import OpenApi.Document.Usage

namespace OpenApi

namespace Node

/-! ## §1. Trees. -/

/-- What passes from the items, entries or tagged node of each node to the node holds of all trees. -/
@[elab_as_elim]
theorem induction {P : Node → Prop} (null : P .null) (bool : ∀ b, P (.bool b))
    (number : ∀ text json, P (.number text json)) (string : ∀ s, P (.string s))
    (sequence : ∀ items, (∀ n ∈ items, P n) → P (.sequence items))
    (mapping : ∀ entries, (∀ e ∈ entries, P e.2) → P (.mapping entries))
    (tagged : ∀ tag n, P n → P (.tagged tag n)) (n : Node) : P n := by
  refine @Node.rec P (fun items => ∀ n ∈ items, P n) (fun entries => ∀ e ∈ entries, P e.2)
    (fun e => P e.2) null bool number string sequence mapping tagged ?_ ?_ ?_ ?_ (fun _ _ h => h) n
  · exact fun n h => absurd h List.not_mem_nil
  · exact fun n rest hn hrest => List.forall_mem_cons.2 ⟨hn, hrest⟩
  · exact fun e h => absurd h List.not_mem_nil
  · exact fun e rest he hrest => List.forall_mem_cons.2 ⟨he, hrest⟩

theorem keys_mapping_append (entries more : List (Key × Node)) :
    (mapping (entries ++ more)).keys = (mapping entries).keys ++ (mapping more).keys := List.filterMap_append

theorem keys_mapping_cons {k : Key} {key : String} (hk : k.text = some key) (n : Node) (rest : List (Key × Node)) :
    (mapping ((k, n) :: rest)).keys = key :: (mapping rest).keys := List.filterMap_cons_some hk

theorem get?_mapping_append (entries more : List (Key × Node)) (key : String) :
    (mapping (entries ++ more)).get? key = ((mapping entries).get? key).or ((mapping more).get? key) := by
  show ((entries ++ more).find? _).map Prod.snd = _
  rw [List.find?_append, Option.map_or]
  rfl

theorem get?_mapping_cons {k : Key} {key : String} (hk : k.text = some key) (n : Node) (rest : List (Key × Node))
    (other : String) : (mapping ((k, n) :: rest)).get? other =
      if key = other then some n else (mapping rest).get? other := by
  show (((k, n) :: rest).find? fun e => e.1.text = some other).map Prod.snd = _
  by_cases hother : key = other
  · simp [hk, hother]
  · rw [List.find?_cons_of_neg (by simpa [hk] using hother), if_neg hother]
    rfl

/-! ## §2. Trees without some entries. -/

mutual

/-- The tree at a path, without the entries whose paths are in `gone`. -/
def without (gone : List Path) (path : Path) : Node → Node
  | .null => .null
  | .bool b => .bool b
  | .number text json => .number text json
  | .string s => .string s
  | .sequence items => .sequence (itemsWithout gone path 0 items)
  | .mapping entries => .mapping (entriesWithout gone path entries)
  | .tagged tag n => .tagged tag (without gone path n)

/-- Items, the first of which has this index, without the entries in them that are gone. -/
def itemsWithout (gone : List Path) (path : Path) (index : Nat) : List Node → List Node
  | [] => []
  | n :: rest =>
    without gone (path ++ [toString index]) n :: itemsWithout gone path (index + 1) rest

/-- The entries that stay. No path leads to an entry whose key has no text, so it stays as it is. -/
def entriesWithout (gone : List Path) (path : Path) : List (Key × Node) → List (Key × Node)
  | [] => []
  | (key, n) :: rest =>
    match key.text with
    | none => (key, n) :: entriesWithout gone path rest
    | some text =>
      if path ++ [text] ∈ gone then entriesWithout gone path rest
      else (key, without gone (path ++ [text]) n) :: entriesWithout gone path rest

end

variable {gone : List Path} {path : Path}

theorem kind_without (n : Node) : (n.without gone path).kind = n.kind := by
  induction n using Node.induction with
  | tagged tag n ih => simpa [without, kind] using ih
  | _ => simp [without, kind]

theorem scalarText_without (n : Node) : (n.without gone path).scalarText = n.scalarText := by
  induction n using Node.induction with
  | tagged tag n ih => simpa [without, scalarText] using ih
  | _ => simp [without, scalarText]

theorem boolean?_without (n : Node) : (n.without gone path).boolean? = n.boolean? := by
  induction n using Node.induction with
  | tagged tag n ih => simpa [without, boolean?] using ih
  | _ => simp [without, boolean?]

theorem items_without (n : Node) : (n.without gone path).items = itemsWithout gone path 0 n.items := by
  induction n using Node.induction with
  | tagged tag n ih => simpa [without, items] using ih
  | _ => simp [without, items, itemsWithout]

theorem entries_without (n : Node) : (n.without gone path).entries = entriesWithout gone path n.entries := by
  induction n using Node.induction with
  | tagged tag n ih => simpa [without, entries] using ih
  | _ => simp [without, entries, entriesWithout]

/-! ## §3. Lookups. -/

/-- The first entry with a key, unless it is gone, holds the trimmed node. -/
theorem find?_entriesWithout (key : String) (entries : List (Key × Node)) :
    (entriesWithout gone path entries).find? (fun e => e.1.text = some key) =
      if path ++ [key] ∈ gone then none
      else (entries.find? fun e => e.1.text = some key).map fun e =>
        (e.1, e.2.without gone (path ++ [key])) := by
  induction entries with
  | nil => simp [entriesWithout]
  | cons e rest ih =>
    obtain ⟨k, n⟩ := e
    unfold entriesWithout
    cases hk : k.text with
    | none => simp [hk, ih]
    | some text =>
      -- an entry with another key is found in neither list, whether it stays or not
      by_cases htext : text = key
      · subst htext
        by_cases hgone : path ++ [text] ∈ gone
        · simp only [hgone, if_true] at ih ⊢
          exact ih
        · simp [hk, hgone]
      · by_cases hgone : path ++ [text] ∈ gone
        · simp [hk, htext, hgone, ih]
        · simp [hk, htext, hgone, ih]

/-- A key that is not gone leads to the trimmed node, and one that is gone leads nowhere. -/
theorem get?_without (n : Node) (key : String) :
    (n.without gone path).get? key =
      if path ++ [key] ∈ gone then none
      else (n.get? key).map fun child => child.without gone (path ++ [key]) := by
  unfold get?
  rw [entries_without, find?_entriesWithout]
  split
  next => rfl
  next => simp [Function.comp_def]

/-- The keys that stay keep their order. -/
theorem keys_without (n : Node) :
    (n.without gone path).keys = n.keys.filter fun key => path ++ [key] ∉ gone := by
  unfold keys
  rw [entries_without]
  induction n.entries with
  | nil => simp [entriesWithout]
  | cons e rest ih =>
    obtain ⟨k, n⟩ := e
    unfold entriesWithout
    cases hk : k.text with
    | none => simp [hk, ih]
    | some text =>
      by_cases hgone : path ++ [text] ∈ gone
      · simp [hk, hgone, ih]
      · simp [hk, hgone, ih]

/-- A key is listed where a lookup finds it. -/
theorem mem_keys {n : Node} {key : String} : key ∈ n.keys ↔ (n.get? key).isSome = true := by
  unfold keys get?
  rw [List.mem_filterMap, Option.isSome_map, List.find?_isSome]
  simp

/-- Where the texts of keys are distinct, a text tells the entry. -/
theorem eq_of_keys_nodup {entries : List (Key × Node)} (h : (entries.filterMap fun e => e.1.text).Nodup)
    {k : String} {a b : Key × Node} (ha : a ∈ entries) (hb : b ∈ entries) (hak : a.1.text = some k)
    (hbk : b.1.text = some k) : a = b := by
  have hpairs := List.pairwise_filterMap.1 h
  have : Std.Symm fun a b : Key × Node => ∀ x, a.1.text = some x → ∀ y, b.1.text = some y → x ≠ y :=
    ⟨fun _ _ hab x hx y hy => (hab y hy x hx).symm⟩
  by_contra hne
  exact hpairs.forall ha hb hne k hak k hbk rfl

/-- Where the texts of keys are distinct, a lookup finds each entry by its key. -/
theorem get?_of_mem {n : Node} {key : String} {e : Key × Node} (h : n.keys.Nodup) (he : e ∈ n.entries)
    (hkey : e.1.text = some key) : n.get? key = some e.2 := by
  obtain ⟨child, hchild⟩ := Option.isSome_iff_exists.1 (mem_keys.1 (List.mem_filterMap.2 ⟨e, he, hkey⟩))
  obtain ⟨f, hf, rfl⟩ := Option.map_eq_some_iff.1 hchild
  have hfkey : f.1.text = some key := by simpa using List.find?_some hf
  rw [hchild, eq_of_keys_nodup h (List.mem_of_find?_eq_some hf) he hfkey hkey]

/-! ## §4. Heights. -/

theorem height_le_heightOfEntries {e : Key × Node} {entries : List (Key × Node)} (h : e ∈ entries) :
    e.2.height ≤ heightOfEntries entries := by
  induction entries with
  | nil => exact absurd h List.not_mem_nil
  | cons f rest ih =>
    unfold heightOfEntries
    rcases List.mem_cons.1 h with rfl | h
    · exact le_max_left _ _
    · exact le_trans (ih h) (le_max_right _ _)

/-- A node is higher than the values of its entries. -/
theorem height_lt_of_mem_entries {n : Node} {e : Key × Node} (h : e ∈ n.entries) : e.2.height < n.height := by
  induction n using Node.induction with
  | mapping entries _ =>
    rw [height]
    exact Nat.lt_succ_of_le (height_le_heightOfEntries h)
  | tagged tag n ih =>
    rw [height]
    exact Nat.lt_succ_of_lt (ih h)
  | _ => exact absurd h List.not_mem_nil

theorem height_lt_of_get? {n child : Node} {key : String} (h : n.get? key = some child) :
    child.height < n.height := by
  obtain ⟨e, he, rfl⟩ := Option.map_eq_some_iff.1 h
  exact height_lt_of_mem_entries (List.mem_of_find?_eq_some he)

/-- Leaving entries out makes no tree higher. -/
theorem height_without_le (n : Node) : (n.without gone path).height ≤ n.height := by
  induction n using Node.induction generalizing path with
  | sequence items ih =>
    have hitems : ∀ index, heightOfItems (itemsWithout gone path index items) ≤ heightOfItems items := by
      induction items with
      | nil => exact fun index => by rw [itemsWithout]
      | cons n rest ihrest =>
        intro index
        obtain ⟨hn, hrest⟩ := List.forall_mem_cons.1 ih
        rw [itemsWithout, heightOfItems, heightOfItems]
        exact max_le_max hn (ihrest hrest _)
    rw [without, height, height]
    exact Nat.succ_le_succ (hitems 0)
  | mapping entries ih =>
    -- an entry that goes only takes its part out of the maximum
    have hentries : heightOfEntries (entriesWithout gone path entries) ≤ heightOfEntries entries := by
      induction entries with
      | nil => rw [entriesWithout]
      | cons e rest ihrest =>
        obtain ⟨key, n⟩ := e
        obtain ⟨hn, hrest⟩ := List.forall_mem_cons.1 ih
        rw [entriesWithout, heightOfEntries]
        split
        next =>
          rw [heightOfEntries]
          exact max_le_max le_rfl (ihrest hrest)
        next =>
          split
          next => exact le_trans (ihrest hrest) (le_max_right _ _)
          next =>
            rw [heightOfEntries]
            exact max_le_max hn (ihrest hrest)
    rw [without, height, height]
    exact Nat.succ_le_succ hentries
  | tagged tag n ih =>
    rw [without, height, height]
    exact Nat.succ_le_succ ih
  | _ => rw [without]

/-! ## §5. Trees that are not touched. -/

/-- Where nothing below a path is gone, the tree stays as it is. -/
theorem without_eq_self {n : Node} {path : Path} (h : ∀ key rest, path ++ key :: rest ∉ gone) :
    n.without gone path = n := by
  -- the hypothesis is about every path below, so it holds of each child with its longer path
  have hbelow : ∀ {path : Path}, (∀ key rest, path ++ key :: rest ∉ gone) →
      ∀ segment key rest, path ++ [segment] ++ key :: rest ∉ gone := by
    intro path h segment key rest
    rw [List.append_assoc]
    exact h segment (key :: rest)
  induction n using Node.induction generalizing path with
  | sequence items ih =>
    have hitems : ∀ index, itemsWithout gone path index items = items := by
      induction items with
      | nil => exact fun index => by rw [itemsWithout]
      | cons n rest ihrest =>
        intro index
        obtain ⟨hn, hrest⟩ := List.forall_mem_cons.1 ih
        rw [itemsWithout, hn (hbelow h _), ihrest hrest]
    rw [without, hitems]
  | mapping entries ih =>
    have hentries : entriesWithout gone path entries = entries := by
      induction entries with
      | nil => rw [entriesWithout]
      | cons e rest ihrest =>
        obtain ⟨key, n⟩ := e
        obtain ⟨hn, hrest⟩ := List.forall_mem_cons.1 ih
        rw [entriesWithout, ihrest hrest]
        cases hkey : key.text with
        | none => rfl
        | some text =>
          dsimp only
          rw [if_neg (h text []), hn (hbelow h _)]
    rw [without, hentries]
  | tagged tag n ih => rw [without, ih h]
  | _ => rw [without]

end Node

/-! ## §6. Unread paths. -/

/-- The path lies below `path`, was not read, and nothing on the way there was read as a whole. -/
inductive Usage.Unread (u : Usage) (p : Path) : Path → Prop
  | key {path : Path} {key : String} (hopen : path ∉ u.sealed) (hp : p = path ++ [key]) (h : p ∉ u.read) :
      Unread u p path
  | inside {path : Path} {segment : String} (hopen : path ∉ u.sealed) (h : Unread u p (path ++ [segment])) :
      Unread u p path

namespace Usage

variable {u : Usage} {p path : Path}

theorem Unread.not_read (h : u.Unread p path) : p ∉ u.read := by
  induction h with
  | key _ _ h => exact h
  | inside _ _ ih => exact ih

theorem Unread.strictly_below (h : u.Unread p path) : ∃ key rest, p = path ++ key :: rest := by
  induction h with
  | @key path key _ hp _ => exact ⟨key, [], hp⟩
  | @inside path segment _ _ ih =>
    obtain ⟨key, rest, hp⟩ := ih
    exact ⟨segment, key :: rest, by rw [hp, List.append_assoc, List.singleton_append]⟩

/-- Nothing between the two paths was read as a whole. -/
theorem Unread.not_sealed (h : u.Unread p path) :
    ∀ {middle : Path} {key : String} {rest : Path}, p = path ++ middle ++ key :: rest →
      path ++ middle ∉ u.sealed := by
  induction h with
  | @key path key hopen hp _ =>
    intro middle key' rest heq
    rw [hp, List.append_assoc, List.append_cancel_left_eq] at heq
    cases middle with
    | nil => rwa [List.append_nil]
    | cons segment middle => simp at heq
  | @inside path segment hopen hbelow ih =>
    intro middle key rest heq
    cases middle with
    | nil => rwa [List.append_nil]
    | cons segment' middle =>
      -- the way starts with the segment below which the path was found
      obtain ⟨key', rest', hp⟩ := hbelow.strictly_below
      have hsegment : segment = segment' := by
        have hsame := hp.symm.trans heq
        simp only [List.append_assoc, List.append_cancel_left_eq, List.cons_append, List.cons.injEq] at hsame
        exact hsame.1
      subst hsegment
      have hopen' : path ++ [segment] ++ middle ∉ u.sealed := ih (by simpa using heq)
      rwa [List.append_assoc, List.singleton_append] at hopen'

/-! ## §7. Unused keys. -/

/-- The first entry with a key tells what is unused below the key. -/
theorem find?_unusedEntries (key : String) (entries : List (Key × Node)) :
    (unusedEntries u path entries).find? (fun e => e.1 = key) =
      ((Node.mapping entries).get? key).map fun n => (key, unusedBelow u (path ++ [key]) n) := by
  unfold Node.get? Node.entries
  induction entries with
  | nil => simp [unusedEntries]
  | cons e rest ih =>
    obtain ⟨k, n⟩ := e
    unfold unusedEntries
    cases hk : k.text with
    | none => simp [hk, ih]
    | some text =>
      by_cases htext : text = key
      · subst htext
        simp [hk]
      · simp [hk, htext, ih]

theorem keys_unusedEntries (u : Usage) (path : Path) (entries : List (Key × Node)) :
    (unusedEntries u path entries).map Prod.fst = (Node.mapping entries).keys := by
  unfold Node.keys Node.entries
  induction entries with
  | nil => simp [unusedEntries]
  | cons e rest ih =>
    obtain ⟨k, n⟩ := e
    unfold unusedEntries
    cases hk : k.text with
    | none => simp [hk, ih]
    | some text => simp [hk, ih]

/-- What a mapping reports: its own keys that were not read, and what is unused below those that were. -/
theorem mem_unusedBelow_mapping {entries : List (Key × Node)} :
    p ∈ unusedBelow u path (.mapping entries) ↔ path ∉ u.sealed ∧
      ∃ key ∈ (Node.mapping entries).keys, isExtension key = false ∧
        (path ++ [key] ∉ u.read ∧ p = path ++ [key] ∨
          path ++ [key] ∈ u.read ∧ ∃ n, (Node.mapping entries).get? key = some n ∧
            p ∈ unusedBelow u (path ++ [key]) n) := by
  rw [unusedBelow]
  by_cases hopen : path ∈ u.sealed
  · simp [hopen]
  · simp only [List.contains_iff_mem, hopen, if_false, not_false_eq_true, true_and]
    rw [unusedKeys, List.mem_flatMap, ← keys_unusedEntries u path]
    simp only [List.mem_map, exists_exists_and_eq_and]
    -- the report walks over entries and the statement over keys: the same key looked up in both
    refine exists_congr fun e => and_congr_right fun _ => ?_
    rw [find?_unusedEntries]
    by_cases hext : isExtension e.1 = true
    · simp [hext]
    · by_cases hread : path ++ [e.1] ∈ u.read
      · cases hget : (Node.mapping entries).get? e.1 with
        | none => simp [hread]
        | some n => simp [hext, hread]
      · simp [hext, hread]

/-- What a mapping reports, tags looked through. -/
theorem mem_unusedBelow {n : Node} (h : n.kind = .mapping) :
    p ∈ unusedBelow u path n ↔ path ∉ u.sealed ∧
      ∃ key ∈ n.keys, isExtension key = false ∧
        (path ++ [key] ∉ u.read ∧ p = path ++ [key] ∨
          path ++ [key] ∈ u.read ∧ ∃ m, n.get? key = some m ∧ p ∈ unusedBelow u (path ++ [key]) m) := by
  induction n using Node.induction with
  | mapping entries _ => exact mem_unusedBelow_mapping
  | tagged tag n ih => exact ih h
  | null | bool | number | string | sequence => exact absurd h nofun

/-- What is reported below a path lies below it, was not read, and is not part of what was read as a whole. -/
theorem unread_of_mem_unusedBelow {n : Node} {path : Path} (h : p ∈ unusedBelow u path n) :
    u.Unread p path := by
  induction n using Node.induction generalizing path with
  | sequence items ih =>
    unfold unusedBelow at h
    split at h
    next => exact absurd h List.not_mem_nil
    next hopen =>
      have hopen : path ∉ u.sealed := by simpa using hopen
      have hitems : ∀ {index}, p ∈ unusedItems u path index items → u.Unread p path := by
        -- the induction on the items is for any position, and `h` speaks of the first one
        clear h
        induction items with
        | nil => exact fun h => absurd h (by simp [unusedItems])
        | cons n rest ihrest =>
          intro index h
          obtain ⟨hn, hrest⟩ := List.forall_mem_cons.1 ih
          rw [unusedItems] at h
          rcases List.mem_append.1 h with h | h
          · exact .inside hopen (hn h)
          · exact ihrest hrest h
      exact hitems h
  | mapping entries ih =>
    obtain ⟨hopen, key, -, -, ⟨hread, rfl⟩ | ⟨-, n, hget, hn⟩⟩ := mem_unusedBelow_mapping.1 h
    · exact .key hopen rfl hread
    · obtain ⟨e, he, rfl⟩ := Option.map_eq_some_iff.1 hget
      exact .inside hopen (ih e (List.mem_of_find?_eq_some he) hn)
  | tagged tag n ih => exact ih h
  | _ => exact absurd h (by simp [unusedBelow])

/-- **Without what is reported, nothing is reported.** -/
theorem unusedBelow_without {gone : List Path} {n : Node} {path : Path}
    (h : ∀ p ∈ unusedBelow u path n, p ∈ gone) : unusedBelow u path (n.without gone path) = [] := by
  induction n using Node.induction generalizing path with
  | sequence items ih =>
    rw [Node.without, unusedBelow]
    split
    next => rfl
    next hopen =>
      rw [unusedBelow, if_neg hopen] at h
      have hitems : ∀ {index}, (∀ p ∈ unusedItems u path index items, p ∈ gone) →
          unusedItems u path index (Node.itemsWithout gone path index items) = [] := by
        clear h
        induction items with
        | nil => exact fun h => by rw [Node.itemsWithout, unusedItems]
        | cons n rest ihrest =>
          intro index h
          obtain ⟨hn, hrest⟩ := List.forall_mem_cons.1 ih
          rw [unusedItems, List.forall_mem_append] at h
          rw [Node.itemsWithout, unusedItems, hn h.1, ihrest hrest h.2, List.append_nil]
      exact hitems h
  | mapping entries ih =>
    -- a report of the trimmed mapping would be one of the whole mapping, so its path would be gone
    rw [List.eq_nil_iff_forall_not_mem]
    intro p hp
    rw [Node.without] at hp
    obtain ⟨hopen, key, hkey, hext, hcases⟩ := mem_unusedBelow_mapping.1 hp
    rw [← Node.without, Node.keys_without, List.mem_filter] at hkey
    obtain ⟨hkey, hstays⟩ := hkey
    have hstays : path ++ [key] ∉ gone := by simpa using hstays
    obtain ⟨hread, rfl⟩ | ⟨hread, n, hget, hn⟩ := hcases
    · -- an unread key was reported, so it is gone
      exact hstays (h _ (mem_unusedBelow_mapping.2 ⟨hopen, key, hkey, hext, .inl ⟨hread, rfl⟩⟩))
    · rw [← Node.without, Node.get?_without, if_neg hstays] at hget
      obtain ⟨child, hchild, rfl⟩ := Option.map_eq_some_iff.1 hget
      obtain ⟨e, he, rfl⟩ := Option.map_eq_some_iff.1 hchild
      have hbelow : ∀ q ∈ unusedBelow u (path ++ [key]) e.2, q ∈ gone := fun q hq =>
        h q (mem_unusedBelow_mapping.2 ⟨hopen, key, hkey, hext, .inr ⟨hread, _, hchild, hq⟩⟩)
      rw [ih e (List.mem_of_find?_eq_some he) hbelow] at hn
      exact absurd hn List.not_mem_nil
  | tagged tag n ih =>
    rw [Node.without, unusedBelow]
    exact ih h
  | _ => simp [Node.without, unusedBelow]

/-- A tree without its unused keys has none. -/
theorem unused_without (u : Usage) (root : Node) : u.unused (root.without (u.unused root) []) = [] :=
  unusedBelow_without fun _ hp => hp

end Usage

end OpenApi
