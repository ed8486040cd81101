/-
  OpenApi.Proofs.Extensions.Plain — trees without extensions.

  An extension is a key that starts with `x-`. Most readers ask for known keys and never see it; they see the plain
  tree, from which the extensions are left out. Extensions show where all keys count: in tables, in the schema of the
  values of a map that is empty without them, and in a member of an allOf with none but inert keys (`Role.hides`).
  Adding extensions where they do not show leaves the plain tree as it is (`plain_of_extended`).
-/
import Mathlib.Logic.Relation
import OpenApi.Proofs.Document.Trimming
import OpenApi.Proofs.Pairs.Roles

namespace OpenApi

/-! ## §1. Where extensions do not show. -/

namespace Role

/-- Is there a key that is neither an extension nor among those that say nothing? -/
def telling (silent : List String) (key : String) : Bool := !Usage.isExtension key && !silent.contains key

/-- Does a reader of this role see no extension in a mapping with these keys? -/
def hides (r : Role) (keys : List String) : Bool :=
  match r with
  | .exact => false
  | .table _ => false
  -- a map of values counts as one without rules if it is empty
  | .schema true => keys.any (telling [])
  -- a member is passed over if all of its keys are inert
  | .member => keys.any (telling Build.inertKeys)
  | _ => true

/-- Is the key left out of the plain tree, in a mapping whose extensions are hidden or not? -/
def drops (hidden : Bool) (key : String) : Bool := hidden && Usage.isExtension key

end Role

namespace Node

/-! ## §2. Plain trees. -/

mutual

/-- The tree without the extensions that readers of this role do not see. -/
def plain (r : Role) : Node → Node
  | .null => .null
  | .bool b => .bool b
  | .number text json => .number text json
  | .string s => .string s
  | .sequence items => .sequence (plainItems r items)
  | .mapping entries => .mapping (plainEntries r (r.hides (Node.mapping entries).keys) entries)
  | .tagged tag n => .tagged tag (plain r n)

/-- Items without the extensions in them. -/
def plainItems (r : Role) : List Node → List Node
  | [] => []
  | n :: rest => plain r n :: plainItems r rest

/-- The entries without the extensions, if these are hidden. Nothing looks under a key that has no text. -/
def plainEntries (r : Role) (hidden : Bool) : List (Key × Node) → List (Key × Node)
  | [] => []
  | (key, n) :: rest =>
    match key.text with
    | none => (key, n) :: plainEntries r hidden rest
    | some text =>
      if Role.drops hidden text then plainEntries r hidden rest
      else (key, plain (r.under text) n) :: plainEntries r hidden rest

end

variable {r : Role} {hidden : Bool}

theorem kind_plain (n : Node) : (n.plain r).kind = n.kind := by
  induction n using Node.induction with
  | tagged tag n ih => simpa [plain, kind] using ih
  | _ => simp [plain, kind]

theorem scalarText_plain (n : Node) : (n.plain r).scalarText = n.scalarText := by
  induction n using Node.induction with
  | tagged tag n ih => simpa [plain, scalarText] using ih
  | _ => simp [plain, scalarText]

theorem boolean?_plain (n : Node) : (n.plain r).boolean? = n.boolean? := by
  induction n using Node.induction with
  | tagged tag n ih => simpa [plain, boolean?] using ih
  | _ => simp [plain, boolean?]

theorem plainItems_eq_map (items : List Node) : plainItems r items = items.map (plain r) := by
  induction items with
  | nil => rw [plainItems, List.map_nil]
  | cons n rest ih => rw [plainItems, List.map_cons, ih]

theorem items_plain (n : Node) : (n.plain r).items = n.items.map (plain r) := by
  induction n using Node.induction with
  | sequence ns _ => rw [plain, plainItems_eq_map]; rfl
  | tagged tag n ih => simpa [plain, items] using ih
  | _ => simp [plain, items]

theorem entries_plain (n : Node) : (n.plain r).entries = plainEntries r (r.hides n.keys) n.entries := by
  induction n using Node.induction with
  | mapping entries _ => rw [plain]; rfl
  | tagged tag n ih => rw [plain]; exact ih
  | _ => rw [plain]; rfl

theorem plainEntries_append (entries more : List (Key × Node)) :
    plainEntries r hidden (entries ++ more) = plainEntries r hidden entries ++ plainEntries r hidden more := by
  induction entries with
  | nil => rw [plainEntries, List.nil_append, List.nil_append]
  | cons e rest ih =>
    obtain ⟨key, n⟩ := e
    rw [List.cons_append, plainEntries, plainEntries, ih]
    cases key.text with
    | none => rfl
    | some text =>
      dsimp only
      split
      next => rfl
      next => rfl

/-! ## §3. Lookups in plain trees. -/

/-- The first entry with a key, unless it is left out, holds the plain value. -/
theorem find?_plainEntries (key : String) (entries : List (Key × Node)) :
    (plainEntries r hidden entries).find? (fun e => e.1.text = some key) =
      if Role.drops hidden key then none
      else (entries.find? fun e => e.1.text = some key).map fun e => (e.1, e.2.plain (r.under key)) := by
  induction entries with
  | nil => simp [plainEntries]
  | cons e rest ih =>
    obtain ⟨k, n⟩ := e
    unfold plainEntries
    cases hk : k.text with
    | none => simp [hk, ih]
    | some text =>
      -- an entry with another key is found in neither list, whether it is dropped or not
      by_cases htext : text = key
      · subst htext
        by_cases hdrops : Role.drops hidden text = true
        · simp only [hdrops, if_true] at ih ⊢
          exact ih
        · simp [hk, hdrops]
      · by_cases hdrops : Role.drops hidden text = true
        · simp [hk, htext, hdrops, ih]
        · simp [hk, htext, hdrops, ih]

theorem get?_plain (n : Node) (key : String) :
    (n.plain r).get? key =
      if Role.drops (r.hides n.keys) key then none else (n.get? key).map (plain (r.under key)) := by
  unfold get?
  rw [entries_plain, find?_plainEntries]
  split
  next => rfl
  next => simp [Function.comp_def]

theorem filterMap_plainEntries (entries : List (Key × Node)) :
    ((plainEntries r hidden entries).filterMap fun e => e.1.text) =
      (entries.filterMap fun e => e.1.text).filter fun key => !Role.drops hidden key := by
  induction entries with
  | nil => simp [plainEntries]
  | cons e rest ih =>
    obtain ⟨k, n⟩ := e
    unfold plainEntries
    cases hk : k.text with
    | none => simp [hk, ih]
    | some text =>
      by_cases hdrops : Role.drops hidden text = true
      · simp [hk, hdrops, ih]
      · simp [hk, hdrops, ih]

theorem keys_plain (n : Node) : (n.plain r).keys = n.keys.filter fun key => !Role.drops (r.hides n.keys) key := by
  unfold keys
  rw [entries_plain, filterMap_plainEntries]
  rfl

/-- A key that may be asked for is not left out. -/
theorem drops_of_finds {key : String} (h : r.Finds key) (keys : List String) :
    Role.drops (r.hides keys) key = false := by
  unfold Role.drops
  rcases h with hlisted | hname
  · cases r with
    | table values => rfl
    | _ => exact absurd hlisted Bool.false_ne_true
  · rw [hname, Bool.and_false]

/-- What a key that may be asked for leads to. -/
theorem get?_plain_of_finds {key : String} (h : r.Finds key) (n : Node) :
    (n.plain r).get? key = (n.get? key).map (plain (r.under key)) := by
  rw [get?_plain, drops_of_finds h, if_neg Bool.false_ne_true]

/-- Trees with the same plain tree have the same keys that may be asked for. -/
theorem isSome_get?_of_plain {key : String} {n n' : Node} (h : n'.plain r = n.plain r) (hkey : r.Finds key) :
    (n'.get? key).isSome = (n.get? key).isSome := by
  have hget := congrArg (fun n => (n.get? key).isSome) h
  rwa [get?_plain_of_finds hkey, get?_plain_of_finds hkey, Option.isSome_map, Option.isSome_map] at hget

/-- Where every key counts, all of them stay. -/
theorem keys_plain_of_listed (h : r.isListed = true) (n : Node) : (n.plain r).keys = n.keys := by
  rw [keys_plain]
  exact List.filter_eq_self.2 fun key _ => by rw [drops_of_finds (.inl h), Bool.not_false]

/-! ## §4. What is seen of all keys. -/

/-- If extensions are hidden just where a key is telling, all keys say nothing in the plain tree if they did before. -/
theorem all_keys_plain {silent : List String} (hhides : ∀ keys, r.hides keys = keys.any (Role.telling silent))
    (n : Node) :
    (n.plain r).keys.all silent.contains = n.keys.all silent.contains := by
  rw [keys_plain, hhides]
  cases htelling : n.keys.any (Role.telling silent) with
  | false =>
    -- nothing is left out
    refine congrArg (List.all · _) (List.filter_eq_self.2 fun key _ => ?_)
    rw [Role.drops, Bool.false_and, Bool.not_false]
  | true =>
    obtain ⟨key, hkey, htells⟩ := List.any_eq_true.1 htelling
    rw [Role.telling, Bool.and_eq_true, Bool.not_eq_true', Bool.not_eq_true'] at htells
    have hnot : ∀ keys : List String, key ∈ keys → keys.all silent.contains = false := fun keys hmem => by
      rw [← Bool.not_eq_true, List.all_eq_true]
      intro hall
      exact absurd (hall key hmem) (by rw [htells.2]; exact Bool.false_ne_true)
    have hkept : (!Role.drops true key) = true := by
      rw [Role.drops, htells.1, Bool.and_false, Bool.not_false]
    rw [hnot _ hkey, hnot _ (List.mem_filter.2 ⟨hkey, hkept⟩)]

theorem isEmpty_keys_plain (n : Node) : (n.plain (.schema true)).keys.isEmpty = n.keys.isEmpty := by
  have hempty : ∀ keys : List String, keys.isEmpty = keys.all [].contains := fun keys => by
    cases keys with
    | nil => rfl
    | cons key rest => rfl
  rw [hempty, hempty]
  exact all_keys_plain (fun _ => rfl) n

/-- The keys of a path item that are those of operations. -/
theorem methods_plain (n : Node) :
    ((n.plain .pathItem).keys.filter fun key => !Build.isItemKey key) =
      n.keys.filter fun key => !Build.isItemKey key := by
  rw [keys_plain, List.filter_filter]
  refine List.filter_congr fun key _ => ?_
  show (!Build.isItemKey key && !(true && Usage.isExtension key)) = !Build.isItemKey key
  unfold Build.isItemKey
  cases Usage.isExtension key with
  | false => rw [Bool.and_false, Bool.not_false, Bool.and_true]
  | true => rw [Bool.or_true, Bool.not_true, Bool.false_and]

/-! ## §5. Values of which everything counts. -/

theorem plain_exact (n : Node) : n.plain .exact = n := by
  induction n using Node.induction with
  | sequence ns ih =>
    rw [plain, plainItems_eq_map, List.map_congr_left ih, List.map_id']
  | mapping entries ih =>
    -- an exact role hides no key and hands itself down, so no entry is dropped and none changes
    have hentries : plainEntries .exact false entries = entries := by
      induction entries with
      | nil => rw [plainEntries]
      | cons e rest ihrest =>
        obtain ⟨key, n⟩ := e
        obtain ⟨hn, hrest⟩ := List.forall_mem_cons.1 ih
        rw [plainEntries, ihrest hrest]
        cases key.text with
        | none => rfl
        | some text =>
          show (key, n.plain .exact) :: rest = (key, n) :: rest
          rw [hn]
    rw [plain]
    exact congrArg Node.mapping hentries
  | tagged tag n ih => rw [plain, ih]
  | _ => rw [plain]

/-! ## §6. Adding extensions. -/

/-- The second tree is the first one with an extension in some mapping whose role hides it. -/
inductive Extended : Role → Node → Node → Prop
  | here {r : Role} {before after : List (Key × Node)} {k : Key} {key : String} (value : Node) (hk : k.text = some key)
      (hkey : Usage.isExtension key = true) (hhides : r.hides (Node.mapping (before ++ after)).keys = true) :
      Extended r (.mapping (before ++ after)) (.mapping (before ++ (k, value) :: after))
  | entry {r : Role} {before after : List (Key × Node)} {k : Key} {key : String} {n n' : Node} (hk : k.text = some key)
      (h : Extended (r.under key) n n') :
      Extended r (.mapping (before ++ (k, n) :: after)) (.mapping (before ++ (k, n') :: after))
  | item {r : Role} {before after : List Node} {n n' : Node} (h : Extended r n n') :
      Extended r (.sequence (before ++ n :: after)) (.sequence (before ++ n' :: after))
  | tagged {r : Role} {n n' : Node} (tag : String) (h : Extended r n n') :
      Extended r (.tagged tag n) (.tagged tag n')

/-- An extension more is no telling key. -/
theorem hides_extension {keys more : List String} {key : String} (hkey : Usage.isExtension key = true) :
    r.hides (keys ++ key :: more) = r.hides (keys ++ more) := by
  have hany : ∀ silent,
      (keys ++ key :: more).any (Role.telling silent) = (keys ++ more).any (Role.telling silent) := by
    intro silent
    rw [List.any_append, List.any_append, List.any_cons, Role.telling, hkey, Bool.not_true, Bool.false_and,
      Bool.false_or]
  cases r with
  | member => exact hany _
  | schema mapped =>
    cases mapped with
    | false => rfl
    | true => exact hany _
  | _ => rfl

theorem plainEntries_extension {k : Key} {key : String} (hk : k.text = some key) (hkey : Usage.isExtension key = true)
    (value : Node) (rest : List (Key × Node)) :
    plainEntries r true ((k, value) :: rest) = plainEntries r true rest := by
  rw [plainEntries, hk]
  exact if_pos hkey

/-- **Adding an extension that does not show leaves the plain tree as it is.** -/
theorem plain_of_extended {n n' : Node} (h : Extended r n n') : n'.plain r = n.plain r := by
  induction h with
  | @here r before after k key value hk hkey hhides =>
    rw [plain, plain, keys_mapping_append, keys_mapping_cons hk, hides_extension hkey, ← keys_mapping_append, hhides,
      plainEntries_append, plainEntries_append, plainEntries_extension hk hkey]
  | @entry r before after k key n n' hk _ ih =>
    have hkeys : (Node.mapping (before ++ (k, n') :: after)).keys =
        (Node.mapping (before ++ (k, n) :: after)).keys := by
      rw [keys_mapping_append, keys_mapping_append, keys_mapping_cons hk, keys_mapping_cons hk]
    rw [plain, plain, hkeys, plainEntries_append, plainEntries_append, plainEntries, plainEntries, hk]
    dsimp only
    rw [ih]
  | @item r before after n n' _ ih =>
    rw [plain, plain, plainItems_eq_map, plainItems_eq_map, List.map_append, List.map_append, List.map_cons,
      List.map_cons, ih]
  | tagged tag _ ih => rw [plain, plain, ih]

/-- Adding any number of them. -/
theorem plain_of_extensions {n n' : Node} (h : Relation.ReflTransGen (Extended r) n n') : n'.plain r = n.plain r := by
  induction h with
  | refl => rfl
  | tail _ hlast ih => rw [plain_of_extended hlast, ih]

end Node

end OpenApi
