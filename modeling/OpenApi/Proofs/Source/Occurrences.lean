/-
  OpenApi.Proofs.Source.Occurrences — where a key stands in a text.

  A word stands at a byte of a text if the text goes on with the word there and a key may start before it and end
  after it (`WordAt`). A key stands where one of its spellings does, and at one place only one of them can
  (`Spells.eq_of_wordAt`). So the leftmost place from a byte on where a key stands tells the span of the key
  (`Leftmost.unique`). All of this is said on the text, without a search.
-/
import Mathlib.Data.List.Basic
import OpenApi.Source

namespace OpenApi.Source

variable {a b before after s text v w key : List Char} {c : Char}

/-! ## §1. Bytes. -/

theorem foldl_utf8Size (s : List Char) (n : Nat) : s.foldl (fun n c => n + c.utf8Size) n = n + byteCount s := by
  have hstart : ∀ m, s.foldl (fun n c => n + c.utf8Size) m = m + s.foldl (fun n c => n + c.utf8Size) 0 := by
    induction s with
    | nil => simp
    | cons c s ih =>
      intro m
      rw [List.foldl_cons, List.foldl_cons, ih, ih (0 + c.utf8Size)]
      omega
  exact hstart n

@[simp] theorem byteCount_nil : byteCount [] = 0 := rfl

@[simp] theorem byteCount_cons (c : Char) (s : List Char) : byteCount (c :: s) = c.utf8Size + byteCount s := by
  show s.foldl _ (0 + c.utf8Size) = _
  rw [foldl_utf8Size, Nat.zero_add]

@[simp] theorem byteCount_append (a b : List Char) : byteCount (a ++ b) = byteCount a + byteCount b := by
  induction a with
  | nil => simp
  | cons c a ih => simp [ih, Nat.add_assoc]

theorem byteCount_eq_zero (h : byteCount s = 0) : s = [] := by
  cases s with
  | nil => rfl
  | cons c s =>
    have := c.utf8Size_pos
    simp at h
    omega

/-- Characters that add no bytes are none. -/
theorem eq_nil_of_byteCount_le (h : byteCount (a ++ s) ≤ byteCount a) : s = [] := by
  apply byteCount_eq_zero
  rw [byteCount_append] at h
  omega

/-- The bytes of a text are those of its characters. -/
theorem utf8ByteSize_ofList (s : List Char) : (String.ofList s).utf8ByteSize = byteCount s := by
  induction s with
  | nil => rfl
  | cons c s ih =>
    have hcons : String.ofList (c :: s) = String.singleton c ++ String.ofList s := by
      rw [← String.toList_inj]
      simp
    rw [hcons, String.utf8ByteSize_append, String.utf8ByteSize_singleton, ih, byteCount_cons]

/-- Of two cuts of one text, the one after fewer bytes comes first. -/
theorem exists_between_cuts {a' b' : List Char} (h : a ++ b = a' ++ b') (hle : byteCount a ≤ byteCount a') :
    ∃ middle, a' = a ++ middle ∧ b = middle ++ b' := by
  rcases List.append_eq_append_iff.1 h with ⟨middle, ha, hb⟩ | ⟨middle, ha, hb⟩
  · exact ⟨middle, ha, hb⟩
  · obtain rfl := eq_nil_of_byteCount_le (ha ▸ hle)
    exact ⟨[], by simpa using ha.symm, by simpa using hb.symm⟩

/-- A text is cut in one way only after so many bytes. -/
theorem cut_unique {a' b' : List Char} (h : a ++ b = a' ++ b') (heq : byteCount a = byteCount a') :
    a = a' ∧ b = b' := by
  obtain ⟨middle, ha, hb⟩ := exists_between_cuts h (Nat.le_of_eq heq)
  obtain rfl := eq_nil_of_byteCount_le (ha ▸ Nat.le_of_eq heq.symm)
  exact ⟨by simpa using ha.symm, hb⟩

/-! ## §2. Spellings. -/

/-- The ways to write a key: in double or single quotes, and bare unless it is empty. -/
inductive Spells (key : List Char) : List Char → Prop
  | bare (h : key ≠ []) : Spells key key
  | double : Spells key ('"' :: key ++ ['"'])
  | single : Spells key ('\'' :: key ++ ['\''])

theorem mem_spellings : w ∈ spellings key ↔ Spells key w := by
  unfold spellings
  constructor
  · intro h
    rcases List.mem_append.1 h with hbare | hquoted
    -- the empty key has no bare spelling
    · cases key with
      | nil => exact absurd hbare List.not_mem_nil
      | cons c key =>
        rw [List.mem_singleton.1 hbare]
        exact .bare (List.cons_ne_nil c key)
    · simp only [List.mem_cons, List.not_mem_nil, or_false] at hquoted
      rcases hquoted with rfl | rfl
      · exact .double
      · exact .single
  · intro h
    cases h with
    | bare hkey =>
      apply List.mem_append_left
      simp [hkey]
    | double => simp
    | single => simp

theorem Spells.ne_nil (h : Spells key w) : w ≠ [] := by
  cases h with
  | bare hkey => exact hkey
  | double => simp
  | single => simp

/-! ## §3. Where a key may start and end. -/

/-- A key may start after `before`: at the start of the text, or after white space or one of `{`, `,`, `-`, `?`. -/
def Opens (before : List Char) : Prop :=
  before = [] ∨ ∃ front c, before = front ++ [c] ∧ (Text.isBlank c = true ∨ c ∈ ['\x7b', ',', '-', '?'])

/-- A key may end before `after`: spaces and tabs, and then a colon. -/
def Closes (after : List Char) : Prop :=
  ∃ gap rest, after = gap ++ ':' :: rest ∧ ∀ c ∈ gap, c = ' ' ∨ c = '\t'

theorem startsKey_iff : startsKey before.getLast? = true ↔ Opens before := by
  unfold Opens
  rcases List.eq_nil_or_concat before with rfl | ⟨front, c, rfl⟩
  · simp [startsKey]
  · have hlast : (front ++ [c]).getLast? = some c := List.getLast?_concat
    simp [hlast, startsKey, or_assoc]

theorem endsKey_iff : endsKey after = true ↔ Closes after := by
  unfold endsKey Closes
  rw [decide_eq_true_eq]
  constructor
  · intro h
    obtain ⟨rest, hrest⟩ : ∃ rest, after.dropWhile (fun c => decide (c = ' ') || decide (c = '\t')) = ':' :: rest := by
      exact List.head?_eq_some_iff.1 h
    refine ⟨after.takeWhile (fun c => decide (c = ' ') || decide (c = '\t')), rest, ?_, ?_⟩
    · rw [← hrest, List.takeWhile_append_dropWhile]
    · intro c hc
      simpa using List.all_eq_true.1 List.all_takeWhile c hc
  · rintro ⟨gap, rest, rfl, hgap⟩
    rw [List.dropWhile_append_of_pos]
    · rfl
    · intro c hc
      simpa using hgap c hc

theorem Closes.ne_nil (h : Closes after) : after ≠ [] := by
  obtain ⟨gap, rest, rfl, -⟩ := h
  simp

/-- No quote comes directly after a key. -/
theorem Closes.head_ne (h : Closes after) {q : Char} (hq : q = '"' ∨ q = '\'') : after.head? ≠ some q := by
  obtain ⟨gap, rest, rfl, hgap⟩ := h
  cases gap with
  | nil => rcases hq with rfl | rfl <;> simp
  | cons c gap =>
    have hc := hgap c List.mem_cons_self
    rcases hq with rfl | rfl <;> rcases hc with rfl | rfl <;> simp

/-! ## §4. Words in a text. -/

/-- The word stands at this byte of the text: a key may start before it and end after it. -/
def WordAt (text w : List Char) (offset : Nat) : Prop :=
  ∃ before after, text = before ++ w ++ after ∧ byteCount before = offset ∧ Opens before ∧ Closes after

/-- A word at the end of a part of the text. -/
theorem wordAt_here : WordAt (before ++ s) w (byteCount before) ↔
    Opens before ∧ ∃ after, s = w ++ after ∧ Closes after := by
  constructor
  · rintro ⟨before', after, hcut, hbytes, hopens, hcloses⟩
    rw [List.append_assoc] at hcut
    obtain ⟨rfl, rfl⟩ := cut_unique hcut hbytes.symm
    exact ⟨hopens, after, rfl, hcloses⟩
  · rintro ⟨hopens, after, rfl, hcloses⟩
    exact ⟨before, after, by rw [List.append_assoc], rfl, hopens, hcloses⟩

/-- A word that stands at or after a cut stands in the part after it. -/
theorem WordAt.exists_after_cut {offset : Nat} (h : WordAt (before ++ s) w offset) (hle : byteCount before ≤ offset) :
    ∃ middle after, s = middle ++ w ++ after ∧ byteCount (before ++ middle) = offset ∧ Closes after := by
  obtain ⟨before', after, hcut, hbytes, -, hcloses⟩ := h
  rw [List.append_assoc] at hcut
  obtain ⟨middle, rfl, rfl⟩ := exists_between_cuts hcut (by omega)
  exact ⟨middle, after, by rw [List.append_assoc], hbytes, hcloses⟩

/-- Nothing stands at the end of the text, where no colon follows. -/
theorem WordAt.lt_byteCount {offset : Nat} (h : WordAt text w offset) : offset < byteCount text := by
  obtain ⟨before, after, rfl, rfl, -, hcloses⟩ := h
  have hafter : byteCount after ≠ 0 := fun hzero => hcloses.ne_nil (byteCount_eq_zero hzero)
  simp only [byteCount_append]
  omega

/-- A word that stands at or after a cut, but not there, stands after the next character. -/
theorem WordAt.after_next {offset : Nat} (h : WordAt (before ++ c :: s) w offset) (hle : byteCount before ≤ offset)
    (hnot : ¬WordAt (before ++ c :: s) w (byteCount before)) : byteCount (before ++ [c]) ≤ offset := by
  obtain ⟨middle, after, hcut, hbytes, -⟩ := h.exists_after_cut hle
  cases middle with
  | nil =>
    rw [List.append_nil] at hbytes
    exact absurd h (hbytes ▸ hnot)
  | cons d middle =>
    obtain ⟨rfl, -⟩ := List.cons.inj hcut
    rw [← hbytes]
    simp

/-! ## §5. One spelling at a place. -/

/-- Before what follows a key, a text is not both the bare key and the key in quotes. -/
theorem head_of_bare_and_quoted {q : Char} {after' : List Char}
    (h : key ++ after = q :: (key ++ q :: after')) : after.head? = some q := by
  induction key with
  | nil =>
    rw [List.nil_append] at h
    rw [h]
    rfl
  | cons c key ih =>
    obtain ⟨rfl, hrest⟩ := List.cons.inj h
    exact ih hrest

/-- **Two spellings of a key that stand at one place are the same.** -/
theorem Spells.eq_of_wordAt {offset : Nat} (hv : Spells key v) (hw : Spells key w) (hatv : WordAt text v offset)
    (hatw : WordAt text w offset) : v = w := by
  obtain ⟨before, after, rfl, rfl, -, hcloses⟩ := hatv
  rw [List.append_assoc] at hatw
  obtain ⟨-, after', hsame, hcloses'⟩ := wordAt_here.1 hatw
  -- a key that is both bare and in quotes there would have a quote where a key ends
  have hbare : ∀ q, q = '"' ∨ q = '\'' → ∀ x y, Closes x → key ++ x ≠ q :: key ++ [q] ++ y := by
    intro q hq x y hx heq
    exact hx.head_ne hq (head_of_bare_and_quoted (by simpa using heq))
  cases hv with
  | bare _ =>
    cases hw with
    | bare _ => rfl
    | double => exact absurd hsame (hbare _ (.inl rfl) _ _ hcloses)
    | single => exact absurd hsame (hbare _ (.inr rfl) _ _ hcloses)
  | double =>
    cases hw with
    | bare _ => exact absurd hsame.symm (hbare _ (.inl rfl) _ _ hcloses')
    | double => rfl
    | single => exact absurd hsame (by simp)
  | single =>
    cases hw with
    | bare _ => exact absurd hsame.symm (hbare _ (.inr rfl) _ _ hcloses')
    | double => exact absurd hsame (by simp)
    | single => rfl

/-! ## §6. The leftmost place. -/

/-- What looking for words from byte `start` on comes to: the span of the leftmost place where one of them stands, or
nothing if none does. -/
inductive Leftmost (text : List Char) (words : List Char → Prop) (start : Nat) : Option Span → Prop
  | found {w : List Char} {offset : Nat} (hword : words w) (hat : WordAt text w offset) (hstart : start ≤ offset)
      (hfirst : ∀ v, words v → ∀ n, WordAt text v n → start ≤ n → offset ≤ n) :
      Leftmost text words start (some ⟨offset, byteCount w⟩)
  | absent (h : ∀ v, words v → ∀ n, WordAt text v n → n < start) : Leftmost text words start none

namespace Leftmost

variable {words : List Char → Prop} {start : Nat} {r : Option Span}

/-- The search may start earlier, if no word stands in between. -/
theorem start_earlier {start' : Nat} (h : Leftmost text words start' r) (hle : start ≤ start')
    (hnone : ∀ v, words v → ∀ n, WordAt text v n → start ≤ n → start' ≤ n) : Leftmost text words start r := by
  cases h with
  | found hword hat hstart hfirst =>
    exact .found hword hat (Nat.le_trans hle hstart) fun v hv n hn hfrom => hfirst v hv n hn (hnone v hv n hn hfrom)
  | absent h =>
    refine .absent fun v hv n hn => ?_
    by_contra hnot
    have hlate := hnone v hv n hn (by omega)
    have := h v hv n hn
    omega

/-- **There is only one leftmost span of a key.** -/
theorem unique {r' : Option Span} (h : Leftmost text (Spells key) start r) (h' : Leftmost text (Spells key) start r') :
    r = r' := by
  cases h with
  | @found w offset hword hat hstart hfirst =>
    cases h' with
    | @found w' offset' hword' hat' hstart' hfirst' =>
      -- each of the two is at or before the other
      obtain rfl : offset = offset' := Nat.le_antisymm (hfirst w' hword' offset' hat' hstart')
        (hfirst' w hword offset hat hstart)
      rw [hword.eq_of_wordAt hword' hat hat']
    | absent hnone =>
      have := hnone w hword offset hat
      omega
  | absent hnone =>
    cases h' with
    | @found w' offset' hword' hat' hstart' _ =>
      have := hnone w' hword' offset' hat'
      omega
    | absent _ => rfl

end Leftmost

end OpenApi.Source
