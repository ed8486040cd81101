/-
  OpenApi.Proofs.Source.Search — a path is located key by key, each at its leftmost place.

  A cursor that stands in a text is moved on by the search without leaving the text (`findSpelling_place`), and what it
  finds is the leftmost place from there on where the key stands (`findKey_leftmost`). What locating a path comes to is
  told step by step by a relation (`Located`): a key that is found, an index that is passed over, or the end of the
  search. Exactly one result stands in this relation to a path, and it is the one that `locate` gives
  (`locate_eq_iff`).
-/
import OpenApi.Proofs.Source.Occurrences

namespace OpenApi.Source

variable {before middle passed rest s w text : List Char} {words : List (List Char)} {c : Cursor}

/-! ## §1. Cursors. -/

/-- The cursor in a text after the part that was passed. -/
def Cursor.after (passed rest : List Char) : Cursor := ⟨passed.getLast?, byteCount passed, rest⟩

theorem Cursor.after_concat (passed : List Char) (d : Char) (rest : List Char) :
    Cursor.after (passed ++ [d]) rest = ⟨some d, byteCount passed + d.utf8Size, rest⟩ := by
  simp [Cursor.after]

/-- A cursor that is moved over a word stands after it. -/
theorem Cursor.advance_after (passed w rest : List Char) :
    (Cursor.after passed (w ++ rest)).advance w.length = Cursor.after (passed ++ w) rest := by
  induction w generalizing passed with
  | nil =>
    rw [List.append_nil]
    rfl
  | cons d w ih =>
    have hstep : (Cursor.after passed (d :: (w ++ rest))).advance (w.length + 1) =
        (Cursor.after (passed ++ [d]) (w ++ rest)).advance w.length := by
      rw [Cursor.after_concat]
      rfl
    calc (Cursor.after passed (d :: w ++ rest)).advance (d :: w).length
        = (Cursor.after (passed ++ [d]) (w ++ rest)).advance w.length := hstep
      _ = Cursor.after (passed ++ [d] ++ w) rest := ih (passed ++ [d])
      _ = Cursor.after (passed ++ d :: w) rest := by rw [List.append_assoc]; rfl

/-! ## §2. The words at a cursor. -/

/-- The word of a list that stands at the cursor after `before`. -/
def wordHere (words : List (List Char)) (before s : List Char) : Option (List Char) :=
  if startsKey before.getLast? then spellingAt words s else none

theorem wordHere_eq_some (h : wordHere words before s = some w) :
    w ∈ words ∧ (∃ after, s = w ++ after) ∧ WordAt (before ++ s) w (byteCount before) := by
  unfold wordHere at h
  split at h
  next hstarts =>
    have hhere := List.find?_some h
    rw [Bool.and_eq_true, List.isPrefixOf_iff_prefix] at hhere
    obtain ⟨⟨after, rfl⟩, hends⟩ := hhere
    rw [List.drop_left] at hends
    refine ⟨List.mem_of_find?_eq_some h, ⟨after, rfl⟩, wordAt_here.2 ⟨startsKey_iff.1 hstarts, after, rfl, ?_⟩⟩
    exact endsKey_iff.1 hends
  next => exact absurd h nofun

theorem wordHere_eq_none (h : wordHere words before s = none) (hw : w ∈ words) :
    ¬WordAt (before ++ s) w (byteCount before) := by
  intro hat
  obtain ⟨hopens, after, rfl, hcloses⟩ := wordAt_here.1 hat
  unfold wordHere at h
  rw [if_pos (startsKey_iff.2 hopens)] at h
  have hnot := List.find?_eq_none.1 h w hw
  rw [List.drop_left, endsKey_iff.2 hcloses, Bool.and_true, List.isPrefixOf_iff_prefix] at hnot
  exact hnot ⟨after, rfl⟩

/-! ## §3. The search. -/

theorem findSpelling_cons_of_some {d : Char} (h : wordHere words passed (d :: rest) = some w) :
    findSpelling words passed.getLast? (byteCount passed) (d :: rest) = some (Cursor.after passed (d :: rest), w) := by
  unfold findSpelling
  unfold wordHere at h
  rw [h]
  rfl

theorem findSpelling_cons_of_none {d : Char} (h : wordHere words passed (d :: rest) = none) :
    findSpelling words passed.getLast? (byteCount passed) (d :: rest) =
      findSpelling words (passed ++ [d]).getLast? (byteCount (passed ++ [d])) rest := by
  rw [findSpelling]
  unfold wordHere at h
  rw [h]
  simp

/-- The search finds a place further on in the text, and the word there. -/
theorem findSpelling_place (h : findSpelling words passed.getLast? (byteCount passed) rest = some (c, w)) :
    ∃ middle after, rest = middle ++ (w ++ after) ∧ c = Cursor.after (passed ++ middle) (w ++ after) := by
  induction rest generalizing passed with
  | nil => exact absurd h nofun
  | cons d rest ih =>
    cases hhere : wordHere words passed (d :: rest) with
    | some v =>
      rw [findSpelling_cons_of_some hhere] at h
      obtain ⟨rfl, rfl⟩ := Prod.mk.inj (Option.some.inj h)
      obtain ⟨-, ⟨after, hafter⟩, -⟩ := wordHere_eq_some hhere
      exact ⟨[], after, hafter, by rw [List.append_nil, hafter]⟩
    | none =>
      rw [findSpelling_cons_of_none hhere] at h
      obtain ⟨middle, after, rfl, rfl⟩ := ih h
      exact ⟨d :: middle, after, rfl, by rw [List.append_assoc]; rfl⟩

/-- The span of what the search found. -/
def spanFound (found : Cursor × List Char) : Span := ⟨found.1.offset, byteCount found.2⟩

/-- **The search finds the leftmost place.** -/
theorem findSpelling_leftmost (words : List (List Char)) (passed rest : List Char) :
    Leftmost (passed ++ rest) (· ∈ words) (byteCount passed)
      ((findSpelling words passed.getLast? (byteCount passed) rest).map spanFound) := by
  induction rest generalizing passed with
  | nil =>
    refine .absent fun v _ n hn => ?_
    rw [List.append_nil] at hn
    exact hn.lt_byteCount
  | cons d rest ih =>
    cases hhere : wordHere words passed (d :: rest) with
    | some w =>
      rw [findSpelling_cons_of_some hhere]
      obtain ⟨hw, -, hat⟩ := wordHere_eq_some hhere
      exact .found hw hat (Nat.le_refl _) fun _ _ _ _ hfrom => hfrom
    | none =>
      rw [findSpelling_cons_of_none hhere]
      have hlater := ih (passed ++ [d])
      rw [List.append_assoc] at hlater
      -- no word stands at the first character, so the next one is early enough to start
      refine hlater.start_earlier (by simp) fun v hv n hn hfrom => ?_
      exact hn.after_next hfrom (wordHere_eq_none hhere hv)

theorem findKey_leftmost (key : String) (passed rest : List Char) :
    Leftmost (passed ++ rest) (Spells key.toList) (byteCount passed)
      ((findKey key (Cursor.after passed rest)).map (·.1)) := by
  have hwords : (· ∈ spellings key.toList) = Spells key.toList := by
    funext w
    exact propext mem_spellings
  have h := findSpelling_leftmost (spellings key.toList) passed rest
  rw [hwords] at h
  unfold findKey
  rw [Option.map_map]
  exact h

/-- The search for a key goes on after the key that was found. -/
theorem findKey_place {key : String} {span : Span} (h : findKey key (Cursor.after passed rest) = some (span, c)) :
    ∃ passed' rest', passed ++ rest = passed' ++ rest' ∧ c = Cursor.after passed' rest' ∧
      byteCount passed' = span.stop := by
  obtain ⟨⟨place, w⟩, hfound, hpair⟩ := Option.map_eq_some_iff.1 h
  obtain ⟨rfl, rfl⟩ := Prod.mk.inj hpair
  obtain ⟨middle, after, rfl, rfl⟩ := findSpelling_place hfound
  refine ⟨passed ++ middle ++ w, after, by simp, Cursor.advance_after _ w after, ?_⟩
  rw [byteCount_append]
  rfl

/-! ## §4. Indices. -/

/-- A segment is an unsigned index: decimal digits, with at most a plus sign before them, that write a number of 64
bits. -/
def IsIndex (segment : String) : Prop :=
  ∃ digits, (segment.toList = digits ∨ segment.toList = '+' :: digits) ∧ digits ≠ [] ∧
    (∀ d ∈ digits, d.isDigit = true) ∧ Nat.ofDigitChars 10 digits 0 < Nat.pow 2 64

theorem digits?_eq_some {n m : Nat} : Text.digits? n s = some m ↔
    (∀ d ∈ s, d.isDigit = true) ∧ Nat.ofDigitChars 10 s n = m := by
  induction s generalizing n with
  | nil => simp [Text.digits?, Nat.ofDigitChars]
  | cons d s ih =>
    rw [Text.digits?, List.forall_mem_cons]
    by_cases hd : d.isDigit = true
    · rw [if_pos hd, ih]
      simp [hd, Nat.ofDigitChars]
    · simp [hd]

theorem withoutPlus_eq (s : List Char) : s = Text.withoutPlus s ∨ s = '+' :: Text.withoutPlus s := by
  unfold Text.withoutPlus
  split
  next => exact .inr rfl
  next => exact .inl rfl

theorem withoutPlus_of_digits (h : ∀ d ∈ s, d.isDigit = true) : Text.withoutPlus s = s := by
  rcases withoutPlus_eq s with heq | heq
  · exact heq.symm
  · have hplus : Char.isDigit '+' = true := h '+' (by rw [heq]; exact List.mem_cons_self)
    exact absurd hplus (by decide)

theorem isSome_unsigned? {bound : Nat} {text : String} : (Text.unsigned? bound text).isSome = true ↔
    Text.withoutPlus text.toList ≠ [] ∧ ∃ n, Text.digits? 0 (Text.withoutPlus text.toList) = some n ∧ n < bound := by
  unfold Text.unsigned?
  cases Text.withoutPlus text.toList with
  | nil => simp
  | cons d digits =>
    dsimp only
    cases Text.digits? 0 (d :: digits) with
    | none => simp
    | some n =>
      by_cases hn : n < bound
      · simp [hn]
      · simp [hn]

theorem isIndex_iff {segment : String} : isIndex segment = true ↔ IsIndex segment := by
  unfold isIndex
  rw [isSome_unsigned?]
  constructor
  · rintro ⟨hne, n, hn, hbound⟩
    obtain ⟨hdigits, hvalue⟩ := digits?_eq_some.1 hn
    refine ⟨Text.withoutPlus segment.toList, withoutPlus_eq _, hne, hdigits, ?_⟩
    rw [hvalue]
    exact hbound
  · rintro ⟨digits, hwritten, hne, hdigits, hbound⟩
    have hplus : Text.withoutPlus segment.toList = digits := by
      rcases hwritten with heq | heq
      · rw [heq, withoutPlus_of_digits hdigits]
      · rw [heq]
        rfl
    rw [hplus]
    exact ⟨hne, _, digits?_eq_some.2 ⟨hdigits, rfl⟩, hbound⟩

/-! ## §5. Paths. -/

/-- What locating a path comes to from byte `start` on, where `found` is the span found so far. Each segment is looked
for after the one before it. An index that stands nowhere is passed over, and any other segment that stands nowhere
ends the search. -/
inductive Located (text : List Char) : (start : Nat) → (found : Option Span) → Path → Option Span → Prop
  | done {start : Nat} {found : Option Span} : Located text start found [] found
  | key {start : Nat} {found result : Option Span} {segment : String} {rest : Path} {span : Span}
      (hkey : Leftmost text (Spells segment.toList) start (some span))
      (hrest : Located text span.stop (some span) rest result) : Located text start found (segment :: rest) result
  | item {start : Nat} {found result : Option Span} {segment : String} {rest : Path}
      (hnone : Leftmost text (Spells segment.toList) start none) (hindex : IsIndex segment)
      (hrest : Located text start found rest result) : Located text start found (segment :: rest) result
  | unknown {start : Nat} {found : Option Span} {segment : String} {rest : Path}
      (hnone : Leftmost text (Spells segment.toList) start none) (hindex : ¬IsIndex segment) :
      Located text start found (segment :: rest) found

variable {start : Nat} {found result : Option Span} {path : Path}

/-- **A path is located in one way.** -/
theorem Located.unique {result' : Option Span} (h : Located text start found path result)
    (h' : Located text start found path result') : result = result' := by
  -- what looking for the first segment comes to tells which rule applies
  induction h generalizing result' with
  | done =>
    cases h'
    rfl
  | key hkey _ ih =>
    cases h' with
    | key hkey' hrest' =>
      obtain rfl := Option.some.inj (hkey.unique hkey')
      exact ih hrest'
    | item hnone' => exact absurd (hkey.unique hnone') nofun
    | unknown hnone' => exact absurd (hkey.unique hnone') nofun
  | item hnone hindex _ ih =>
    cases h' with
    | key hkey' => exact absurd (hnone.unique hkey') nofun
    | item _ _ hrest' => exact ih hrest'
    | unknown _ hindex' => exact absurd hindex hindex'
  | unknown hnone hindex =>
    cases h' with
    | key hkey' => exact absurd (hnone.unique hkey') nofun
    | item _ hindex' => exact absurd hindex' hindex
    | unknown => rfl

/-- What is located is what was found before, or a spelling of a segment that stands in the text. -/
theorem Located.stands (h : Located text start found path result) :
    result = found ∨ ∃ segment ∈ path, ∃ w offset, Spells segment.toList w ∧ WordAt text w offset ∧
      result = some ⟨offset, byteCount w⟩ := by
  induction h with
  | done => exact .inl rfl
  | unknown _ _ => exact .inl rfl
  | @key _ _ _ segment _ span hkey _ ih =>
    right
    rcases ih with rfl | ⟨segment', hmem, hstands⟩
    · cases hkey with
      | found hword hat _ _ => exact ⟨segment, List.mem_cons_self, _, _, hword, hat, rfl⟩
    · exact ⟨segment', List.mem_cons_of_mem _ hmem, hstands⟩
  | item _ _ _ ih =>
    refine ih.imp_right ?_
    rintro ⟨segment', hmem, hstands⟩
    exact ⟨segment', List.mem_cons_of_mem _ hmem, hstands⟩

theorem locateFrom_located (passed rest : List Char) (found : Option Span) (path : Path) :
    Located (passed ++ rest) (byteCount passed) found path (locateFrom (Cursor.after passed rest) found path) := by
  -- for every cut of the text, since the next segment is looked for after the key that was found
  induction path generalizing passed rest found with
  | nil => exact .done
  | cons segment path ih =>
    have hleft := findKey_leftmost segment passed rest
    unfold locateFrom
    cases hkey : findKey segment (Cursor.after passed rest) with
    | some pair =>
      obtain ⟨span, c⟩ := pair
      rw [hkey] at hleft
      obtain ⟨passed', rest', hcut, rfl, hstop⟩ := findKey_place hkey
      refine .key hleft ?_
      rw [hcut, ← hstop]
      exact ih passed' rest' (some span)
    | none =>
      rw [hkey] at hleft
      dsimp only
      split
      next hindex => exact .item hleft (isIndex_iff.1 hindex) (ih passed rest found)
      next hindex => exact .unknown hleft fun h => hindex (isIndex_iff.2 h)

/-- **The span of a path is the one that the relation tells.** -/
theorem locate_eq_iff {s : Source} : s.locate path = result ↔ Located s.text.toList 0 none path result := by
  have hlocated : Located s.text.toList 0 none path (s.locate path) := locateFrom_located [] s.text.toList none path
  constructor
  · rintro rfl
    exact hlocated
  · exact hlocated.unique

/-! ## §6. The text of a span. -/

theorem charsWithin_append (span : Span) (offset : Nat) (a b : List Char) :
    charsWithin span offset (a ++ b) = charsWithin span offset a ++ charsWithin span (offset + byteCount a) b := by
  induction a generalizing offset with
  | nil => rfl
  | cons d a ih =>
    simp only [List.cons_append, charsWithin, ih, byteCount_cons, Nat.add_assoc]
    split
    next => rfl
    next => rfl

/-- The characters of a part of the text that lies before or after a span are not in it. -/
theorem charsWithin_outside {span : Span} {offset : Nat} {a : List Char}
    (h : offset + byteCount a ≤ span.offset ∨ span.stop ≤ offset) : charsWithin span offset a = [] := by
  induction a generalizing offset with
  | nil => rfl
  | cons d a ih =>
    have hd := d.utf8Size_pos
    rw [byteCount_cons] at h
    have hrest : charsWithin span (offset + d.utf8Size) a = [] := ih (by omega)
    have hnot : ¬(span.offset ≤ offset ∧ offset < span.stop) := by omega
    simp only [charsWithin, hrest, Bool.and_eq_true, decide_eq_true_eq, if_neg hnot]

theorem charsWithin_inside {span : Span} {offset : Nat} {a : List Char} (hstart : span.offset ≤ offset)
    (hstop : offset + byteCount a ≤ span.stop) : charsWithin span offset a = a := by
  induction a generalizing offset with
  | nil => rfl
  | cons d a ih =>
    have hd := d.utf8Size_pos
    rw [byteCount_cons] at hstop
    have hrest : charsWithin span (offset + d.utf8Size) a = a := ih (by omega) (by omega)
    have hin : span.offset ≤ offset ∧ offset < span.stop := by omega
    simp only [charsWithin, hrest, Bool.and_eq_true, decide_eq_true_eq, if_pos hin]

/-- The text of a span is the part of the text that it covers. -/
theorem textOf_cut {s : Source} {after : List Char} (h : s.text.toList = before ++ w ++ after) :
    s.textOf ⟨byteCount before, byteCount w⟩ = String.ofList w := by
  -- of the three parts of the text only the middle one is within the span
  unfold textOf
  rw [h, charsWithin_append, charsWithin_append]
  rw [charsWithin_outside (.inl (by simp)), charsWithin_inside (by simp) (by simp [Span.stop]),
    charsWithin_outside (.inr (by simp [Span.stop]))]
  simp

end OpenApi.Source
