/-
  OpenApi.Proofs.Source.Slices — a search by byte offsets never cuts the text where it cannot be cut.

  A text can be cut at a byte only between two characters (`charsFrom`, `charsUpTo`). A search by offsets looks for each
  spelling of a key by itself, goes on one character after every place where the spelling does not stand as a key, and
  keeps the earliest span (`searchWords`). All its cuts are between characters, and the spans it comes to are the ones
  of `Source.locate` (`searchPath_eq`).
-/
import OpenApi.Proofs.Source.Search

namespace OpenApi.Source

variable {before after middle passed rest s w : List Char} {text : String} {words : List (List Char)}

/-! ## §1. Cuts. -/

/-- A cut that is refused: the offset is outside the text or inside a character. -/
structure BadCut where
  offset : Nat
  deriving DecidableEq, Repr

/-- The characters from a byte on. -/
def charsFrom (text : String) (offset : Nat) : Except BadCut (List Char) :=
  if h : (⟨offset⟩ : String.Pos.Raw).IsValid text then .ok (text.sliceFrom (text.pos ⟨offset⟩ h)).copy.toList
  else .error ⟨offset⟩

/-- The characters before a byte. -/
def charsUpTo (text : String) (offset : Nat) : Except BadCut (List Char) :=
  if h : (⟨offset⟩ : String.Pos.Raw).IsValid text then .ok (text.sliceTo (text.pos ⟨offset⟩ h)).copy.toList
  else .error ⟨offset⟩

theorem eq_ofList_append (h : text.toList = passed ++ rest) : text = String.ofList passed ++ String.ofList rest := by
  rw [← String.toList_inj, h]
  simp

/-- The byte after a part of the text is between two characters. -/
theorem isValid_of_cut (h : text.toList = passed ++ rest) : (⟨byteCount passed⟩ : String.Pos.Raw).IsValid text := by
  rw [String.Pos.Raw.isValid_iff_exists_append]
  refine ⟨String.ofList passed, String.ofList rest, eq_ofList_append h, ?_⟩
  apply String.Pos.Raw.ext
  show byteCount passed = (String.ofList passed).utf8ByteSize
  rw [utf8ByteSize_ofList]

theorem splits_of_cut (h : text.toList = passed ++ rest) :
    (text.pos ⟨byteCount passed⟩ (isValid_of_cut h)).Splits (String.ofList passed) (String.ofList rest) := by
  refine ⟨eq_ofList_append h, ?_⟩
  apply String.Pos.Raw.ext
  show byteCount passed = (String.ofList passed).utf8ByteSize
  rw [utf8ByteSize_ofList]

/-- **A cut between two characters is made.** -/
theorem charsFrom_of_cut (h : text.toList = passed ++ rest) : charsFrom text (byteCount passed) = .ok rest := by
  unfold charsFrom
  rw [dif_pos (isValid_of_cut h), (splits_of_cut h).copy_sliceFrom_eq, String.toList_ofList]

theorem charsUpTo_of_cut (h : text.toList = passed ++ rest) : charsUpTo text (byteCount passed) = .ok passed := by
  unfold charsUpTo
  rw [dif_pos (isValid_of_cut h), (splits_of_cut h).copy_sliceTo_eq, String.toList_ofList]

theorem le_of_charsFrom {offset : Nat} (h : charsFrom text offset = .ok s) : offset ≤ text.utf8ByteSize := by
  unfold charsFrom at h
  split at h
  next hvalid => exact hvalid.le_utf8ByteSize
  next => exact absurd h nofun

/-! ## §2. The first occurrence of a word. -/

/-- How many bytes lie before the first occurrence of a word. -/
def firstIn (w : List Char) : List Char → Option Nat
  | [] => none
  | d :: s => if w.isPrefixOf (d :: s) then some 0 else (firstIn w s).map (d.utf8Size + ·)

theorem firstIn_eq_none (hw : w ≠ []) (h : firstIn w s = none) (middle after : List Char) :
    s ≠ middle ++ w ++ after := by
  induction s generalizing middle with
  | nil =>
    intro heq
    have hnil := List.append_eq_nil_iff.1 heq.symm
    exact hw (List.append_eq_nil_iff.1 hnil.1).2
  | cons d s ih =>
    intro heq
    unfold firstIn at h
    split at h
    next => exact absurd h nofun
    next hnot =>
      rw [List.isPrefixOf_iff_prefix] at hnot
      cases middle with
      | nil => exact hnot ⟨after, heq.symm⟩
      | cons d' middle =>
        obtain ⟨rfl, hrest⟩ := List.cons.inj heq
        exact ih (Option.map_eq_none_iff.1 h) middle hrest

theorem firstIn_eq_some {n : Nat} (h : firstIn w s = some n) :
    (∃ middle after, s = middle ++ w ++ after ∧ byteCount middle = n) ∧
      ∀ middle after, s = middle ++ w ++ after → n ≤ byteCount middle := by
  induction s generalizing n with
  | nil => exact absurd h nofun
  | cons d s ih =>
    unfold firstIn at h
    split at h
    next hhere =>
      obtain ⟨after, hafter⟩ := List.isPrefixOf_iff_prefix.1 hhere
      cases h
      exact ⟨⟨[], after, hafter.symm, rfl⟩, fun _ _ _ => Nat.zero_le _⟩
    next hnot =>
      rw [List.isPrefixOf_iff_prefix] at hnot
      obtain ⟨m, hm, rfl⟩ := Option.map_eq_some_iff.1 h
      obtain ⟨⟨middle, after, rfl, hbytes⟩, hfirst⟩ := ih hm
      refine ⟨⟨d :: middle, after, rfl, by rw [byteCount_cons, hbytes]⟩, fun middle' after' heq => ?_⟩
      -- a match at the front was excluded, so any other match lies past the first character
      cases middle' with
      | nil => exact absurd ⟨after', heq.symm⟩ hnot
      | cons d' middle' =>
        obtain ⟨rfl, hrest⟩ := List.cons.inj heq
        have := hfirst middle' after' hrest
        rw [byteCount_cons]
        omega

/-! ## §3. The search for a word. -/

/-- How far the search steps from a place where a word does not stand as a key: over one character. -/
def stepOver : List Char → Nat
  | [] => 1
  | d :: _ => d.utf8Size

theorem stepOver_pos (s : List Char) : 0 < stepOver s := by
  cases s with
  | nil => exact Nat.one_pos
  | cons d s => exact d.utf8Size_pos

/-- The span of the first place from byte `start` on where a word stands as a key. -/
def searchWord (text : String) (w : List Char) (start : Nat) : Except BadCut (Option Span) :=
  match hfrom : charsFrom text start with
  -- past the end there is nothing to find
  | .error _ => .ok none
  | .ok rest =>
    have := le_of_charsFrom hfrom
    match firstIn w rest with
    | none => .ok none
    | some found => do
      let place := start + found
      let before ← charsUpTo text place
      let after ← charsFrom text (place + byteCount w)
      if startsKey before.getLast? && endsKey after then
        pure (some ⟨place, byteCount w⟩)
      else
        let here ← charsFrom text place
        searchWord text w (place + stepOver here)
termination_by text.utf8ByteSize + 1 - start
decreasing_by
  have hstep := stepOver_pos here
  omega

theorem searchWord_of_absent (hcut : text.toList = passed ++ rest) (hnone : firstIn w rest = none) :
    searchWord text w (byteCount passed) = .ok none := by
  have hfrom := charsFrom_of_cut hcut
  unfold searchWord
  split
  next heq => rfl
  next rest' heq =>
    obtain rfl : rest = rest' := Except.ok.inj (hfrom.symm.trans heq)
    rw [hnone]

theorem searchWord_of_found (hcut : text.toList = passed ++ (middle ++ w ++ after))
    (hfound : firstIn w (middle ++ w ++ after) = some (byteCount middle)) :
    searchWord text w (byteCount passed) =
      if startsKey (passed ++ middle).getLast? && endsKey after then
        .ok (some ⟨byteCount (passed ++ middle), byteCount w⟩)
      else searchWord text w (byteCount (passed ++ middle) + stepOver (w ++ after)) := by
  have hfrom := charsFrom_of_cut hcut
  -- the same cut seen from the three positions that the search reads at
  have hplace : text.toList = (passed ++ middle) ++ (w ++ after) := by
    simpa using hcut
  have hend : text.toList = (passed ++ middle ++ w) ++ after := by
    simpa using hcut
  conv_lhs => unfold searchWord
  split
  next heq => exact absurd (hfrom.symm.trans heq) nofun
  next rest' heq =>
    obtain rfl : middle ++ w ++ after = rest' := Except.ok.inj (hfrom.symm.trans heq)
    rw [hfound]
    dsimp only
    rw [← byteCount_append, ← byteCount_append, charsUpTo_of_cut hplace, charsFrom_of_cut hend,
      charsFrom_of_cut hplace]
    rfl

/-- A word stands at an occurrence just if a key may start and end there. -/
theorem wordAt_iff (hcut : text.toList = before ++ (w ++ after)) :
    WordAt text.toList w (byteCount before) ↔ (startsKey before.getLast? && endsKey after) = true := by
  rw [hcut, wordAt_here, Bool.and_eq_true, startsKey_iff, endsKey_iff]
  refine and_congr_right fun _ => ⟨?_, fun hcloses => ⟨after, rfl, hcloses⟩⟩
  rintro ⟨after', heq, hcloses⟩
  rw [List.append_cancel_left heq]
  exact hcloses

/-- A word stands nowhere before its first occurrence. -/
theorem WordAt.le_of_firstIn {found n : Nat} (h : WordAt text.toList w n) (hcut : text.toList = passed ++ rest)
    (hfirst : firstIn w rest = some found) (hle : byteCount passed ≤ n) : byteCount passed + found ≤ n := by
  rw [hcut] at h
  obtain ⟨middle, after, heq, hbytes, -⟩ := h.exists_after_cut hle
  have hleast := (firstIn_eq_some hfirst).2 middle after heq
  rw [byteCount_append] at hbytes
  omega

/-- A word that occurs nowhere in the rest of the text stands nowhere there. -/
theorem WordAt.lt_of_firstIn {n : Nat} (h : WordAt text.toList w n) (hw : w ≠ []) (hcut : text.toList = passed ++ rest)
    (hfirst : firstIn w rest = none) : n < byteCount passed := by
  by_contra hnot
  rw [hcut] at h
  obtain ⟨middle, after, heq, -⟩ := h.exists_after_cut (by omega)
  exact firstIn_eq_none hw hfirst middle after heq

/-- **The search for a word cuts only between characters, and finds the leftmost place.** -/
theorem searchWord_leftmost (hw : w ≠ []) (hcut : text.toList = passed ++ rest) :
    ∃ r, searchWord text w (byteCount passed) = .ok r ∧ Leftmost text.toList (· = w) (byteCount passed) r := by
  -- by how much of the text is left: a round that goes on has stepped over one character at least
  induction hlength : rest.length using Nat.strongRecOn generalizing passed rest with
  | ind length ih =>
    cases hfirst : firstIn w rest with
    | none =>
      refine ⟨none, searchWord_of_absent hcut hfirst, .absent ?_⟩
      rintro v rfl n hn
      exact hn.lt_of_firstIn hw hcut hfirst
    | some found =>
      obtain ⟨⟨middle, after, rfl, rfl⟩, -⟩ := firstIn_eq_some hfirst
      have hplace : ∀ n, WordAt text.toList w n → byteCount passed ≤ n → byteCount (passed ++ middle) ≤ n := by
        intro n hn hfrom
        rw [byteCount_append]
        exact hn.le_of_firstIn hcut hfirst hfrom
      have hcut' : text.toList = (passed ++ middle) ++ (w ++ after) := by
        simpa using hcut
      rw [searchWord_of_found hcut hfirst]
      by_cases hkey : (startsKey (passed ++ middle).getLast? && endsKey after) = true
      · rw [if_pos hkey]
        refine ⟨_, rfl, .found rfl ((wordAt_iff hcut').2 hkey) (by simp) ?_⟩
        rintro v rfl n hn hfrom
        exact hplace n hn hfrom
      · rw [if_neg hkey]
        have hnot : ¬WordAt text.toList w (byteCount (passed ++ middle)) := fun hat => hkey ((wordAt_iff hcut').1 hat)
        -- the search goes on after the first character of the occurrence
        obtain ⟨d, w, rfl⟩ := List.exists_cons_of_ne_nil hw
        have hnext : text.toList = (passed ++ middle ++ [d]) ++ (w ++ after) := by
          simpa using hcut'
        have hshorter : (w ++ after).length < length := by
          simp at hlength
          simp
          omega
        have hstep : byteCount (passed ++ middle) + stepOver (d :: w ++ after) =
            byteCount (passed ++ middle ++ [d]) := by
          simp [stepOver, Nat.add_assoc]
        obtain ⟨r, hr, hleft⟩ := ih _ hshorter hnext rfl
        rw [hstep]
        refine ⟨r, hr, hleft.start_earlier (by simp) ?_⟩
        rintro v rfl n hn hfrom
        have hlate := hplace n hn hfrom
        rw [hcut'] at hn hnot
        exact hn.after_next hlate hnot

/-! ## §4. The search for a key. -/

/-- The earlier one of two spans, and the first of them if they start together. -/
def earlier (best : Option Span) : Option Span → Option Span
  | none => best
  | some span =>
    match best with
    | none => some span
    | some b => if span.offset < b.offset then some span else some b

/-- The earliest span of words, looked for one after another. -/
def searchWords (text : String) (start : Nat) : List (List Char) → (best : Option Span) → Except BadCut (Option Span)
  | [], best => .ok best
  | w :: words, best => do
    let r ← searchWord text w start
    searchWords text start words (earlier best r)

namespace Leftmost

variable {text v : List Char} {P Q : List Char → Prop} {start : Nat} {span : Span} {best r : Option Span}

theorem le_of_wordAt {n : Nat} (h : Leftmost text P start (some span)) (hv : P v) (hn : WordAt text v n)
    (hfrom : start ≤ n) : span.offset ≤ n := by
  cases h with
  | found _ _ _ hfirst => exact hfirst v hv n hn hfrom

/-- A leftmost span stays so for more words that stand nowhere before it. -/
theorem or_later (h : Leftmost text P start (some span))
    (hlater : ∀ v, Q v → ∀ n, WordAt text v n → start ≤ n → span.offset ≤ n) :
    Leftmost text (fun v => P v ∨ Q v) start (some span) := by
  cases h with
  | found hword hat hstart hfirst =>
    refine .found (.inl hword) hat hstart ?_
    rintro v (hv | hv) n hn hfrom
    · exact hfirst v hv n hn hfrom
    · exact hlater v hv n hn hfrom

theorem or_none (h : Leftmost text P start r) (hnone : Leftmost text Q start none) :
    Leftmost text (fun v => P v ∨ Q v) start r := by
  cases hnone with
  | absent hnone =>
    cases r with
    | some span =>
      refine h.or_later fun v hv n hn hfrom => ?_
      have := hnone v hv n hn
      omega
    | none =>
      cases h with
      | absent h =>
        refine .absent ?_
        rintro v (hv | hv) n hn
        · exact h v hv n hn
        · exact hnone v hv n hn

theorem or_symm (h : Leftmost text (fun v => P v ∨ Q v) start r) : Leftmost text (fun v => Q v ∨ P v) start r := by
  simpa only [or_comm] using h

/-- The earlier one of two leftmost spans is leftmost for the words of both. -/
theorem earlier (hbest : Leftmost text P start best) (hr : Leftmost text Q start r) :
    Leftmost text (fun v => P v ∨ Q v) start (Source.earlier best r) := by
  cases r with
  | none => exact hbest.or_none hr
  | some span =>
    cases best with
    | none => exact (hr.or_none hbest).or_symm
    | some b =>
      unfold Source.earlier
      dsimp only
      by_cases hless : span.offset < b.offset
      · rw [if_pos hless]
        refine (hr.or_later fun v hv n hn hfrom => ?_).or_symm
        exact Nat.le_trans (Nat.le_of_lt hless) (hbest.le_of_wordAt hv hn hfrom)
      · rw [if_neg hless]
        refine hbest.or_later fun v hv n hn hfrom => ?_
        exact Nat.le_trans (Nat.le_of_not_lt hless) (hr.le_of_wordAt hv hn hfrom)

end Leftmost

theorem searchWords_leftmost {P : List Char → Prop} {best : Option Span} (hwords : ∀ w ∈ words, w ≠ [])
    (hcut : text.toList = passed ++ rest) (hbest : Leftmost text.toList P (byteCount passed) best) :
    ∃ r, searchWords text (byteCount passed) words best = .ok r ∧
      Leftmost text.toList (fun v => P v ∨ v ∈ words) (byteCount passed) r := by
  induction words generalizing P best with
  | nil => exact ⟨best, rfl, by simpa using hbest⟩
  | cons w words ih =>
    obtain ⟨hw, hwords⟩ := List.forall_mem_cons.1 hwords
    obtain ⟨r, hr, hleft⟩ := searchWord_leftmost hw hcut
    obtain ⟨result, hresult, hleftmost⟩ := ih hwords (hbest.earlier hleft)
    refine ⟨result, ?_, by simpa [or_assoc] using hleftmost⟩
    rw [searchWords, hr]
    exact hresult

/-- The span of the leftmost place of a key from a byte on. -/
def searchKey (text : String) (start : Nat) (key : String) : Except BadCut (Option Span) :=
  searchWords text start (spellings key.toList) none

theorem searchKey_leftmost (key : String) (hcut : text.toList = passed ++ rest) :
    ∃ r, searchKey text (byteCount passed) key = .ok r ∧
      Leftmost text.toList (Spells key.toList) (byteCount passed) r := by
  have hwords : ∀ w ∈ spellings key.toList, w ≠ [] := fun w hw => (mem_spellings.1 hw).ne_nil
  have hnothing : Leftmost text.toList (fun _ => False) (byteCount passed) none := .absent fun _ hv => hv.elim
  obtain ⟨r, hr, hleft⟩ := searchWords_leftmost hwords hcut hnothing
  refine ⟨r, hr, ?_⟩
  have hsame : (fun v => False ∨ v ∈ spellings key.toList) = Spells key.toList := by
    funext v
    simp [mem_spellings]
  rwa [hsame] at hleft

/-! ## §5. The search for a path. -/

/-- The span of the deepest key of a path that is found from byte `start` on. -/
def searchFrom (text : String) (start : Nat) (found : Option Span) : Path → Except BadCut (Option Span)
  | [] => .ok found
  | segment :: rest => do
    match ← searchKey text start segment with
    | some span => searchFrom text span.stop (some span) rest
    | none => if isIndex segment then searchFrom text start found rest else pure found

/-- The span of the deepest key of a path, by byte offsets. -/
def searchPath (s : Source) (path : Path) : Except BadCut (Option Span) := searchFrom s.text 0 none path

theorem searchFrom_located (path : Path) (found : Option Span) (hcut : text.toList = passed ++ rest) :
    ∃ r, searchFrom text (byteCount passed) found path = .ok r ∧
      Located text.toList (byteCount passed) found path r := by
  induction path generalizing passed rest found with
  | nil => exact ⟨found, rfl, .done⟩
  | cons segment path ih =>
    obtain ⟨r, hr, hleft⟩ := searchKey_leftmost segment hcut
    rw [searchFrom, hr]
    cases r with
    | some span =>
      -- the span ends where a cut of the text is
      obtain ⟨passed', rest', hcut', hstop⟩ :
          ∃ passed' rest', text.toList = passed' ++ rest' ∧ byteCount passed' = span.stop := by
        cases hleft with
        | @found w offset _ hat _ _ =>
          obtain ⟨before, after, heq, rfl, -⟩ := hat
          exact ⟨before ++ w, after, heq, byteCount_append before w⟩
      obtain ⟨result, hresult, hlocated⟩ := ih (some span) hcut'
      rw [hstop] at hresult hlocated
      exact ⟨result, hresult, .key hleft hlocated⟩
    | none =>
      by_cases hindex : isIndex segment = true
      · obtain ⟨result, hresult, hlocated⟩ := ih found hcut
        refine ⟨result, ?_, .item hleft (isIndex_iff.1 hindex) hlocated⟩
        show (if isIndex segment then _ else _) = _
        rw [if_pos hindex]
        exact hresult
      · refine ⟨found, ?_, .unknown hleft fun h => hindex (isIndex_iff.2 h)⟩
        show (if isIndex segment then _ else _) = _
        rw [if_neg hindex]
        rfl

/-- **The search by offsets asks for no bad cut, and finds the same span.** -/
theorem searchPath_eq (s : Source) (path : Path) : s.searchPath path = .ok (s.locate path) := by
  have hcut : s.text.toList = [] ++ s.text.toList := rfl
  obtain ⟨r, hr, hlocated⟩ := searchFrom_located path none hcut
  rw [locate_eq_iff.2 hlocated]
  exact hr

/-! ## §6. The span of a path. -/

/-- The span lies in the text, between characters, and what it covers is the segment, bare or in quotes, where a key
may start and end. -/
structure MarksKey (s : Source) (segment : String) (span : Span) : Prop where
  inside : span.stop ≤ s.text.utf8ByteSize
  starts : (⟨span.offset⟩ : String.Pos.Raw).IsValid s.text
  stops : (⟨span.stop⟩ : String.Pos.Raw).IsValid s.text
  spelled : Spells segment.toList (s.textOf span).toList
  stands : WordAt s.text.toList (s.textOf span).toList span.offset

theorem MarksKey.of_wordAt {s : Source} {segment : String} {w : List Char} {offset : Nat}
    (hspells : Spells segment.toList w) (hat : WordAt s.text.toList w offset) :
    s.MarksKey segment ⟨offset, byteCount w⟩ := by
  have hstands := hat
  obtain ⟨before, after, hcut, rfl, -, -⟩ := hat
  have htext : (s.textOf ⟨byteCount before, byteCount w⟩).toList = w := by
    rw [textOf_cut hcut, String.toList_ofList]
  have hstop : (⟨byteCount before, byteCount w⟩ : Span).stop = byteCount (before ++ w) := (byteCount_append _ _).symm
  have hstops : (⟨byteCount (before ++ w)⟩ : String.Pos.Raw).IsValid s.text := isValid_of_cut hcut
  have hstarts : (⟨byteCount before⟩ : String.Pos.Raw).IsValid s.text := by
    rw [List.append_assoc] at hcut
    exact isValid_of_cut hcut
  refine ⟨?_, hstarts, ?_, ?_, ?_⟩
  · rw [hstop]
    exact hstops.le_utf8ByteSize
  · rw [hstop]
    exact hstops
  · rwa [htext]
  · rwa [htext]

/-- **A path is located safely, and each key at its leftmost place.** A search by byte offsets comes to the span without
a bad cut; the span is the one that the relation tells, and there is no other; and it covers a segment of the path
where this stands as a key. -/
theorem locates_leftmost (s : Source) (path : Path) :
    s.searchPath path = .ok (s.locate path) ∧
      (∀ result, Located s.text.toList 0 none path result ↔ s.locate path = result) ∧
      (∀ span, s.locate path = some span → ∃ segment ∈ path, s.MarksKey segment span) := by
  refine ⟨searchPath_eq s path, fun result => locate_eq_iff.symm, fun span hspan => ?_⟩
  rcases (locate_eq_iff.1 hspan).stands with hnone | ⟨segment, hmem, w, offset, hspells, hat, heq⟩
  · exact absurd hnone nofun
  · obtain rfl := Option.some.inj heq
    exact ⟨segment, hmem, .of_wordAt hspells hat⟩

namespace Titles

/-- A text in which `title` stands first as a value and inside a word, and then as a key in quotes after a character of
two bytes. -/
def source : Source := ⟨"x: title\nsubtitle: é\n- 'title' : ö\n", "api.yaml"⟩

end Titles

open Titles in
/-- The key in quotes is located, past an index that stands nowhere. -/
theorem locates_title :
    source.locate ["x", "0", "title", "name"] = some ⟨24, 7⟩ ∧
      source.searchPath ["x", "0", "title", "name"] = .ok (some ⟨24, 7⟩) ∧
      Located source.text.toList 0 none ["x", "0", "title", "name"] (some ⟨24, 7⟩) ∧
      ∃ segment ∈ ["x", "0", "title", "name"], source.MarksKey segment ⟨24, 7⟩ := by
  have hspan : source.locate ["x", "0", "title", "name"] = some ⟨24, 7⟩ := by decide +kernel
  obtain ⟨hsearch, hlocated, hmarks⟩ := locates_leftmost source ["x", "0", "title", "name"]
  rw [hspan] at hsearch
  exact ⟨hspan, hsearch, (hlocated _).2 hspan, hmarks _ hspan⟩

end OpenApi.Source
