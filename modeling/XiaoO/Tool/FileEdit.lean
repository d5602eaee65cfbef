import XiaoO.Tool.FileRead

/-!
# The file_edit tool

`file_edit/executor/backend.rs`: the bytes of the file are decoded, the text to replace is looked
up, an occurrence or all of them are replaced, and the result is encoded and written. The text is
taken as it was given if it occurs, else with its curly quotes straightened, else as the only block
of whole lines that is equal to it up to white space (`find_actual_string` in `file_edit/utils.rs`).
`file_edit/validation/backend.rs` refuses a request beforehand if, among other things, the text is
not found, or occurs more than once and not all are to be replaced.

## The model

Texts are lists of characters. The line table of `find_whitespace_tolerant_match`, pairs of byte
offsets into the text, is the list of the lines. A call is one function of what the backend answers;
the patch and the diagnostics of its output are left out.

## What is proved

The text that is found occurs (`findActualString_occurs`). A request that is accepted and asks for
one replacement is carried out, and replaces the text at one of its occurrences
(`invoke_of_accepted`). So the bytes outside are the same exactly if the file was UTF-8
(`edit_frame_iff`): what could not be decoded is written back as replacement characters
(`edit_of_invalid_utf8`). Restyled quotes are the same up to their style exactly if no two of a
restyled kind stand in a row (`preserveQuoteStyle_same_iff`).
-/

namespace XiaoO.Tool.Edit

open XiaoO.Base XiaoO.Tool.Read
open List hiding utf8Encode utf8Encode_append utf8Encode_cons

/-! ### Finding the text -/

def leftSingleCurlyQuote : Char := '‘'

def rightSingleCurlyQuote : Char := '’'

def leftDoubleCurlyQuote : Char := '“'

def rightDoubleCurlyQuote : Char := '”'

variable (content search s : List Char)

def normalizeQuotes : List Char :=
  s.map fun c =>
    if c = leftSingleCurlyQuote ∨ c = rightSingleCurlyQuote then '\''
    else if c = leftDoubleCurlyQuote ∨ c = rightDoubleCurlyQuote then '"'
    else c

def collapseWhitespace : List Char := [' '].intercalate ((s.splitOnP isWhitespace).filter (· ≠ []))

/-- The lines of a text, between its line feeds. -/
def linesOf : List (List Char) := s.splitOn '\n'

/-- The `m` lines from a line on. -/
def window (lines : List (List Char)) (start m : ℕ) : List (List Char) := (lines.drop start).take m

/-- The lines from which on the text has the lines of another, up to white space. -/
def matchingStarts : List ℕ :=
  let searchNorm := (linesOf search).map collapseWhitespace
  let lines := linesOf content
  (range (lines.length + 1 - searchNorm.length)).filter fun start =>
    (window lines start searchNorm.length).map collapseWhitespace = searchNorm

def findWhitespaceTolerantMatch : Option (List Char) :=
  if search.isEmpty then none
  else if (linesOf search).all fun line => (collapseWhitespace line).isEmpty then none
  else
    match matchingStarts content search with
    | [start] => some (['\n'].intercalate (window (linesOf content) start (linesOf search).length))
    | _ => none

def contains : Bool := (before? search content).isSome

def findActualString : Option (List Char) :=
  if contains content search then some search
  else
    let normalized := normalizeQuotes search
    if contains content normalized then some normalized else findWhitespaceTolerantMatch content normalized

/-! ### Replacing it -/

/-- The quotes of the replacement: a straight one is a left one, two in a row are a right one. -/
def styleQuotes (single double : Bool) : List Char → List Char
  | [] => []
  | '\'' :: '\'' :: s =>
    if single then rightSingleCurlyQuote :: styleQuotes single double s
    else '\'' :: '\'' :: styleQuotes single double s
  | '"' :: '"' :: s =>
    if double then rightDoubleCurlyQuote :: styleQuotes single double s
    else '"' :: '"' :: styleQuotes single double s
  | c :: s =>
    (if c = '\'' ∧ single then leftSingleCurlyQuote else if c = '"' ∧ double then leftDoubleCurlyQuote else c) ::
      styleQuotes single double s

def preserveQuoteStyle (actualOldString newString : List Char) : List Char :=
  let hasCurlySingle := leftSingleCurlyQuote ∈ actualOldString ∨ rightSingleCurlyQuote ∈ actualOldString
  let hasCurlyDouble := leftDoubleCurlyQuote ∈ actualOldString ∨ rightDoubleCurlyQuote ∈ actualOldString
  if ¬hasCurlySingle ∧ ¬hasCurlyDouble then newString else styleQuotes hasCurlySingle hasCurlyDouble newString

def applyEditToFile (oldString newString : List Char) (replaceAll : Bool) : Option (List Char) :=
  if oldString.isEmpty ∧ newString.isEmpty then some content
  else if replaceAll then
    if contains content oldString then some (replaceMatches oldString newString 0 content) else none
  else
    (before? oldString content).map fun start => start ++ newString ++ content.drop (start.length + oldString.length)

/-! ### Validation -/

structure FileEditInput where
  filePath : String
  oldString : List Char
  newString : List Char
  replaceAll : Bool

/-- `PathStat`, as far as it is looked at. -/
structure PathStat where
  /-- `exists`. -/
  existing : Bool
  sizeBytes : Option ℕ
  modifiedAt : Option ℤ

/-- `ValidationResult`: the code and the message of an error. -/
abbrev ValidationResult := Except (ℕ × String) Unit

def maxEditFileSize : ℕ := 1024 * 1024 * 1024

def isNotebookFile (path : String) : Bool := isNotebookExtension (getExtension path)

def countOccurrences : ℕ := countMatches search 0 content

variable (input : FileEditInput)

def validateNoChange : ValidationResult :=
  if input.oldString = input.newString then
    .error (1, "No change: old_string and new_string are identical") else .ok ()

def validateNotNotebook (path : String) : ValidationResult :=
  if isNotebookFile path then .error (5, "Notebook files (.ipynb) cannot be edited: " ++ path) else .ok ()

def validateStat (content : Option (List Char)) (path : String) (stat : PathStat) : ValidationResult :=
  if input.oldString ≠ [] then
    if stat.existing = false then .error (4, "File not found: " ++ path)
    else
      match stat.sizeBytes with
      | some size =>
        if size > maxEditFileSize then
          .error (10, "File too large: " ++ toString size ++ " bytes (max: " ++ toString
            maxEditFileSize ++ " bytes)")
        else .ok ()
      | none => .ok ()
  else if stat.existing ∧ content.getD [] ≠ [] then
    .error (3, "Cannot create file with content when file exists and is not empty: " ++ path)
  else .ok ()

/-- The check that the file has the modification time with which it was read. -/
def validateUnmodified (store : DedupStateStore) (path : String) (mtime : ℤ) : ValidationResult :=
  match store.get? path with
  | some state =>
    if input.oldString ≠ [] ∧ state.timestamp ≠ mtime then
      .error (7, "File modified since read: " ++ path ++ " (mtime changed from " ++ toString
        state.timestamp ++ " to " ++
        toString mtime ++ ")")
    else .ok ()
  | none => .ok ()

def validateOldStringExists : ValidationResult :=
  if (findActualString content input.oldString).isNone then
    .error (8, "old_string not found in file: " ++ String.ofList input.oldString)
  else .ok ()

def validateAmbiguousMatch : ValidationResult :=
  if input.replaceAll then .ok ()
  else
    match findActualString content input.oldString with
    | some actualString =>
      let occurrences := countOccurrences content actualString
      if occurrences > 1 then
        .error (9, "Ambiguous match: old_string appears " ++ toString
          occurrences ++ " times but replace_all is false")
      else .ok ()
    | none => .ok ()

def validateContent (content : Option (List Char)) (input : FileEditInput) : ValidationResult :=
  match content with
  | some c =>
    if input.oldString ≠ [] then do
      validateOldStringExists c input
      validateAmbiguousMatch c input
    else .ok ()
  | none => .ok ()

def validateInputBackend (content : Option (List Char)) (store : DedupStateStore)
    (path : String) (stat : PathStat) (mtime : ℤ) : ValidationResult := do
  validateNoChange input
  validateNotNotebook path
  validateStat input content path stat
  validateUnmodified input store path mtime
  validateContent content input

/-! ### The call -/

/-- `FileEditExecutor::invoke`, with what `stat` says and the bytes of the file if it exists: the
bytes that are written, or the error. -/
def invoke (store : DedupStateStore) (path : String) (stat : PathStat) (bytes : List UInt8) :
    Except String (List UInt8) :=
  let fileContent := if stat.existing then some (fromUtf8Lossy bytes) else none
  match validateInputBackend input fileContent store path stat (systemTimeToTimestamp stat.modifiedAt) with
  | .error (code, message) => .error ("[error_code=" ++ toString code ++ "] " ++ message)
  | .ok () =>
    if input.oldString.isEmpty then .ok (utf8Encode input.newString)
    else
      match fileContent with
      | none => .error ("File not found: " ++ path)
      | some content =>
        match findActualString content input.oldString with
        | none => .error ("old_string not found in file: " ++ String.ofList input.oldString)
        | some actualOldString =>
          let styledNewString := preserveQuoteStyle actualOldString input.newString
          match applyEditToFile content actualOldString styledNewString input.replaceAll with
          | none => .error "Failed to apply edit: old_string not found in file"
          | some updatedContent => .ok (utf8Encode updatedContent)

/-! ### What is found occurs -/

variable {content search actual : List Char}

theorem contains_iff : contains content search = true ↔ search <:+: content := before?_isSome_iff

def beforeLine (content : List Char) (start : ℕ) : List Char := ((linesOf content).take start).flatMap (· ++ ['\n'])

theorem linesOf_length_pos : 0 < (linesOf s).length := length_pos_iff.mpr (splitOn_ne_nil _ _)

theorem mem_matchingStarts {s : ℕ} (h : s ∈ matchingStarts content search) :
    s + (linesOf search).length ≤ (linesOf content).length ∧
      (window (linesOf content) s (linesOf search).length).map collapseWhitespace =
        (linesOf search).map collapseWhitespace := by
  simp only [matchingStarts, length_map, mem_filter, mem_range, decide_eq_true_eq] at h
  exact ⟨by omega, h.2⟩

theorem window_ne_nil {s m : ℕ} {ls : List (List Char)} (hm : 0 < m) (h : s + m ≤ ls.length) :
    window ls s m ≠ [] := by
  rw [← length_pos_iff, window, length_take, length_drop]
  omega

/-- A block of lines stands behind the lines before it. -/
theorem eq_append_window {s : ℕ} (h : s ∈ matchingStarts content search) : ∃ rest, content = beforeLine content s ++
      ['\n'].intercalate (window (linesOf content) s (linesOf search).length) ++ rest := by
  obtain ⟨rest, hr⟩ := intercalate_window ['\n'] (window_ne_nil (linesOf_length_pos search) (mem_matchingStarts h).1)
    ((linesOf content).take s) ((linesOf content).drop (s + (linesOf search).length))
  have hl : (linesOf content).take s ++ (window (linesOf content) s (linesOf search).length ++
      (linesOf content).drop (s + (linesOf search).length)) = linesOf content := by
    rw [window, ← drop_drop, take_append_drop, take_append_drop]
  have hj : ['\n'].intercalate (linesOf content) = content := intercalate_splitOn '\n'
  rw [hl, hj] at hr
  exact ⟨rest, hr⟩

/-- Joined lines are empty only if there is nothing but an empty line. -/
theorem eq_singleton_of_intercalate_eq_nil {ls : List (List Char)} (hl : ls ≠ [])
    (h : ['\n'].intercalate ls = []) : ls = [[]] := by
  cases ls with
  | nil => exact absurd rfl hl
  | cons l r =>
    cases r with
    | nil => simpa using h
    | cons => simp [intercalate_cons_cons] at h

theorem findWhitespaceTolerantMatch_eq_some (h : findWhitespaceTolerantMatch content search = some actual) :
    actual ≠ [] ∧ ∃ s, matchingStarts content search = [s] ∧
      actual = ['\n'].intercalate (window (linesOf content) s (linesOf search).length) := by
  rw [findWhitespaceTolerantMatch] at h
  split_ifs at h with he hb
  split at h
  · next s hs =>
    cases h
    refine ⟨fun hn => hb ?_, s, hs, rfl⟩
    have hm : s ∈ matchingStarts content search := hs ▸ mem_singleton_self s
    obtain ⟨hle, hw⟩ := mem_matchingStarts hm
    -- an empty block is one empty line, and then so is the text up to white space
    rw [eq_singleton_of_intercalate_eq_nil (window_ne_nil (linesOf_length_pos search) hle) hn] at hw
    rw [all_eq_true]
    intro l hl
    have hc : collapseWhitespace l ∈ (linesOf search).map collapseWhitespace := mem_map_of_mem hl
    rw [← hw] at hc
    rw [mem_singleton.mp hc]
    rfl
  · cases h

theorem findActualString_eq_some (h : findActualString content search = some actual) :
    actual = search ∧ search <:+: content ∨
      actual = normalizeQuotes search ∧ ¬search <:+: content ∧ normalizeQuotes search <:+: content ∨
      ¬search <:+: content ∧ ¬normalizeQuotes search <:+: content ∧
        findWhitespaceTolerantMatch content (normalizeQuotes search) = some actual := by
  dsimp only [findActualString] at h
  split_ifs at h with hs hn
  · cases h
    exact .inl ⟨rfl, contains_iff.mp hs⟩
  · cases h
    exact .inr (.inl ⟨rfl, fun ho => hs (contains_iff.mpr ho), contains_iff.mp hn⟩)
  · exact .inr (.inr ⟨fun ho => hs (contains_iff.mpr ho), fun ho => hn (contains_iff.mpr ho), h⟩)

theorem findActualString_occurs (h : findActualString content search = some actual) : actual <:+: content := by
  rcases findActualString_eq_some h with ⟨rfl, ho⟩ | ⟨rfl, -, ho⟩ | ⟨-, -, hf⟩
  · exact ho
  · exact ho
  · obtain ⟨-, s, hs, rfl⟩ := findWhitespaceTolerantMatch_eq_some hf
    obtain ⟨r, hr⟩ := eq_append_window (hs ▸ mem_singleton_self s)
    exact ⟨_, r, hr.symm⟩

theorem findActualString_ne_nil (hs : search ≠ []) (h : findActualString content search = some actual) :
    actual ≠ [] := by
  rcases findActualString_eq_some h with ⟨rfl, -⟩ | ⟨rfl, -⟩ | ⟨-, -, hf⟩
  · exact hs
  · exact fun hn => hs (map_eq_nil_iff.mp hn)
  · exact (findWhitespaceTolerantMatch_eq_some hf).1

/-! ### Accepted requests -/

theorem ok_of_bind_ok {a b : ValidationResult} (h : (do a; b) = .ok ()) : a = .ok () ∧ b = .ok () := by
  cases a with
  | ok => exact ⟨rfl, h⟩
  | error => cases h

variable {input : FileEditInput} {store : DedupStateStore} {path : String} {stat : PathStat} {m : ℤ}

/-- **An accepted request** for one replacement has a text that is found, and that is not found
twice. -/
theorem found_of_accepted (h : validateInputBackend input (some content) store path stat m = .ok ())
    (ho : input.oldString ≠ []) (hr : input.replaceAll = false) :
    ∃ actual, findActualString content input.oldString = some actual ∧ countOccurrences content actual ≤ 1 := by
  have hc : validateContent (some content) input = .ok () :=
    (ok_of_bind_ok (ok_of_bind_ok (ok_of_bind_ok (ok_of_bind_ok h).2).2).2).2
  dsimp only [validateContent] at hc
  rw [if_pos ho] at hc
  obtain ⟨he, ha⟩ := ok_of_bind_ok hc
  cases hf : findActualString content input.oldString with
  | none =>
    rw [validateOldStringExists, hf] at he
    cases he
  | some actual =>
    refine ⟨actual, rfl, ?_⟩
    rw [validateAmbiguousMatch, if_neg (by simp [hr]), hf] at ha
    dsimp only at ha
    split_ifs at ha with hcn
    omega

/-- One occurrence is replaced. -/
theorem applyEditToFile_eq_some (n : List Char) (ha : actual ≠ []) (ho : actual <:+: content) :
    ∃ p s, content = p ++ actual ++ s ∧ applyEditToFile content actual n false = some (p ++ n ++ s) := by
  obtain ⟨p, hp⟩ := Option.isSome_iff_exists.mp (before?_isSome_iff.mpr ho)
  obtain ⟨s, hs⟩ := before?_eq_some hp
  refine ⟨p, s, hs, ?_⟩
  rw [applyEditToFile, if_neg (by simp [ha]), if_neg (by decide), hp, Option.map_some]
  conv_lhs => rw [hs, ← length_append, drop_left]

variable {bytes : List UInt8}

/-- What an accepted request for one replacement writes. -/
theorem invoke_of_accepted (hexists : stat.existing = true)
    (haccepted : validateInputBackend input (some (fromUtf8Lossy bytes)) store path stat
      (systemTimeToTimestamp stat.modifiedAt) = .ok ())
    (hold : input.oldString ≠ []) (hreplace : input.replaceAll = false) :
    ∃ old, findActualString (fromUtf8Lossy bytes) input.oldString = some old ∧ old ≠ [] ∧
      ∃ p s, fromUtf8Lossy bytes = p ++ old ++ s ∧ invoke input store path stat bytes =
        .ok (utf8Encode p ++ utf8Encode (preserveQuoteStyle old input.newString) ++ utf8Encode s) := by
  obtain ⟨old, hf, -⟩ := found_of_accepted haccepted hold hreplace
  have hne := findActualString_ne_nil hold hf
  obtain ⟨p, s, hc, he⟩ :=
    applyEditToFile_eq_some (preserveQuoteStyle old input.newString) hne (findActualString_occurs hf)
  refine ⟨old, hf, hne, p, s, hc, ?_⟩
  dsimp only [invoke]
  rw [if_pos hexists, haccepted]
  dsimp only
  rw [if_neg (by simpa using hold), hf]
  dsimp only
  rw [hreplace, he]
  dsimp only
  rw [utf8Encode_append, utf8Encode_append]

/-- Bytes are UTF-8 if a text in them can be replaced, in what is read and in themselves, with the
same result. -/
theorem validUtf8_of_replaced {old new p s : List Char} {before after : List UInt8} (hold : old ≠ [])
    (hb : bytes = before ++ utf8Encode old ++ after) (hr : fromUtf8Lossy bytes = p ++ old ++ s)
    (hw : utf8Encode p ++ utf8Encode new ++ utf8Encode s = before ++ utf8Encode new ++ after) : ValidUtf8 bytes := by
  have hv : ValidUtf8 (before ++ (utf8Encode new ++ after)) :=
    ⟨p ++ new ++ s, by rw [utf8Encode_append, utf8Encode_append, hw, append_assoc]⟩
  -- no character is split: the bytes behind the text do not continue one
  have hh : ∀ b ∈ (utf8Encode new ++ after).head?, isTail b = false := by
    intro b hbt
    cases new with
    | cons c new =>
      obtain ⟨x, xs, hx, hl, -⟩ := utf8EncodeChar_eq_cons c
      rw [utf8Encode_cons, hx] at hbt
      cases hbt
      exact hl
    | nil =>
      cases after with
      | nil => cases hbt
      | cons y after =>
        cases hbt
        by_contra ht
        rw [Bool.not_eq_false] at ht
        have hlt := leads_lt_length_decodeFrom (q := none) (by simp) hold ht before after
        rw [← hb, ← fromUtf8Lossy, hr, hb] at hlt
        have hl := congrArg leads hw
        simp only [leads_append, leads_utf8Encode, length_append, Option.toList_none, length_nil] at hl hlt
        omega
  obtain ⟨hbefore, hrest⟩ := hv.split hh
  have hafter : ValidUtf8 after := by
    obtain ⟨t, ht⟩ := hrest
    obtain ⟨t', rfl⟩ := prefix_of_utf8Encode_prefix ⟨after, ht.symm⟩
    rw [utf8Encode_append] at ht
    exact ⟨t', append_cancel_left ht⟩
  rw [hb]
  exact (hbefore.append ⟨old, rfl⟩).append hafter

/-- **The frame of an edit**: an accepted request for one replacement writes the bytes of the file,
with those of one occurrence of the text that was found replaced, exactly if the file is UTF-8. -/
theorem edit_frame_iff (hexists : stat.existing = true)
    (haccepted : validateInputBackend input (some (fromUtf8Lossy bytes)) store path stat
      (systemTimeToTimestamp stat.modifiedAt) = .ok ())
    (hold : input.oldString ≠ []) (hreplace : input.replaceAll = false) :
    (∃ old new, findActualString (fromUtf8Lossy bytes) input.oldString = some old ∧
      new = preserveQuoteStyle old input.newString ∧
      ∃ p s, bytes = p ++ utf8Encode old ++ s ∧
        invoke input store path stat bytes = .ok (p ++ utf8Encode new ++ s)) ↔
    ValidUtf8 bytes := by
  obtain ⟨old, hf, hne, p, s, hc, hi⟩ := invoke_of_accepted hexists haccepted hold hreplace
  constructor
  · rintro ⟨old', _, hf', rfl, before, after, hb, hi'⟩
    rw [hf] at hf'
    cases hf'
    exact validUtf8_of_replaced hne hb hc (Except.ok.inj (hi.symm.trans hi'))
  · intro hvalid
    refine ⟨old, _, hf, rfl, utf8Encode p, utf8Encode s, ?_, hi⟩
    rw [← utf8Encode_append, ← utf8Encode_append, ← hc, validUtf8_iff.mp hvalid]

/-- A request to replace a text in `/a.txt`. -/
def request (oldString newString : String) : FileEditInput where
  filePath := "/a.txt"
  oldString := oldString.toList
  newString := newString.toList
  replaceAll := false

def fileOf (size : ℕ) : PathStat where
  existing := true
  sizeBytes := some size
  modifiedAt := some 0

theorem edit_frame_iff_quotes :
    ∃ old new, findActualString (fromUtf8Lossy (utf8Encode "a “b”\n".toList)) "“b”".toList = some old ∧
        new = preserveQuoteStyle old "'c'".toList ∧
        ∃ p s, utf8Encode "a “b”\n".toList = p ++ utf8Encode old ++ s ∧
          invoke (request "“b”" "'c'") .empty "/a.txt" (fileOf 10) (utf8Encode "a “b”\n".toList) =
            .ok (p ++ utf8Encode new ++ s) := by
  have ha : validateInputBackend (request "“b”" "'c'")
      (some (fromUtf8Lossy (utf8Encode "a “b”\n".toList))) .empty "/a.txt" (fileOf 10)
      (systemTimeToTimestamp (fileOf 10).modifiedAt) = .ok () := by decide
  exact (edit_frame_iff rfl ha (by decide) rfl).mpr ⟨_, rfl⟩

/-- **Bytes outside of the text change**: the first byte of the file is not UTF-8, and is written
back as the three bytes of a replacement character. -/
theorem edit_of_invalid_utf8 :
    validateInputBackend (request "a" "c") (some (fromUtf8Lossy [0xFF, 0x61, 0x62])) .empty "/a.txt"
      (fileOf 3) 0 = .ok () ∧
      findActualString (fromUtf8Lossy [0xFF, 0x61, 0x62]) "a".toList = some "a".toList ∧
      invoke (request "a" "c") .empty "/a.txt" (fileOf 3) [0xFF, 0x61, 0x62] = .ok [0xEF, 0xBF, 0xBD, 0x63, 0x62] ∧
      ∀ p s, [0xFF, 0x61, 0x62] = p ++ utf8Encode "a".toList ++ s →
        [0xEF, 0xBF, 0xBD, 0x63, 0x62] ≠ p ++ utf8Encode "c".toList ++ s := by
  refine ⟨by decide, by decide, by decide, fun p s hs hw => ?_⟩
  have hl := congrArg length hs
  have hl' := congrArg length hw
  rw [length_append, length_append] at hl hl'
  have ho' : (utf8Encode "c".toList).length = 1 := by decide
  simp only [length_cons, length_nil] at hl hl'
  omega

/-! ### The style of quotes -/

/-- Where two straight quotes never follow each other, only their style changes. -/
theorem normalizeQuotes_styleQuotes {single double : Bool} {s : List Char} (hs : single → ¬ ['\'', '\''] <:+: s)
    (hd : double → ¬ ['"', '"'] <:+: s) : normalizeQuotes (styleQuotes single double s) = normalizeQuotes s := by
  have ht : ∀ {p l : List Char} {c : Char}, ¬ p <:+: c :: l → ¬ p <:+: l := fun h hl => h (infix_cons hl)
  fun_induction styleQuotes single double s with
  | case1 => rfl
  | case2 s hq => exact absurd ⟨[], s, rfl⟩ (hs hq)
  | case3 s hq ih =>
    have hi := ih (fun h => absurd h hq) fun h => ht (ht (hd h))
    simp only [normalizeQuotes, map_cons] at hi ⊢
    rw [hi]
  | case4 s hq => exact absurd ⟨[], s, rfl⟩ (hd hq)
  | case5 s hq ih =>
    have hi := ih (fun h => ht (ht (hs h))) fun h => absurd h hq
    simp only [normalizeQuotes, map_cons] at hi ⊢
    rw [hi]
  | case6 c s _ _ ih =>
    have hi := ih (fun h => ht (hs h)) fun h => ht (hd h)
    simp only [normalizeQuotes, map_cons] at hi ⊢
    split_ifs <;> simp_all [leftSingleCurlyQuote, rightSingleCurlyQuote, leftDoubleCurlyQuote, rightDoubleCurlyQuote]

/-- Two straight quotes in a row, of a kind that is restyled. -/
def DoubledQuotes (single double : Bool) (s : List Char) : Prop :=
  single = true ∧ ['\'', '\''] <:+: s ∨ double = true ∧ ['"', '"'] <:+: s

theorem DoubledQuotes.tail {single double : Bool} {c : Char} {s : List Char}
    (h : DoubledQuotes single double (c :: s))
    (hs : single = true → ¬['\'', '\''] <+: c :: s) (hd : double = true → ¬['"', '"'] <+: c :: s) :
    DoubledQuotes single double s := by
  rcases h with ⟨hq, hi⟩ | ⟨hq, hi⟩
  · exact .inl ⟨hq, (infix_cons_iff.mp hi).resolve_left (hs hq)⟩
  · exact .inr ⟨hq, (infix_cons_iff.mp hi).resolve_left (hd hq)⟩

theorem length_styleQuotes_le (single double : Bool) (s : List Char) :
    (styleQuotes single double s).length ≤ s.length := by
  fun_induction styleQuotes single double s <;> simp only [length_cons, length_nil] <;> omega

/-- Two quotes in a row become one. -/
theorem length_styleQuotes_lt {single double : Bool} {s : List Char} (h : DoubledQuotes single double s) :
    (styleQuotes single double s).length < s.length := by
  fun_induction styleQuotes single double s with
  | case1 => rcases h with ⟨-, h⟩ | ⟨-, h⟩ <;> simp at h
  | case2 s | case4 s =>
    have hle := length_styleQuotes_le single double s
    simp only [length_cons]
    omega
  | case3 s hq ih =>
    have hlt := ih ((h.tail (fun h => absurd h hq) (by simp)).tail (fun h => absurd h hq) (by simp))
    simp only [length_cons]
    omega
  | case5 s hq ih =>
    have hlt := ih ((h.tail (by simp) fun h => absurd h hq).tail (by simp) fun h => absurd h hq)
    simp only [length_cons]
    omega
  | case6 c s hs hd ih =>
    have hlt := ih (h.tail ?_ ?_)
    · simp only [length_cons]
      omega
    · rintro - ⟨r, hr⟩
      cases hr
      exact hs r rfl rfl
    · rintro - ⟨r, hr⟩
      cases hr
      exact hd r rfl rfl

/-- **Restyling changes only the style of quotes** exactly if the text does not have two straight
ones in a row of a kind that is curly in the file. -/
theorem preserveQuoteStyle_same_iff (old new : List Char) :
    normalizeQuotes (preserveQuoteStyle old new) = normalizeQuotes new ↔
      (leftSingleCurlyQuote ∈ old ∨ rightSingleCurlyQuote ∈ old → ¬ ['\'', '\''] <:+: new) ∧
        (leftDoubleCurlyQuote ∈ old ∨ rightDoubleCurlyQuote ∈ old → ¬ ['"', '"'] <:+: new) := by
  unfold preserveQuoteStyle
  dsimp only
  split_ifs with hq
  · exact ⟨fun _ => ⟨fun h => absurd h hq.1, fun h => absurd h hq.2⟩, fun _ => rfl⟩
  · constructor
    · intro h
      have hl := congrArg length h
      rw [normalizeQuotes, normalizeQuotes, length_map, length_map] at hl
      constructor
      · intro ho hi
        exact (length_styleQuotes_lt (.inl ⟨decide_eq_true ho, hi⟩)).ne hl
      · intro ho hi
        exact (length_styleQuotes_lt (.inr ⟨decide_eq_true ho, hi⟩)).ne hl
    · rintro ⟨hs, hd⟩
      exact normalizeQuotes_styleQuotes (fun h => hs (of_decide_eq_true h)) fun h => hd (of_decide_eq_true h)

/-- **Two quotes in a row become one**: an empty text in quotes is a single curly quote. -/
theorem empty_quotes_become_one : preserveQuoteStyle "“b”".toList "\"\"".toList = "”".toList ∧
    normalizeQuotes (preserveQuoteStyle "“b”".toList "\"\"".toList) ≠ normalizeQuotes "\"\"".toList := by
  decide

end XiaoO.Tool.Edit
