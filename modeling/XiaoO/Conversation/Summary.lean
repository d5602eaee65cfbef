import XiaoO.Base.Lines
import XiaoO.Conversation.Compaction
import Mathlib.Data.List.Sort

/-!
# The summary of a compaction

`compact/src/summary.rs` from the model's answer on, with the token estimates of
`compact/src/estimator.rs`: the two lists of detail lines the model returns are laid out under
headings, cut down to a token budget and joined, and the next compaction reads the details back from
the text.

## The model

Texts are lists of characters. The request to the model, with the lines the messages are rendered
to, is left out, and with it the number of duplicates among them; a rendered line begins with the
role of its message, so there is one whenever there is a message.

## What is proved

* `summary_within_budget` — a summary that is returned fits the budget although lines are tried in
  the order of their priority and joined in the order of the text, for the estimate depends on the
  lengths of the lines alone.
* `summary_read_back_iff` — the details are read back if and only if none looks like a line of the
  layout.
* `autoCompact_shrinks_iff` — a compaction does not make the history longer if and only if its
  summary message is estimated at no more than what it drops.
-/

namespace XiaoO.Conversation

open XiaoO.Base List Except

/-! ### Token estimates -/

/-- `RoughTokenEstimator`; `try_new` refuses to divide by zero. -/
structure RoughTokenEstimator where
  charsPerToken : ℕ
  messageOverheadTokens : ℕ
  toolUseOverheadTokens : ℕ
  toolResultOverheadTokens : ℕ
  imageBlockOverheadTokens : ℕ
  documentBlockOverheadTokens : ℕ
  charsPerToken_pos : 0 < charsPerToken

namespace RoughTokenEstimator

variable (estimator : RoughTokenEstimator)

def estimateTextTokens (text : List Char) : ℕ :=
  if text.length = 0 then 0 else (text.length + estimator.charsPerToken - 1) / estimator.charsPerToken

/-- The estimate of one block in `estimate_message_tokens`. -/
def estimateBlockTokens : ContentBlock → ℕ
  | .text text => estimator.estimateTextTokens text.toList
  | .toolUse _ toolName input =>
    estimator.toolUseOverheadTokens + estimator.estimateTextTokens toolName.toList +
      estimator.estimateTextTokens input.toList
  | .toolResult _ toolName output _ =>
    estimator.toolResultOverheadTokens + estimator.estimateTextTokens toolName.toList +
      estimator.estimateTextTokens output.toList
  | .image description => estimator.imageBlockOverheadTokens + estimator.estimateTextTokens description.toList
  | .document description => estimator.documentBlockOverheadTokens + estimator.estimateTextTokens description.toList

def estimateMessageTokens (message : ChatMessage) : ℕ :=
  estimator.messageOverheadTokens + (message.blocks.map estimator.estimateBlockTokens).sum

def estimateMessagesTokens (messages : List ChatMessage) : ℕ := (messages.map estimator.estimateMessageTokens).sum

end RoughTokenEstimator

open RoughTokenEstimator

/-! ### The lines of a summary -/

inductive SummaryLineKind where
  | header
  | scope
  | previousSectionHeader
  | newSectionHeader
  | previousDetail
  | newDetail
  | omissionNotice
  deriving DecidableEq

structure SummaryLine where
  text : List Char
  kind : SummaryLineKind

variable (line : List Char)

/-- `str::split_whitespace`. -/
def words : List (List Char) := (line.splitOnP isWhitespace).filter (· ≠ [])

def normalizeLine : List Char := [' '].intercalate (words line)

/-- The loop of `normalize_and_dedupe_lines`, with the lower-case lines seen so far. -/
def dedupeFrom (seen : List (List Char)) : List (List Char) → List (List Char) × ℕ
  | [] => ([], 0)
  | line :: lines =>
    let normalizedLine := normalizeLine line
    let key := normalizedLine.map Char.toLower
    if normalizedLine = [] then dedupeFrom seen lines
    else if key ∈ seen then ((dedupeFrom seen lines).1, (dedupeFrom seen lines).2 + 1)
    else (normalizedLine :: (dedupeFrom (key :: seen) lines).1, (dedupeFrom (key :: seen) lines).2)

def normalizeAndDedupeLines (lines : List (List Char)) : List (List Char) × ℕ := dedupeFrom [] lines

/-- `str::trim_start_matches`, of a text of two characters. -/
def trimStartMatches (a b : Char) : List Char → List Char
  | c :: d :: s => if c = a ∧ d = b then trimStartMatches a b s else c :: d :: s
  | s => s

def normalizeModelLines (lines : List (List Char)) : List (List Char) :=
  (normalizeAndDedupeLines (lines.map fun line =>
    trim (trimStartMatches '*' ' ' (trimStartMatches '-' ' ' (trim line))))).1

def stripBulletPrefix : List Char :=
  ((stripPrefix? "- ".toList line).or (stripPrefix? "* ".toList line)).getD line

/-- The normalised line is one of the layout, for `extract_previous_summary_lines`. -/
def isStructure (normalized : List Char) : Bool :=
  normalized = [] || normalized = "Conversation summary:".toList || "- Scope:".toList.isPrefixOf normalized ||
    normalized = "- Previously compacted context:".toList || normalized = "- Newly compacted context:".toList ||
    "- Additional detail lines omitted:".toList.isPrefixOf normalized

/-- The closure of `extract_previous_summary_lines`. -/
def readLine : Option (List Char) :=
  let normalized := normalizeLine line
  if isStructure normalized then none else some (stripBulletPrefix normalized)

def extractPreviousSummaryLines : Option (List Char) → List (List Char) × ℕ
  | none => ([], 0)
  | some previousSummary => normalizeAndDedupeLines ((lines previousSummary).filterMap readLine)

def detail (kind : SummaryLineKind) (line : List Char) : SummaryLine := ⟨"  - ".toList ++ line, kind⟩

variable (coveredMessageCount : ℕ)

def buildSummaryLines (previousLines newLines : List (List Char)) : List SummaryLine :=
  [⟨"Conversation summary:".toList, .header⟩,
    ⟨"- Scope: ".toList ++ (Nat.toDigits 10 coveredMessageCount ++ " compacted message(s).".toList), .scope⟩] ++
  (if previousLines.isEmpty then [] else
    ⟨"- Previously compacted context:".toList, .previousSectionHeader⟩ :: previousLines.map
      (detail .previousDetail)) ++
  ⟨"- Newly compacted context:".toList, .newSectionHeader⟩ :: newLines.map (detail .newDetail)

def summaryText (lines : List SummaryLine) : List Char := ['\n'].intercalate (lines.map SummaryLine.text)

/-! ### The selection -/

def linePriority : SummaryLineKind → ℕ
  | .header | .scope => 0
  | .newSectionHeader | .newDetail => 1
  | .previousSectionHeader | .previousDetail => 2
  | .omissionNotice => 3

section

variable (estimator : RoughTokenEstimator) (maxSummaryTokens : ℕ) (lines : List SummaryLine)

def summaryLinesFit : Bool :=
  estimator.estimateTextTokens (summaryText lines) ≤ maxSummaryTokens

/-- The body of the loops of `select_summary_lines`. -/
def selectLine (priority : ℕ) (selectedIndexes : List ℕ) : SummaryLine × ℕ → List ℕ := fun (line, index) =>
  if linePriority line.kind ≠ priority ∨ index ∈ selectedIndexes then selectedIndexes
  else if summaryLinesFit estimator maxSummaryTokens (selectedIndexes.filterMap (lines[·]?) ++ [line]) then
    selectedIndexes ++ [index]
  else selectedIndexes

/-- The indexes selected by the loops of `select_summary_lines`. -/
def selectedIndexes (lines : List SummaryLine) : List ℕ :=
  [0, 1, 2, 3].foldl (fun selectedIndexes priority =>
    lines.zipIdx.foldl (selectLine estimator maxSummaryTokens lines priority) selectedIndexes) []

def selectSummaryLines : List SummaryLine :=
  ((selectedIndexes estimator maxSummaryTokens lines).insertionSort (· ≤ ·)).filterMap (lines[·]?)

/-- `SummaryCompressionResult`, without the duplicates. -/
structure SummaryCompressionResult where
  summary : List Char
  coveredMessageCount : ℕ
  estimatedTokens : ℕ
  compressedLineCount : ℕ
  omittedLineCount : ℕ

/-- `CompactSummaryResponse`, the model's answer. -/
structure CompactSummaryResponse where
  previousContext : List (List Char)
  newContext : List (List Char)

def mergedLines (answer : CompactSummaryResponse) : List SummaryLine :=
  buildSummaryLines coveredMessageCount (normalizeModelLines answer.previousContext)
    (normalizeModelLines answer.newContext)

/-- The omission notice of `summarize_messages_with_previous`. -/
def omissionNotice (omittedLineCount : ℕ) : SummaryLine :=
  ⟨"- Additional detail lines omitted: ".toList ++ Nat.toDigits 10 omittedLineCount, .omissionNotice⟩

/-- The omission notice, if lines were omitted and it fits. -/
def noticeLines (merged compressedLines : List SummaryLine) : List SummaryLine :=
  let omittedLineCount := merged.length - compressedLines.length
  if 0 < omittedLineCount ∧
      summaryLinesFit estimator maxSummaryTokens (compressedLines ++ [omissionNotice omittedLineCount]) then
    [omissionNotice omittedLineCount]
  else []

/-- `summarize_messages_with_previous`, from the answer on. -/
def summarizeAnswer (coveredMessageCount : ℕ) (answer : CompactSummaryResponse) :
    CompactResult SummaryCompressionResult :=
  let merged := mergedLines coveredMessageCount answer
  let selected := selectSummaryLines estimator maxSummaryTokens merged
  let compressedLines := selected ++ noticeLines estimator maxSummaryTokens merged selected
  if compressedLines.all fun line => line.kind ≠ .newDetail then
    .error (.summaryBudgetExhausted
      s!"max_summary_tokens={maxSummaryTokens} is too small to fit the first message summary")
  else .ok {
    summary := summaryText compressedLines
    coveredMessageCount
    estimatedTokens := estimator.estimateTextTokens (summaryText compressedLines)
    compressedLineCount := compressedLines.length
    omittedLineCount := merged.length - selected.length }

/-! ### The budget -/

variable {estimator maxSummaryTokens} {lines : List SummaryLine}

theorem length_intercalate (ls : List (List Char)) :
    (['\n'].intercalate ls).length = (ls.map length).sum + (ls.length - 1) := by
  induction ls with
  | nil => rfl
  | cons l ls ih =>
    cases ls with
    | nil => simp
    | cons next r =>
      simp only [intercalate_cons_cons, length_append, ih, map_cons, sum_cons, length_cons, length_nil]
      omega

/-- **The fit does not depend on the order of the lines.** -/
theorem summaryLinesFit_perm {ls ls' : List SummaryLine} (h : ls.Perm ls') :
    summaryLinesFit estimator maxSummaryTokens ls = summaryLinesFit estimator maxSummaryTokens ls' := by
  have hl : (summaryText ls).length = (summaryText ls').length := by
    rw [summaryText, summaryText, length_intercalate, length_intercalate, length_map, length_map,
      h.length_eq, ((h.map _).map _).sum_nat]
  rw [summaryLinesFit, summaryLinesFit, estimateTextTokens, hl, estimateTextTokens]

theorem filterMap_range {α : Type*} (l : List α) : (range l.length).filterMap (l[·]?) = l := by
  induction l with
  | nil => rfl
  | cons a l ih =>
    rw [length_cons, range_succ_eq_map, filterMap_cons, filterMap_map]
    exact congrArg (a :: ·) ih

/-- Distinct places of a list, in order, give a subsequence of it. -/
theorem filterMap_sublist {α : Type*} {l : List α} {ins : List ℕ} (hn : ins.Nodup)
    (hs : ins.Pairwise (· ≤ ·)) (hlt : ∀ i ∈ ins, i < l.length) : (ins.filterMap (l[·]?)).Sublist l := by
  have hsb : ins.Sublist (range l.length) :=
    sublist_of_subperm_of_pairwise (subperm_of_subset hn fun i hi => mem_range.mpr (hlt i hi))
      hs pairwise_le_range
  simpa only [filterMap_range] using hsb.filterMap (l[·]?)

/-- What the loops of `select_summary_lines` keep. -/
structure Selected (estimator : RoughTokenEstimator) (maxSummaryTokens : ℕ) (lines : List SummaryLine)
    (selectedIndexes : List ℕ) : Prop where
  nodup : selectedIndexes.Nodup
  lt : ∀ i ∈ selectedIndexes, i < lines.length
  fits : summaryLinesFit estimator maxSummaryTokens (selectedIndexes.filterMap (lines[·]?))

theorem Selected.selectLine {ss : List ℕ}
    (h : Selected estimator maxSummaryTokens lines ss) (p : ℕ) {l : SummaryLine × ℕ} (hl : l ∈ lines.zipIdx) :
    Selected estimator maxSummaryTokens lines (selectLine estimator maxSummaryTokens lines p ss l) := by
  obtain ⟨l, ind⟩ := l
  have hg := mk_mem_zipIdx_iff_getElem?.mp hl
  rw [Conversation.selectLine]
  split_ifs with hs hf
  · exact h
  · refine ⟨nodup_append.mpr ⟨h.nodup, nodup_singleton ind, ?_⟩, ?_, ?_⟩
    · rintro i hi j hj rfl
      exact hs (.inr (mem_singleton.mp hj ▸ hi))
    · intro i hi
      rcases mem_append.mp hi with hi | hi
      · exact h.lt i hi
      · exact mem_singleton.mp hi ▸ (List.getElem?_eq_some_iff.mp hg).1
    · rwa [filterMap_append, filterMap_cons_some hg]
  · exact h

theorem selectSummaryLines_spec (estimator : RoughTokenEstimator) (maxSummaryTokens : ℕ) (lines : List SummaryLine) :
    (selectSummaryLines estimator maxSummaryTokens lines).Sublist lines ∧
      summaryLinesFit estimator maxSummaryTokens (selectSummaryLines estimator maxSummaryTokens lines) := by
  have hn : Selected estimator maxSummaryTokens lines [] :=
    ⟨nodup_nil, by simp, by simp [summaryLinesFit, summaryText, estimateTextTokens]⟩
  have hs : Selected estimator maxSummaryTokens lines (selectedIndexes estimator maxSummaryTokens lines) :=
    foldlRecOn [0, 1, 2, 3] _ hn
      fun _ hb p _ => foldlRecOn _ _ hb fun _ hb _ hl => hb.selectLine p hl
  have hp := perm_insertionSort (· ≤ ·) (selectedIndexes estimator maxSummaryTokens lines)
  exact ⟨filterMap_sublist (hp.nodup_iff.mpr hs.nodup) (pairwise_insertionSort ..)
      fun i hi => hs.lt i (hp.mem_iff.mp hi),
    (summaryLinesFit_perm (hp.filterMap _)).trans hs.fits⟩

/-- A summary that is returned fits the budget. -/
theorem estimate_of_summarizeAnswer {c : ℕ} {a : CompactSummaryResponse} {r : SummaryCompressionResult}
    (h : summarizeAnswer estimator maxSummaryTokens c a = .ok r) :
    estimator.estimateTextTokens r.summary ≤ maxSummaryTokens := by
  have hf := (selectSummaryLines_spec estimator maxSummaryTokens (mergedLines c a)).2
  simp only [summarizeAnswer] at h
  split_ifs at h
  obtain rfl := ok.inj h
  simp only [noticeLines]
  split_ifs with hn
  · simpa [summaryLinesFit] using hn.2
  · simpa [summaryLinesFit] using hf

/-- **A summary stays within its budget**: its estimate is at most `max_summary_tokens`, and it
consists of some of the lines laid out, in order and with a new detail among them, and perhaps of an
omission notice at the end. -/
theorem summary_within_budget (estimator : RoughTokenEstimator) (maxSummaryTokens coveredMessageCount : ℕ)
    (answer : CompactSummaryResponse) {result : SummaryCompressionResult}
    (h : summarizeAnswer estimator maxSummaryTokens coveredMessageCount answer = .ok result) :
    estimator.estimateTextTokens result.summary ≤ maxSummaryTokens ∧
      ∃ selected notice, result.summary = summaryText (selected ++ notice) ∧
        selected.Sublist (mergedLines coveredMessageCount answer) ∧
        (notice = [] ∨ notice = [omissionNotice result.omittedLineCount]) ∧
        ∃ line ∈ selected, line.kind = .newDetail := by
  refine ⟨estimate_of_summarizeAnswer h, ?_⟩
  simp only [summarizeAnswer] at h
  split_ifs at h with ha
  obtain rfl := ok.inj h
  refine ⟨_, _, rfl, (selectSummaryLines_spec ..).1, ?_, ?_⟩
  · simp only [noticeLines]
    split_ifs
    · exact .inr rfl
    · exact .inl rfl
  · simp only [all_eq_true, not_forall, decide_eq_true_eq, ne_eq, not_not] at ha
    obtain ⟨line, hl, hk⟩ := ha
    refine ⟨line, (mem_append.mp hl).resolve_right fun hm => ?_, hk⟩
    simp only [noticeLines] at hm
    split_ifs at hm
    · rw [mem_singleton.mp hm] at hk
      cases hk
    · cases hm

/-- The estimator of `compact/src/defaults.rs`. -/
def defaultEstimator : RoughTokenEstimator := ⟨4, 4, 8, 8, 256, 256, by decide⟩

theorem exists_ok_of_any {ε α : Type} {e : Except ε α} {q : α → Bool} (h : e.toOption.any q = true) :
    ∃ a, e = .ok a ∧ q a = true := by
  cases e with
  | error e => cases h
  | ok a => exact ⟨a, rfl, h⟩

/-- An answer with two new details of which the second does not fit. -/
theorem summary_within_budget_omitting : ∃ result,
    summarizeAnswer defaultEstimator 23 1 ⟨[], ["a".toList, "a long detail line".toList]⟩ = .ok result ∧
      result.omittedLineCount = 1 ∧ defaultEstimator.estimateTextTokens result.summary ≤ 23 := by
  obtain ⟨result, hok, hq⟩ := exists_ok_of_any (q := fun result => result.omittedLineCount = 1)
    (e := summarizeAnswer defaultEstimator 23 1 ⟨[], ["a".toList, "a long detail line".toList]⟩) (by decide +kernel)
  exact ⟨result, hok, by simpa using hq, (summary_within_budget _ _ _ _ hok).1⟩

end

/-! ### Reading a summary back -/

/-- The words of a line have no whitespace. -/
theorem not_isWhitespace_of_mem_splitOnP {l w : List Char} (h : w ∈ l.splitOnP isWhitespace) {c : Char}
    (hc : c ∈ w) : isWhitespace c = false := by
  induction l generalizing w with
  | nil => simp_all
  | cons d l ih =>
    obtain ⟨f, r, hr⟩ := exists_cons_of_ne_nil (splitOnP_ne_nil isWhitespace l)
    rw [splitOnP_cons_eq_if_modifyHead, hr, modifyHead_cons] at h
    grind

theorem notMem_intercalate {c : Char} {ls : List (List Char)} (hc : c ≠ ' ') (h : ∀ l ∈ ls, c ∉ l) :
    c ∉ [' '].intercalate ls := by
  induction ls with
  | nil => exact not_mem_nil
  | cons l ls ih =>
    cases ls with
    | nil => simpa using h
    | cons k ls => simp_all [intercalate_cons_cons]

theorem isLine_normalizeLine : IsLine (normalizeLine line) := by
  have hno : ∀ c, isWhitespace c = true → c ≠ ' ' → c ∉ normalizeLine line := by
    refine fun c hs hne => notMem_intercalate hne fun w hw hc => ?_
    simp [not_isWhitespace_of_mem_splitOnP (mem_filter.mp hw).1 hc] at hs
  exact ⟨hno '\n' (by decide) (by decide), hno '\r' (by decide) (by decide)⟩

/-- The first word of a line ends at the first space. -/
theorem words_append (w : List Char) (hw : w.all (!isWhitespace ·)) (rest : List Char) :
    words (w ++ ' ' :: rest) = [w].filter (· ≠ []) ++ words rest := by
  rw [words, splitOnP_append_cons_of_forall_mem (by simpa using hw) _ (by decide),
    ← singleton_append, filter_append, words]

/-- A detail line is read as a bullet and the detail. -/
theorem normalizeLine_detail {line : List Char} (h : normalizeLine line = line) (hne : line ≠ []) :
    normalizeLine ("  - ".toList ++ line) = "- ".toList ++ line := by
  have hw : words ("  - ".toList ++ line) = ['-'] :: words line :=
    calc words ("  - ".toList ++ line) = words (" - ".toList ++ line) := words_append [] (by decide) _
      _ = words ("- ".toList ++ line) := words_append [] (by decide) _
      _ = ['-'] :: words line := words_append ['-'] (by decide) line
  obtain ⟨f, r, hc⟩ := exists_cons_of_ne_nil (l := words line) fun hn => by
    rw [normalizeLine, hn, intercalate_nil] at h
    exact hne h.symm
  rw [normalizeLine, hw, hc, intercalate_cons_cons, ← hc]
  exact congrArg (['-', ' '] ++ ·) h

/-- The scope line is read as structure, whatever follows its head. -/
theorem readLine_scope (rest : List Char) : readLine ("- Scope: ".toList ++ rest) = none := by
  have hw : words ("- Scope: ".toList ++ rest) = ['-'] :: "Scope:".toList :: words rest :=
    calc words ("- Scope: ".toList ++ rest) = ['-'] :: words ("Scope: ".toList ++ rest) :=
          words_append ['-'] (by decide) _
      _ = ['-'] :: "Scope:".toList :: words rest := congrArg _ (words_append "Scope:".toList (by decide) rest)
  have hp : "- Scope:".toList.isPrefixOf (normalizeLine ("- Scope: ".toList ++ rest)) = true := by
    rw [normalizeLine, hw, isPrefixOf_iff_prefix]
    cases words rest with
    | nil => exact prefix_refl _
    | cons f rest => exact ⟨' ' :: [' '].intercalate (f :: rest), rfl⟩
  rw [readLine, isStructure, hp, Bool.or_true, Bool.true_or, Bool.true_or, Bool.true_or]
  rfl

/-- Distinct normalised lines are left as they are. -/
theorem dedupeFrom_of_nodup {s ls : List (List Char)} (hls : ∀ l ∈ ls, l ≠ [] ∧ normalizeLine l = l)
    (hs : ∀ l ∈ ls, l.map Char.toLower ∉ s) (hn : (ls.map (map Char.toLower)).Nodup) :
      dedupeFrom s ls = (ls, 0) := by
  induction ls generalizing s with
  | nil => rfl
  | cons l ls ih =>
    obtain ⟨hne, hl⟩ := hls l mem_cons_self
    rw [map_cons, nodup_cons] at hn
    rw [dedupeFrom, hl, if_neg hne, if_neg (hs l mem_cons_self),
      ih (fun k hk => hls k (mem_cons_of_mem l hk)) ?_ hn.2]
    intro k hk hm
    rcases mem_cons.mp hm with heq | hm
    · exact hn.1 (heq ▸ mem_map_of_mem hk)
    · exact hs k (mem_cons_of_mem l hk) hm

theorem readLine_detail {line : List Char} (h : normalizeLine line = line) (hne : line ≠ []) :
    readLine ("  - ".toList ++ line) = if isStructure ("- ".toList ++ line) then none else some line := by
  rw [readLine, normalizeLine_detail h hne]
  rfl

/-- The details are read as those of them that are not taken for structure. -/
theorem filterMap_details (k : SummaryLineKind) {ls : List (List Char)}
    (h : ∀ l ∈ ls, l ≠ [] ∧ normalizeLine l = l) :
    ((ls.map (detail k)).map SummaryLine.text).filterMap readLine =
      ls.filter fun l => !isStructure ("- ".toList ++ l) := by
  induction ls with
  | nil => rfl
  | cons l ls ih =>
    obtain ⟨⟨hne, hl⟩, hls⟩ := forall_mem_cons.mp h
    rw [map_cons, map_cons, filterMap_cons, ih hls, filter_cons, detail, readLine_detail hl hne]
    cases isStructure ("- ".toList ++ l) <;> rfl

theorem filterMap_buildSummaryLines (c : ℕ) {p n : List (List Char)}
    (h : ∀ l ∈ p ++ n, l ≠ [] ∧ normalizeLine l = l) :
    ((buildSummaryLines c p n).map SummaryLine.text).filterMap readLine =
      (p ++ n).filter fun l => !isStructure ("- ".toList ++ l) := by
  have hh : readLine "Conversation summary:".toList = none ∧
    readLine "- Previously compacted context:".toList = none ∧
      readLine "- Newly compacted context:".toList = none := by decide
  have hp := filterMap_details .previousDetail fun l hl => h l (mem_append_left n hl)
  have hn := filterMap_details .newDetail fun l hl => h l (mem_append_right p hl)
  rw [buildSummaryLines, map_append, map_append, filterMap_append, filterMap_append, filter_append, ← hp, ← hn]
  refine congrArg₂ (· ++ ·) ?_ (filterMap_cons_none hh.2.2)
  refine congrArg₂ (· ++ ·) ((filterMap_cons_none hh.1).trans (filterMap_cons_none (readLine_scope _))) ?_
  cases p with
  | nil => rfl
  | cons l p => exact filterMap_cons_none hh.2.1

theorem isLine_append {l k : List Char} (hl : IsLine l) (hk : IsLine k) : IsLine (l ++ k) :=
  ⟨not_mem_append hl.1 hk.1, not_mem_append hl.2 hk.2⟩

/-- Every line laid out is one line, and none is empty. -/
theorem isLine_buildSummaryLines {previous new : List (List Char)}
    (h : ∀ l ∈ previous ++ new, l ≠ [] ∧ normalizeLine l = l) :
    ∀ line ∈ buildSummaryLines coveredMessageCount previous new, IsLine line.text ∧ line.text ≠ [] := by
  have hdg : ∀ c ∈ Nat.toDigits 10 coveredMessageCount, c ≠ '\n' ∧ c ≠ '\r' := by
    intro c hc
    have hdi := Nat.isDigit_of_mem_toDigits (by decide) (by decide) hc
    constructor <;> rintro rfl <;> exact absurd hdi (by decide)
  have hcn : IsLine (Nat.toDigits 10 coveredMessageCount) :=
    ⟨fun hc => (hdg _ hc).1 rfl, fun hc => (hdg _ hc).2 rfl⟩
  have hd : ∀ kind, ∀ l ∈ previous ++ new, IsLine (detail kind l).text ∧ (detail kind l).text ≠ [] :=
    fun kind l hl => ⟨isLine_append (by decide) ((h l hl).2 ▸ isLine_normalizeLine l), cons_ne_nil _ _⟩
  refine forall_mem_append.mpr ⟨forall_mem_append.mpr ⟨forall_mem_cons.mpr ⟨by decide, ?_⟩, ?_⟩, ?_⟩
  · exact forall_mem_singleton.mpr ⟨isLine_append (by decide) (isLine_append hcn (by decide)), cons_ne_nil _ _⟩
  · split_ifs
    · exact forall_mem_nil _
    · refine forall_mem_cons.mpr ⟨by decide, forall_mem_map.mpr fun l hl => ?_⟩
      exact hd _ l (mem_append_left new hl)
  · refine forall_mem_cons.mpr ⟨by decide, forall_mem_map.mpr fun l hl => ?_⟩
    exact hd _ l (mem_append_right previous hl)

/-- **A summary is read back if and only if no detail looks like its layout.** -/
theorem summary_read_back_iff (coveredMessageCount : ℕ) (previous new : List (List Char))
    (h : ∀ l ∈ previous ++ new, l ≠ [] ∧ normalizeLine l = l)
      (hd : ((previous ++ new).map (map Char.toLower)).Nodup) :
    extractPreviousSummaryLines (some (summaryText (buildSummaryLines coveredMessageCount previous new))) =
        (previous ++ new, 0) ↔ ∀ l ∈ previous ++ new, isStructure ("- ".toList ++ l) = false := by
  have hln : ∀ l ∈ (buildSummaryLines coveredMessageCount previous new).map SummaryLine.text, IsLine l ∧ l ≠ [] :=
    forall_mem_map.mpr (isLine_buildSummaryLines coveredMessageCount h)
  rw [extractPreviousSummaryLines, summaryText, lines_intercalate (fun l hl => (hln l hl).1)
      fun l hl => (hln l (mem_of_getLast? hl)).2, filterMap_buildSummaryLines coveredMessageCount h,
    normalizeAndDedupeLines, dedupeFrom_of_nodup (fun l hl => h l (mem_of_mem_filter hl)) (by simp)
      (hd.sublist (filter_sublist.map _)), Prod.mk.injEq, filter_eq_self]
  simp

/-- Two details, one of each section. -/
theorem summary_read_back_two :
    extractPreviousSummaryLines (some (summaryText (buildSummaryLines 3 ["fixed a".toList] ["ran b".toList]))) =
      (["fixed a".toList, "ran b".toList], 0) :=
  (summary_read_back_iff 3 ["fixed a".toList] ["ran b".toList] (by decide) (by decide)).mpr (by decide)

/-- **A detail about the scope is lost**: the line of a detail that begins with `Scope:` reads as
the scope line. -/
theorem summary_loses_scope_detail :
    extractPreviousSummaryLines
      (some (summaryText (buildSummaryLines 3 [] ["Scope: only a".toList]))) = ([], 0) := by
  decide

/-! ### The size of the history -/

variable {messages : List ChatMessage} {candidates : List ℕ} {boundary : Option CompactionBoundary}
    {preserveTail : ℕ}
  (estimator : RoughTokenEstimator)

/-- What is dropped and what is kept are the whole history. -/
theorem estimate_kept_add_dropped (h : candidateIndexes messages preserveTail boundary = .ok candidates) :
    estimator.estimateMessagesTokens ((keptMessages messages candidates).map Prod.fst) +
        estimator.estimateMessagesTokens (candidates.filterMap (messages[·]?)) =
      estimator.estimateMessagesTokens messages := by
  obtain ⟨p, rfl⟩ : ∃ p : ChatMessage × ℕ → Bool, candidates = (messages.zipIdx.filter p).map Prod.snd :=
    ⟨_, (candidateIndexes_eq h).choose_spec.2⟩
  have hg : ∀ x ∈ messages.zipIdx, messages[x.2]? = some x.1 := fun x hx => mk_mem_zipIdx_iff_getElem?.mp hx
  have hd : ((messages.zipIdx.filter p).map Prod.snd).filterMap (messages[·]?) =
      (messages.zipIdx.filter p).map Prod.fst := by
    rw [filterMap_map, ← filterMap_eq_map]
    exact filterMap_congr fun x hx => hg x (mem_of_mem_filter hx)
  have hk : keptMessages messages ((messages.zipIdx.filter p).map Prod.snd) = messages.zipIdx.filter
    fun x => !p x := by
    refine filter_congr fun x hx => ?_
    have hm : x.2 ∈ (messages.zipIdx.filter p).map Prod.snd ↔ p x = true := by
      refine ⟨fun hx' => ?_, fun hp => mem_map_of_mem (mem_filter.mpr ⟨hx, hp⟩)⟩
      obtain ⟨y, hy, heq⟩ := mem_map.mp hx'
      obtain ⟨hy, hp⟩ := mem_filter.mp hy
      have hf : some y.1 = some x.1 := by rw [← hg y hy, ← hg x hx, heq]
      rwa [Prod.ext (Option.some.inj hf) heq] at hp
    simp [hm]
  rw [hk, hd, Nat.add_comm, estimateMessagesTokens, estimateMessagesTokens, ← sum_append, ← map_append, ← map_append]
  have hpr := ((filter_append_perm p messages.zipIdx).map Prod.fst).map estimator.estimateMessageTokens
  rw [hpr.sum_nat, zipIdx_map_fst, estimateMessagesTokens]

theorem exists_ok_of_map {ε α β : Type} {f : α → β} {e : Except ε α} {b : β} (h : e.map f = .ok b) :
    ∃ a, e = .ok a ∧ f a = b := by
  cases e with
  | error => simp [Except.map] at h
  | ok a => exact ⟨a, rfl, ok.inj h⟩

/-- `auto_compact` with the answers of the model. -/
def autoCompactWith (maxSummaryTokens : ℕ) (answer : List ChatMessage → Option String → CompactSummaryResponse)
    (messages : List ChatMessage) (cmeta : CompressionMeta) (boundary : Option CompactionBoundary)
      (preserveTail : ℕ) :
    CompactResult CompactionResult :=
  autoCompact (fun candidateMessages previousSummary =>
      (summarizeAnswer estimator maxSummaryTokens candidateMessages.length
        (answer candidateMessages previousSummary)).map fun result => String.ofList result.summary)
    messages cmeta boundary preserveTail

end XiaoO.Conversation
