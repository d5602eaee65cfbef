import XiaoO.Tool.FileEdit

/-!
# The place of an edit

A request for one replacement should name one place of the file. What is checked is that
`match_indices` counts the text that was found once, but it goes on behind an occurrence when it has
found one, so that of two occurrences that overlap it sees only the first.

## What is proved

The text that is found is the one that was given, else that with straight quotes, else the one block
of lines that is equal to it up to white space (`Target`). It starts at one byte of the file, and a
block of lines at the beginning of its first line, exactly if no two of its occurrences overlap
(`unique_target_iff`). Two may, both for the text as it was given and for a block of lines
(`overlapping_targets`).
-/

namespace XiaoO.Tool.Edit

open XiaoO.Base XiaoO.Tool.Read

variable {content actual : List Char}

/-- The text that a request is about. -/
inductive Target (content old : List Char) : List Char → Prop
  | given (h : old <:+: content) : Target content old old
  | straight (hgiven : ¬old <:+: content) (h : normalizeQuotes old <:+: content) :
    Target content old (normalizeQuotes old)
  | lines {start : ℕ} (hgiven : ¬old <:+: content) (hstraight : ¬normalizeQuotes old <:+: content)
    (hstart : matchingStarts content (normalizeQuotes old) = [start]) : Target content old
        (['\n'].intercalate (window (linesOf content) start (linesOf (normalizeQuotes old)).length))

theorem target_of_found {old : List Char} (h : findActualString content old = some actual) :
    Target content old actual := by
  rcases findActualString_eq_some h with ⟨rfl, ho⟩ | ⟨rfl, hg, ho⟩ | ⟨hg, hs, hf⟩
  · exact .given ho
  · exact .straight hg ho
  · obtain ⟨-, s, hst, rfl⟩ := findWhitespaceTolerantMatch_eq_some hf
    exact .lines hg hs hst

theorem Target.eq {old text : List Char} (h : Target content old text) (h' : Target content old actual) :
    text = actual := by
  cases h with
  | given hg =>
    cases h' with
    | given => rfl
    | straight hn | lines hn => exact absurd hg hn
  | straight hn hs =>
    cases h' with
    | given hg => exact absurd hg hn
    | straight => rfl
    | lines _ hns => exact absurd hs hns
  | lines hn hns hst =>
    cases h' with
    | given hg => exact absurd hg hn
    | straight _ hs => exact absurd hs hns
    | lines _ _ hst' =>
      rw [hst] at hst'
      cases hst'
      rfl

/-- An occurrence in the text is one in its bytes. -/
theorem occursAt_utf8Encode {i : ℕ} (h : OccursAt actual content i) :
    OccursAt (utf8Encode actual) (utf8Encode content) (utf8Encode (content.take i)).length := by
  obtain ⟨r, hr⟩ := h
  have hc : utf8Encode content = utf8Encode (content.take i) ++ utf8Encode actual ++ utf8Encode r := by
    rw [← utf8Encode_append, ← utf8Encode_append, List.append_assoc, hr, List.take_append_drop]
  rw [hc]
  exact occursAt_append _ _

/-- A text that is counted once, and does not overlap itself, starts at one byte. -/
theorem eq_of_occursAt_utf8Encode (ha : actual ≠ []) (hap : Apart actual content)
    (hc : countOccurrences content actual ≤ 1) {p s : List Char} (hs : content = p ++ actual ++ s) {k : ℕ}
    (hk : OccursAt (utf8Encode actual) (utf8Encode content) k) : k = (utf8Encode p).length := by
  obtain ⟨i, hi, rfl⟩ := occursAt_of_utf8Encode ha hk
  have hp : OccursAt actual content p.length := hs ▸ occursAt_append p s
  obtain rfl : i = p.length := eq_of_countMatches_le_one ha hap hc hi hp
  rw [hs, List.append_assoc, List.take_left]

/-- A text that starts at one byte does not overlap itself. -/
theorem apart_of_unique (ha : actual ≠ []) {k : ℕ}
    (h : ∀ k', OccursAt (utf8Encode actual) (utf8Encode content) k' → k' = k) : Apart actual content := by
  intro i j hi hj hij
  have hlt := hj.lt_length ha
  have heq := (h _ (occursAt_utf8Encode hi)).trans (h _ (occursAt_utf8Encode hj)).symm
  have htake : content.take j = content.take i ++ (content.drop i).take (j - i) := by
    rw [← List.take_add, Nat.add_sub_cancel' hij.le]
  rw [htake, utf8Encode_append, List.length_append] at heq
  have hne : (content.drop i).take (j - i) ≠ [] := by
    rw [← List.length_pos_iff, List.length_take, List.length_drop]
    omega
  have hpos := List.length_pos_iff.mpr (utf8Encode_ne_nil hne)
  omega

variable {input : FileEditInput} {store : DedupStateStore} {path : String} {stat : PathStat} {mtime : ℤ}

/-- **One place**: the text that an accepted request for one replacement is about starts at exactly
one byte of the content, which is the beginning of the only block of lines that is equal to it up to
white space if that is how it was found, exactly if no two of its occurrences overlap. -/
theorem unique_target_iff (haccepted : validateInputBackend input (some content) store path stat mtime = .ok ())
    (hold : input.oldString ≠ []) (hreplace : input.replaceAll = false) :
    (∃ actual, findActualString content input.oldString = some actual ∧
      ∃ k, OccursAt (utf8Encode actual) (utf8Encode content) k ∧
        (∀ k', OccursAt (utf8Encode actual) (utf8Encode content) k' → k' = k) ∧
        (¬input.oldString <:+: content → ¬normalizeQuotes input.oldString <:+: content →
          ∃ start, matchingStarts content (normalizeQuotes input.oldString) = [start] ∧ actual = ['\n'].intercalate
              (window (linesOf content) start (linesOf (normalizeQuotes input.oldString)).length) ∧
            k = (utf8Encode (beforeLine content start)).length)) ↔
      ∀ text, Target content input.oldString text → Apart text content := by
  obtain ⟨actual, hf, hc⟩ := found_of_accepted haccepted hold hreplace
  have ha := findActualString_ne_nil hold hf
  have ht := target_of_found hf
  constructor
  · rintro ⟨actual', hf', k, -, hk, -⟩ text htext
    rw [hf] at hf'
    cases hf'
    rw [htext.eq ht]
    exact apart_of_unique ha hk
  · intro hapart
    have hu {p s : List Char} (hs : content = p ++ actual ++ s) {k : ℕ}
        (hk : OccursAt (utf8Encode actual) (utf8Encode content) k) : k = (utf8Encode p).length :=
      eq_of_occursAt_utf8Encode ha (hapart actual ht) hc hs hk
    obtain ⟨p, s, hs⟩ := findActualString_occurs hf
    have hp : OccursAt (utf8Encode actual) (utf8Encode content) (utf8Encode p).length := by
      rw [← hs, utf8Encode_append, utf8Encode_append]
      exact occursAt_append _ _
    refine ⟨actual, hf, (utf8Encode p).length, hp, fun k' hk' => hu hs.symm hk', fun hg hsr => ?_⟩
    cases ht with
    | given ho => exact absurd ho hg
    | straight _ ho => exact absurd ho hsr
    | @lines start _ _ hst =>
      obtain ⟨r, hr⟩ := eq_append_window (hst ▸ List.mem_singleton_self start)
      exact ⟨start, hst, rfl, hu hr hp⟩

theorem unique_target_iff_lines : ∃ actual, findActualString "a\nb  c".toList "b c".toList = some actual ∧
    ∃ k, OccursAt (utf8Encode actual) (utf8Encode "a\nb  c".toList) k ∧
      (∀ k', OccursAt (utf8Encode actual) (utf8Encode "a\nb  c".toList) k' → k' = k) ∧
      (¬"b c".toList <:+: "a\nb  c".toList → ¬normalizeQuotes "b c".toList <:+: "a\nb  c".toList →
        ∃ start, matchingStarts "a\nb  c".toList (normalizeQuotes "b c".toList) = [start] ∧
          actual = ['\n'].intercalate
            (window (linesOf "a\nb  c".toList) start (linesOf (normalizeQuotes "b c".toList)).length) ∧
          k = (utf8Encode (beforeLine "a\nb  c".toList start)).length) := by
  have ha : validateInputBackend (request "b c" "d") (some "a\nb  c".toList) .empty "/a.txt"
    (fileOf 6) 0 = .ok () := by
    decide
  refine (unique_target_iff ha (by decide) rfl).mpr fun text ht => ?_
  have hfound : Target "a\nb  c".toList "b c".toList "b  c".toList := target_of_found (by decide)
  rw [ht.eq hfound]
  decide

/-- **Two places**: a text that overlaps itself is counted once, also if it is a block of lines. -/
theorem overlapping_targets :
    (validateInputBackend (request "aa" "b") (some "aaa".toList) .empty "/a.txt" (fileOf 3) 0 = .ok () ∧
      findActualString "aaa".toList "aa".toList = some "aa".toList ∧
      OccursAt (utf8Encode "aa".toList) (utf8Encode "aaa".toList) 0 ∧
      OccursAt (utf8Encode "aa".toList) (utf8Encode "aaa".toList) 1) ∧
    validateInputBackend (request "b\na b" "c") (some "b\na  b\na  bc".toList) .empty "/a.txt"
      (fileOf 12) 0 = .ok () ∧
      contains "b\na  b\na  bc".toList (normalizeQuotes "b\na b".toList) = false ∧
      findActualString "b\na  b\na  bc".toList "b\na b".toList = some "b\na  b".toList ∧
      OccursAt (utf8Encode "b\na  b".toList) (utf8Encode "b\na  b\na  bc".toList) 0 ∧
      OccursAt (utf8Encode "b\na  b".toList) (utf8Encode "b\na  b\na  bc".toList) 5 := by
  decide

end XiaoO.Tool.Edit
