import Mathlib.Data.List.Induction
import Mathlib.Data.Nat.Find
import XiaoO.Base.ByteSlices
import XiaoO.Base.Lines

/-!
# Truncated tool output

`truncate_tool_output` of `core/src/tool_exec.rs`: an output over the limit of bytes or of lines is
cut to a preview of its first lines, and the rest is said to be omitted. One loop over the lines
builds the preview and counts; if the preview is empty in the end, the output is cut at the limit of
bytes.

## What is proved

Take the longest beginning of the output's lines that is within both limits (`firstLines`). The
preview is a prefix of the output within both limits, with the reported counts its own, exactly if
there are such lines and the first and the last of them are not empty (`truncation_exact_iff`).
Otherwise, an empty first line is left out of the preview (`empty_first_line_is_lost`).

Saving the full output is left out; the path, if it was saved, is an argument.
-/

namespace XiaoO.Conversation

open XiaoO.Base
open List hiding utf8Encode intercalate_cons_of_ne_nil

/-! ### The model -/

def maxToolOutputBytes : ℕ := 50 * 1024

def maxToolOutputLines : ℕ := 2000

def charBoundaryBefore (s : List Char) (index : ℕ) : ℕ :=
  if byteLength s ≤ index then byteLength s else floorBoundary (utf8Encode s) index

/-- The locals of the loop of `truncate_tool_output`. -/
structure Preview where
  totalLines : ℕ := 0
  keptBytes : ℕ := 0
  keptLines : ℕ := 0
  hitByteLimit : Bool := false
  previewDone : Bool := false
  preview : List Char := []

open Preview

/-- The body of the loop. -/
def Preview.line (p : Preview) (line : List Char) : Preview :=
  let p := { p with totalLines := p.totalLines + 1 }
  if p.previewDone then p
  else
    let lineSize := byteLength line + if p.preview.isEmpty then 0 else 1
    if maxToolOutputLines < p.keptLines + 1 then { p with previewDone := true }
    else if maxToolOutputBytes < p.keptBytes + lineSize then { p with hitByteLimit := true, previewDone := true }
    else
      { p with
        preview := (if p.preview.isEmpty then p.preview else p.preview ++ ['\n']) ++ line
        keptBytes := p.keptBytes + lineSize
        keptLines := p.keptLines + 1 }

/-- What the hint of a truncated output reports. -/
structure Truncation where
  preview : List Char
  hitByteLimit : Bool
  keptBytes : ℕ
  keptLines : ℕ
  omittedBytes : ℕ
  omittedLines : ℕ

/-- The preview and the counts of an output over a limit; `none` is the panic of a cut inside a
character. -/
def truncation? (output : List Char) : Option Truncation :=
  let totalBytes := byteLength output
  let p := (lines output).foldl line {}
  let report (preview : List Char) (keptBytes keptLines : ℕ) (hitByteLimit : Bool) : Truncation :=
    { preview, hitByteLimit, keptBytes, keptLines, omittedBytes := totalBytes - keptBytes
      omittedLines := p.totalLines - keptLines }
  if p.preview.isEmpty && decide (0 < totalBytes) then
    let boundary := charBoundaryBefore output maxToolOutputBytes
    (splitAtByte? output boundary).map fun (preview, _) => report preview boundary 0 true
  else some (report p.preview p.keptBytes p.keptLines p.hitByteLimit)

/-- An output over either limit. -/
def OverLimit (output : List Char) : Prop :=
  maxToolOutputBytes < byteLength output ∨ maxToolOutputLines < (lines output).length
  deriving Decidable

def Truncation.text (t : Truncation) (savedPath : Option String) : String :=
  String.ofList t.preview ++ "\n[Tool output truncated (" ++ (if t.hitByteLimit then "byte limit"
    else "line limit") ++
  "): omitted " ++ toString t.omittedBytes ++ " bytes (" ++ toString t.omittedLines ++ " lines), showing first " ++
  toString t.keptBytes ++ " bytes (" ++ toString t.keptLines ++ " lines)]\n" ++
  (savedPath.map fun path => "Full output saved to: " ++ path ++ "\n").getD "" ++
  "Use `file_read` with offset/limit or `grep` to search the full content."

def truncateToolOutput (savedPath : Option String) (output : String) : Option String :=
  if OverLimit output.toList then (truncation? output.toList).map (·.text savedPath) else some output

/-! ### The lines within the limits -/

/-- Lines that are within both limits when they are joined. -/
def Fits (ls : List (List Char)) : Prop :=
  byteLength (['\n'].intercalate ls) ≤ maxToolOutputBytes ∧ ls.length ≤ maxToolOutputLines

instance (ls : List (List Char)) : Decidable (Fits ls) := inferInstanceAs (Decidable (_ ∧ _))

/-- The longest beginning of the lines of the output that is within both limits. -/
def firstLines (output : List Char) : List (List Char) :=
  (lines output).take (Nat.findGreatest (fun n => Fits ((lines output).take n)) (lines output).length)

theorem Fits.of_prefix {a b : List (List Char)} (h : a <+: b) (hb : Fits b) : Fits a := by
  obtain ⟨r, rfl⟩ := h
  have hp := byteLength_le_of_prefix (intercalate_prefix_append ['\n'] a r)
  exact ⟨hp.trans hb.1, (prefix_append a r).length_le.trans hb.2⟩

/-- Lines within the limits, the next of which does not fit. -/
theorem firstLines_eq {output : List Char} {kept : List (List Char)} (hkp : kept <+: lines output) (hf : Fits kept)
    (he : kept = lines output ∨ ∃ l, kept ++ [l] <+: lines output ∧ ¬ Fits (kept ++ [l])) :
    firstLines output = kept := by
  have hg : Nat.findGreatest (fun n => Fits ((lines output).take n)) (lines output).length = kept.length := by
    refine Nat.findGreatest_eq_iff.mpr ⟨hkp.length_le, fun _ => ?_, fun n hlt hle hn => ?_⟩
    · rwa [← prefix_iff_eq_take.mp hkp]
    · rcases he with rfl | ⟨l, hl, hnf⟩
      · exact absurd hle (Nat.not_le.mpr hlt)
      · have hlen : (kept ++ [l]).length ≤ n := by simpa using Nat.succ_le_of_lt hlt
        exact hnf (hn.of_prefix (prefix_take_iff.mpr ⟨hl, hlen⟩))
  rw [firstLines, hg, ← prefix_iff_eq_take.mp hkp]

/-! ### The loop -/

/-- The lines kept so far, from the first one: the preview is what they are joined to without the
empty ones at the beginning, and the counts are those of the preview and of the lines. -/
structure Preview.Keeps (p : Preview) (kept : List (List Char)) : Prop where
  preview : p.preview = ['\n'].intercalate (kept.dropWhile isEmpty)
  keptBytes : p.keptBytes = byteLength p.preview
  keptLines : p.keptLines = kept.length
  bytes_le : p.keptBytes ≤ maxToolOutputBytes
  lines_le : p.keptLines ≤ maxToolOutputLines

/-- The lines that are joined begin with one that is not empty. -/
theorem dropWhile_isEmpty_cases (k : List (List Char)) :
    k.dropWhile isEmpty = [] ∨ ∃ c l rest, k.dropWhile isEmpty = (c :: l) :: rest := by
  cases hd : k.dropWhile isEmpty with
  | nil => exact .inl rfl
  | cons f rest =>
    have hf := head_dropWhile_not isEmpty (l := k) (by simp [hd])
    simp only [hd, head_cons] at hf
    obtain ⟨c, l, rfl⟩ := exists_cons_of_ne_nil (isEmpty_eq_false_iff.mp hf)
    exact .inr ⟨c, l, rest, rfl⟩

theorem intercalate_cons_cons_eq (c : Char) (l : List Char) (r : List (List Char)) :
    ∃ more, ['\n'].intercalate ((c :: l) :: r) = c :: more := by
  cases r <;> exact ⟨_, rfl⟩

theorem byteLength_newline : byteLength ['\n'] = 1 := by decide

theorem Preview.Keeps.join {p : Preview} {k : List (List Char)} (h : p.Keeps k) (ln : List Char) :
    (if p.preview.isEmpty then p.preview else p.preview ++ ['\n']) ++ ln =
        ['\n'].intercalate ((k ++ [ln]).dropWhile isEmpty) ∧
      p.keptBytes + (byteLength ln + if p.preview.isEmpty then 0 else 1) =
        byteLength ((if p.preview.isEmpty then p.preview else p.preview ++ ['\n']) ++ ln) := by
  rw [h.keptBytes, dropWhile_append]
  rcases dropWhile_isEmpty_cases k with hd | ⟨c, l, r, hd⟩
  · have hp : p.preview = [] := by rw [h.preview, hd, intercalate_nil]
    rw [hp, hd]
    cases ln <;> simp
  · obtain ⟨m, hm⟩ := intercalate_cons_cons_eq c l r
    have hp : p.preview.isEmpty = false := by rw [h.preview, hd, hm, isEmpty_cons]
    rw [hp, hd, isEmpty_cons, if_neg Bool.false_ne_true, if_neg Bool.false_ne_true,
      if_neg Bool.false_ne_true, intercalate_concat (cons_ne_nil _ _), byteLength_append, byteLength_append,
      byteLength_newline, h.preview, hd, append_assoc, singleton_append]
    exact ⟨rfl, by omega⟩

/-- No line was kept after the first ones: the next line would go over a limit, if the empty lines
at the beginning were not left out. -/
def FullBefore (kept : List (List Char)) (next : List Char) : Prop :=
  (kept ++ [next]).dropWhile isEmpty = kept ++ [next] → ¬ Fits (kept ++ [next])

/-- One round of the loop keeps the line, or stops keeping lines. -/
theorem Preview.line_cases {p : Preview} {k : List (List Char)} (h : p.Keeps k) (l : List Char) :
    (p.line l).totalLines = p.totalLines + 1 ∧
      ((p.line l).previewDone = true ∧ (p.line l).Keeps k ∧ (p.previewDone = true ∨ FullBefore k l) ∨
        p.previewDone = false ∧ (p.line l).previewDone = false ∧ (p.line l).Keeps (k ++ [l])) := by
  obtain ⟨hj, hs⟩ := h.join l
  unfold line
  dsimp only
  generalize (if p.preview.isEmpty then p.preview else p.preview ++ ['\n']) ++ l = joined at hj hs ⊢
  generalize (byteLength l + if p.preview.isEmpty then 0 else 1) = size at hs ⊢
  split_ifs with hd hl hb
  · exact ⟨rfl, .inl ⟨hd, ⟨h.preview, h.keptBytes, h.keptLines, h.bytes_le, h.lines_le⟩, .inl hd⟩⟩
  · refine ⟨rfl, .inl ⟨rfl, ⟨h.preview, h.keptBytes, h.keptLines, h.bytes_le, h.lines_le⟩, .inr fun _ hf => ?_⟩⟩
    have hle := hf.2
    rw [length_append, ← h.keptLines, length_singleton] at hle
    omega
  · refine ⟨rfl, .inl ⟨rfl, ⟨h.preview, h.keptBytes, h.keptLines, h.bytes_le, h.lines_le⟩, .inr fun hw hf => ?_⟩⟩
    have hle := hf.1
    rw [← hw, ← hj, ← hs] at hle
    omega
  · refine ⟨rfl, .inr ⟨by simpa using hd, by simpa using hd, hj, hs, ?_, ?_, ?_⟩⟩
    · rw [length_append, ← h.keptLines, length_singleton]
    · exact Nat.le_of_not_lt hb
    · exact Nat.le_of_not_lt hl

/-- **The loop keeps the first lines**, and counts all of them. -/
theorem foldl_line (ls : List (List Char)) : (ls.foldl line {}).totalLines = ls.length ∧
      ∃ k, k <+: ls ∧ (ls.foldl line {}).Keeps k ∧
        ((ls.foldl line {}).previewDone = false ∧ k = ls ∨
          (ls.foldl line {}).previewDone = true ∧ ∃ l, k ++ [l] <+: ls ∧ FullBefore k l) := by
  induction ls using reverseRecOn with
  | nil => exact ⟨rfl, [], prefix_rfl, ⟨rfl, rfl, rfl, Nat.zero_le _, Nat.zero_le _⟩, .inl ⟨rfl, rfl⟩⟩
  | append_singleton ls line ih =>
    obtain ⟨ht, k, hp, hkp, ha⟩ := ih
    rw [foldl_append, foldl_cons, foldl_nil, length_append]
    obtain ⟨hcn, hc⟩ := line_cases hkp line
    refine ⟨by rw [hcn, ht, length_singleton], ?_⟩
    have hpa : ls <+: ls ++ [line] := prefix_append _ _
    rcases hc with ⟨hd, hk, hfull⟩ | ⟨hg, hg', hk⟩
    · refine ⟨k, hp.trans hpa, hk, .inr ⟨hd, ?_⟩⟩
      rcases ha with ⟨hg, rfl⟩ | ⟨-, l, hl, hf⟩
      · exact ⟨line, prefix_rfl, hfull.resolve_left (by simp [hg])⟩
      · exact ⟨l, hl.trans hpa, hf⟩
    · rcases ha with ⟨-, rfl⟩ | ⟨hd, -⟩
      · exact ⟨k ++ [line], prefix_rfl, hk, .inl ⟨hg', rfl⟩⟩
      · exact absurd hd (by simp [hg])

/-! ### The cut of a long line -/

theorem byteLength_singleton_le_four (c : Char) : byteLength [c] ≤ 4 := by
  have hl : byteLength [c] = (String.utf8EncodeChar c).length := by simp [byteLength, utf8Encode]
  rw [hl, String.length_utf8EncodeChar]
  exact c.utf8Size_le_four

/-- `char_boundary_before` is where the text can be cut, at the index or less than a character
before it. -/
theorem exists_split_charBoundaryBefore (s : List Char) (i : ℕ) :
    ∃ a b, s = a ++ b ∧ byteLength a = charBoundaryBefore s i ∧ byteLength a ≤ i ∧
      (b ≠ [] → i < byteLength a + 4) := by
  unfold charBoundaryBefore
  split_ifs with hs
  · exact ⟨s, [], (append_nil s).symm, rfl, hs, fun h => absurd rfl h⟩
  · obtain ⟨a, c, b, rfl, hle, hlt⟩ := exists_char_at (Nat.lt_of_not_le hs)
    have hf := byteLength_singleton_le_four c
    exact ⟨a, c :: b, rfl, (floorBoundary_utf8Encode hle hlt).symm, hle, fun _ => by omega⟩

/-! ### When the report is exact -/

/-- There are lines, and the first and the last of them are not empty. -/
def CleanEnds (kept : List (List Char)) : Prop :=
  kept ≠ [] ∧ (∀ l ∈ kept.head?, l ≠ []) ∧ ∀ l ∈ kept.getLast?, l ≠ []
  deriving Decidable

/-- The preview is a prefix of the output within the limits, and the counts are right. -/
structure Truncation.Exact (t : Truncation) (output : List Char) : Prop where
  begins : t.preview <+: output
  bytes_le : byteLength t.preview ≤ maxToolOutputBytes
  lines_le : (lines t.preview).length ≤ maxToolOutputLines
  keptBytes : t.keptBytes = byteLength t.preview
  keptLines : t.keptLines = (lines t.preview).length
  totalBytes : t.keptBytes + t.omittedBytes = byteLength output
  totalLines : t.keptLines + t.omittedLines = (lines output).length

theorem dropWhile_isEmpty_eq_self {kept : List (List Char)} (h : ∀ l ∈ kept.head?, l ≠ []) :
    kept.dropWhile isEmpty = kept := by
  cases kept with
  | nil => rfl
  | cons l => exact dropWhile_cons_of_neg (by simpa using h l rfl)

/-- The first line of all is the first of the kept ones. -/
theorem CleanEnds.head_of_prefix {kept ls : List (List Char)} (h : CleanEnds kept) (hp : kept <+: ls) :
    ∀ l ∈ ls.head?, l ≠ [] := by
  obtain ⟨r, rfl⟩ := hp
  rw [head?_append_of_ne_nil _ h.1]
  exact h.2.1

section Report

variable {output : List Char} {p : Preview} {kept : List (List Char)}

/-- With clean ends the preview is what the kept lines are joined to, and reads back as them. -/
theorem exact_of_cleanEnds (hr : '\r' ∉ output) (hkp : kept <+: lines output) (hk : p.Keeps kept)
    (ht : p.totalLines = (lines output).length) (hc : CleanEnds kept) :
    Truncation.Exact ⟨p.preview, p.hitByteLimit, p.keptBytes, p.keptLines, byteLength output - p.keptBytes,
      p.totalLines - p.keptLines⟩ output := by
  have hln : ∀ l ∈ kept, IsLine l := fun l hl => (eq_intercalate_lines output hr).1 l (hkp.subset hl)
  have hp : p.preview = ['\n'].intercalate kept := by
    rw [hk.preview, dropWhile_isEmpty_eq_self hc.2.1]
  have hrd : lines p.preview = kept := by rw [hp, lines_intercalate hln hc.2.2]
  have hb : p.preview <+: output := hp ▸ prefix_of_prefix_lines hr hkp
  refine ⟨hb, ?_, ?_, hk.keptBytes, ?_, ?_, ?_⟩ <;> dsimp only
  · rw [← hk.keptBytes]
    exact hk.bytes_le
  · rw [hrd, ← hk.keptLines]
    exact hk.lines_le
  · rw [hrd, hk.keptLines]
  · have hle := byteLength_le_of_prefix hb
    rw [← hk.keptBytes] at hle
    omega
  · have hle := hkp.length_le
    rw [hk.keptLines, ht]
    omega

/-- An empty first line is not in a preview that is not empty. -/
theorem head_ne_nil_of_begins (hr : '\r' ∉ output) (hkp : kept <+: lines output) (hk : p.Keeps kept)
    (hne : p.preview ≠ []) (hbg : p.preview <+: output) : ∀ l ∈ kept.head?, l ≠ [] := by
  rintro l hl rfl
  obtain ⟨rest, rfl⟩ : ∃ rest, kept = [] :: rest := by
    cases kept with
    | nil => cases hl
    | cons f rest => exact ⟨rest, by rw [Option.some.inj hl]⟩
  obtain ⟨hln, -⟩ := eq_intercalate_lines output hr
  rcases dropWhile_isEmpty_cases ([] :: rest) with hd | ⟨c, l, m, hd⟩
  · exact hne (by rw [hk.preview, hd, intercalate_nil])
  · -- The preview begins with a character of a line, and the output with a line feed.
    obtain ⟨t, ht⟩ := intercalate_cons_cons_eq c l m
    have hm : c :: l ∈ ([] : List Char) :: rest :=
      (dropWhile_sublist _).subset (hd ▸ mem_cons_self)
    have hrs : rest ≠ [] := by
      rintro rfl
      simp at hm
    have hf : ['\n'] <+: output := by
      refine List.IsPrefix.trans ?_ (prefix_of_prefix_lines hr hkp)
      rw [intercalate_cons_of_ne_nil hrs]
      exact ⟨_, rfl⟩
    rw [hk.preview, hd, ht] at hbg
    obtain ⟨a, ha⟩ := hf
    obtain ⟨b, hb⟩ := hbg
    have hc : c = '\n' := (cons.inj (hb.trans ha.symm)).1
    exact (hln _ (hkp.subset hm)).1 (hc ▸ mem_cons_self)

/-- An empty last line is not counted in the preview. -/
theorem getLast_ne_nil_of_lines (hr : '\r' ∉ output) (hkp : kept <+: lines output) (hk : p.Keeps kept)
    (hh : ∀ l ∈ kept.head?, l ≠ []) (hc : p.keptLines = (lines p.preview).length) : ∀ l ∈ kept.getLast?, l ≠ [] := by
  rintro l hl rfl
  obtain ⟨i, rfl⟩ := getLast?_eq_some_iff.mp hl
  have hln : ∀ l ∈ i, IsLine l := fun l hm =>
    (eq_intercalate_lines output hr).1 l (hkp.subset (mem_append_left _ hm))
  have hi : i ≠ [] := by
    rintro rfl
    exact hh [] rfl rfl
  rw [hk.keptLines, hk.preview, dropWhile_isEmpty_eq_self hh, lines_intercalate_concat_nil hln hi,
    length_append, length_singleton] at hc
  omega

/-- The loop keeps the longest beginning within the limits, if the first line is not empty. -/
theorem firstLines_eq_of_keeps (hkp : kept <+: lines output) (hk : p.Keeps kept)
    (he : kept = lines output ∨ ∃ l, kept ++ [l] <+: lines output ∧ FullBefore kept l)
    (hh : ∀ l ∈ (lines output).head?, l ≠ []) : firstLines output = kept := by
  have hw : ∀ k, k <+: lines output → k.dropWhile isEmpty = k := by
    rintro k ⟨r, hkr⟩
    refine dropWhile_isEmpty_eq_self fun l hl => hh l ?_
    rw [← hkr, head?_append, hl]
    rfl
  have hb := hk.bytes_le
  rw [hk.keptBytes, hk.preview, hw kept hkp] at hb
  refine firstLines_eq hkp ⟨hb, hk.keptLines ▸ hk.lines_le⟩ (he.imp_right ?_)
  rintro ⟨l, hl, hf⟩
  exact ⟨l, hl, hf (hw _ hl)⟩

theorem cleanEnds_firstLines_iff (hkp : kept <+: lines output) (hk : p.Keeps kept)
    (he : kept = lines output ∨ ∃ l, kept ++ [l] <+: lines output ∧ FullBefore kept l) :
    CleanEnds (firstLines output) ↔ CleanEnds kept := by
  refine ⟨fun hc => ?_, fun hc => ?_⟩
  · rwa [← firstLines_eq_of_keeps hkp hk he (hc.head_of_prefix (List.take_prefix _ _))]
  · rwa [firstLines_eq_of_keeps hkp hk he (hc.head_of_prefix hkp)]

end Report

/-- **When the report is exact**: for an output over a limit, without carriage returns, the preview
is a prefix within the limits and the counts are right exactly if the longest beginning of the lines
within both limits has a first and a last line, and they are not empty. -/
theorem truncation_exact_iff (savedPath : Option String) (output : List Char) (hover : OverLimit output)
    (hr : '\r' ∉ output) :
    ∃ t : Truncation, truncateToolOutput savedPath (.ofList output) = some (t.text savedPath) ∧
      truncation? output = some t ∧
      (t.Exact output ↔ CleanEnds (firstLines output)) := by
  obtain ⟨ht, kept, hkp, hk, he⟩ := foldl_line (lines output)
  have hkl := cleanEnds_firstLines_iff hkp hk (he.imp (·.2) (·.2))
  rw [truncateToolOutput, String.toList_ofList, if_pos hover, hkl]
  suffices h : ∃ t, truncation? output = some t ∧ (t.Exact output ↔ CleanEnds kept) by
    obtain ⟨t, htr, hex⟩ := h
    exact ⟨t, by rw [htr, Option.map_some], htr, hex⟩
  have hps : 0 < byteLength output := by
    rw [Nat.pos_iff_ne_zero]
    intro hz
    rw [OverLimit, byteLength_eq_zero hz] at hover
    simp at hover
  unfold truncation?
  dsimp only
  cases he : ((lines output).foldl line {}).preview.isEmpty with
  | true =>
    -- The output is cut, and no line is counted.
    obtain ⟨a, b, hs, hl, hle, hf⟩ := exists_split_charBoundaryBefore output maxToolOutputBytes
    have hct : splitAtByte? output (charBoundaryBefore output maxToolOutputBytes) = some (a, b) :=
      splitAtByte?_eq_some.mpr ⟨hs, hl⟩
    rw [Bool.true_and, if_pos (decide_eq_true hps), hct]
    refine ⟨_, rfl, fun hex => ?_, fun hc => ?_⟩
    · have hn : lines a = [] := eq_nil_of_length_eq_zero hex.keptLines.symm
      have ha := lines_eq_nil (fun hmm => hr (by simp [hs, hmm])) hn
      subst ha
      subst hs
      have hlm := hf (by rintro rfl; simp at hps)
      simp [maxToolOutputBytes] at hlm
    · have hp := isEmpty_iff.mp he
      rcases dropWhile_isEmpty_cases kept with hd | ⟨c, l, rest, hd⟩
      · rw [dropWhile_isEmpty_eq_self hc.2.1] at hd
        exact absurd hd hc.1
      · obtain ⟨more, hm⟩ := intercalate_cons_cons_eq c l rest
        rw [hk.preview, hd, hm] at hp
        cases hp
  | false =>
    refine ⟨_, rfl, fun hex => ?_, exact_of_cleanEnds hr hkp hk ht⟩
    have hne : ((lines output).foldl line {}).preview ≠ [] := by simpa using he
    have hh := head_ne_nil_of_begins hr hkp hk hne hex.begins
    refine ⟨?_, hh, getLast_ne_nil_of_lines hr hkp hk hh hex.keptLines⟩
    rintro rfl
    exact hne hk.preview

/-! ### Outputs of one letter -/

/-- `n` times the letter a. -/
def letters (n : ℕ) : List Char := replicate n 'a'

theorem notMem_letters {c : Char} (h : c ≠ 'a') (n : ℕ) : c ∉ letters n := fun hm => h (eq_of_mem_replicate hm)

theorem byteLength_letters (n : ℕ) : byteLength (letters n) = n := by
  induction n with
  | zero => rfl
  | succ n ih =>
    have ho : byteLength ['a'] = 1 := by decide
    exact congrArg (· + 1) ih

theorem letters_ne_nil {n : ℕ} (h : 0 < n) : letters n ≠ [] := by
  intro hn
  have hl := byteLength_letters n
  rw [hn, byteLength_nil] at hl
  omega

theorem lines_letters {n : ℕ} (h : 0 < n) : lines (letters n) = [letters n] :=
  lines_of_line (notMem_letters (by decide) n) (letters_ne_nil h)

theorem lines_append_letters {l : List Char} (hl : IsLine l) {n : ℕ} (h : 0 < n) :
    lines (l ++ '\n' :: letters n) = [l, letters n] := by
  rw [lines_line_append hl, lines_letters h]

/-- A short line before a line over the limit of bytes is a clean cut. -/
theorem truncation_exact_of_short_line :
    ∃ t : Truncation, truncateToolOutput none (.ofList (['a'] ++ '\n' :: letters 51200)) = some (t.text none) ∧
      t.Exact (['a'] ++ '\n' :: letters 51200) := by
  -- A variable: of the numeral, the kernel would write out all letters.
  obtain ⟨n, hn⟩ : ∃ n, n = 51200 := ⟨_, rfl⟩
  rw [← hn]
  have hln : IsLine ['a'] := by decide
  have hl := lines_append_letters hln (n := n) (by omega)
  have ho : OverLimit (['a'] ++ '\n' :: letters n) := by
    refine .inl ?_
    rw [byteLength_append, byteLength_cons '\n', byteLength_letters, byteLength_newline]
    simp only [maxToolOutputBytes]
    omega
  have hr : '\r' ∉ ['a'] ++ '\n' :: letters n := by
    simp [notMem_letters (c := '\r') (by decide)]
  have hon : byteLength ['a'] = 1 := by decide
  have hk : firstLines (['a'] ++ '\n' :: letters n) = [['a']] := by
    refine firstLines_eq (hl ▸ ⟨[letters n], rfl⟩) (by decide) (.inr ⟨letters n, hl ▸ ⟨[], rfl⟩, fun hf => ?_⟩)
    have hb := hf.1
    rw [intercalate_concat (cons_ne_nil _ _), intercalate_singleton, byteLength_append, hon,
      byteLength_cons, byteLength_letters, byteLength_newline, maxToolOutputBytes] at hb
    omega
  obtain ⟨t, ht, -, hi⟩ := truncation_exact_iff none _ ho hr
  exact ⟨t, ht, hi.mpr (by rw [hk]; decide)⟩

/-- **An empty first line is lost**: the preview begins with the second line, counts as two lines
and is one. -/
theorem empty_first_line_is_lost : OverLimit ('\n' :: letters 51200) ∧ '\r' ∉ '\n' :: letters 51200 ∧
      truncation? ('\n' :: letters 51200) = some ⟨letters 51200, false, 51200, 2, 1, 0⟩ ∧
      ¬ letters 51200 <+: '\n' :: letters 51200 ∧ (lines (letters 51200)).length = 1 := by
  obtain ⟨n, hn⟩ : ∃ n, n = 51200 := ⟨_, rfl⟩
  rw [← hn]
  have hl := lines_append_letters (l := []) (by decide) (n := n) (by omega)
  rw [nil_append] at hl
  have hb : byteLength ('\n' :: letters n) = 1 + n := by
    rw [byteLength_cons, byteLength_letters, byteLength_newline]
  have hlt : maxToolOutputBytes < 1 + n := by simp only [maxToolOutputBytes]; omega
  refine ⟨.inl (hb ▸ hlt), by simp [notMem_letters (c := '\r') (by decide)], ?_, ?_, ?_⟩
  · have he : (letters n).isEmpty = false := by simpa using letters_ne_nil (n := n) (by omega)
    have hle : ¬ 51200 < n := by omega
    rw [truncation?, hl, hb]
    simp [line, byteLength_letters, maxToolOutputLines, maxToolOutputBytes, he, hle]
  · rintro ⟨r, hr⟩
    obtain ⟨m, rfl⟩ : ∃ m, n = m + 1 := ⟨51199, hn⟩
    exact absurd (cons.inj hr).1 (by decide)
  · rw [lines_letters (by omega)]
    rfl

end XiaoO.Conversation
