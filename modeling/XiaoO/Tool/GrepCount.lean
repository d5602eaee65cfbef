import XiaoO.Base.Text
import Mathlib.Data.List.TakeDrop
import Mathlib.Order.Nat

/-!
# Counting matches with grep

In count mode the grep tool asks `grep -rc` for a line `path:count` of every file, keeps the lines
that are not zero and shows a page of them (`grep/executor/backend.rs`).

## The model

`BoundedLineCollector` stops the search after `head_limit + offset + 1` lines, one more than a page
needs. The zero lines are dropped after that, in `run_grep`, and `apply_head_limit` cuts the page.
Whether the search was stopped is not used in count mode.

## What is proved

The bound counts the zero lines, so matches behind them are lost (`zeros_hide_counts`).
`count_mode_pages_iff` says exactly when the page is right.
-/

namespace XiaoO.Tool.Grep

open XiaoO.Base List

def absoluteHardCap : ℕ := 2000

def defaultHeadLimit : ℕ := 250

variable {α : Type} (headLimit : Option ℕ)

def resolveHeadLimit : ℕ :=
  let raw := headLimit.getD defaultHeadLimit
  if raw = 0 ∨ raw > absoluteHardCap then absoluteHardCap else raw

/-- `on_line`, for the lines of a search until it answers `false`. -/
def onLines (maxKeep : ℕ) : List (List Char) → List (List Char) → List (List Char)
  | kept, [] => kept
  | kept, line :: rest =>
    if kept.length ≥ maxKeep then kept else onLines maxKeep (kept ++ [line.filter (· ≠ '\r')]) rest

/-- `rsplit_once(':')`: what follows the last colon. -/
def afterColon? (line : List Char) : Option (List Char) :=
  if ':' ∈ line then some (line.reverse.takeWhile (· ≠ ':')).reverse else none

/-- A line that is kept in count mode: all but those with a count of zero. -/
def isCount (line : List Char) : Bool := ((afterColon? line).bind parseU64?).all (· ≠ 0)

/-- `run_grep` in count mode. -/
def runGrep (headLimit offset : ℕ) (lines : List (List Char)) : List (List Char) :=
  (onLines ((if headLimit = 0 then absoluteHardCap else headLimit) + offset + 1) [] lines).filter isCount

def applyHeadLimit (items : List α) (limit offset : ℕ) : List α × Option ℕ :=
  if limit = 0 then (items.drop offset, none)
  else if offset ≥ items.length then ([], none)
  else ((items.drop offset).take limit, if items.length - offset > limit then some limit else none)

/-- Count mode: the lines of the page and the limit that it reports. -/
def countMode (offset : ℕ) (lines : List (List Char)) : List (List Char) × Option ℕ :=
  applyHeadLimit (runGrep (resolveHeadLimit headLimit) offset lines) (resolveHeadLimit headLimit) offset

def counts (lines : List (List Char)) : List (List Char) := (lines.map (·.filter (· ≠ '\r'))).filter isCount

/-- **The property**: a page of the counts, and a limit exactly when more of them follow. -/
def page (limit offset : ℕ) (lines : List (List Char)) : List (List Char) × Option ℕ :=
  (((counts lines).drop offset).take limit, if offset + limit < (counts lines).length then some limit else none)

theorem resolveHeadLimit_pos : 0 < resolveHeadLimit headLimit := by
  dsimp only [resolveHeadLimit]
  split
  · decide
  · omega

theorem onLines_eq (k : ℕ) (kp ls : List (List Char)) :
    onLines k kp ls = kp ++ (ls.map (·.filter (· ≠ '\r'))).take (k - kp.length) := by
  induction ls generalizing kp with
  | nil => simp [onLines]
  | cons l ls ih =>
    rw [onLines]
    split_ifs with hk
    · simp [Nat.sub_eq_zero_of_le hk]
    · rw [ih, map_cons, append_assoc, show k - kp.length = k - (kp.length + 1) + 1 by omega]
      simp

theorem applyHeadLimit_eq (xs : List α) {n : ℕ} (hn : 0 < n) (o : ℕ) :
    applyHeadLimit xs n o = ((xs.drop o).take n, if o + n < xs.length then some n else none) := by
  rw [applyHeadLimit, if_neg hn.ne']
  split_ifs with ho hr hl hl
  · omega
  · rw [drop_eq_nil_of_le ho, take_nil]
  · rfl
  · omega
  · omega
  · rfl

def cleaned (lines : List (List Char)) : List (List Char) := lines.map (·.filter (· ≠ '\r'))

/-- A page of the start of a list is that of the list exactly if the rest is not needed. -/
theorem page_append_iff {first rest : List α} {limit offset : ℕ} (hlimit : 0 < limit) :
    (((first.drop offset).take limit, if offset + limit < first.length then some limit else none) =
      (((first ++ rest).drop offset).take limit,
        if offset + limit < (first ++ rest).length then some limit else none)) ↔
      offset + limit < first.length ∨ rest = [] ∨ (first ++ rest).length ≤ offset := by
  constructor
  · intro h
    obtain ⟨hp, hl⟩ := Prod.mk.inj h
    have hp := congrArg length hp
    simp only [length_take, length_drop, length_append] at hp hl ⊢
    by_contra hn
    simp only [not_or, ← ne_eq] at hn
    have hpos := length_pos_iff.mpr hn.2.1
    rw [if_neg (by omega)] at hl
    split_ifs at hl
    omega
  · rintro (h | rfl | h)
    · rw [if_pos h, if_pos (by rw [length_append]; omega), drop_append_of_le_length (by omega),
        take_append_of_le_length (by rw [length_drop]; omega)]
    · simp
    · have hf : first.length ≤ offset := by
        rw [length_append] at h
        omega
      rw [drop_eq_nil_of_le hf, drop_eq_nil_of_le h, if_neg (by omega), if_neg (by omega)]

/-- **When count mode shows the page asked for**: exactly if the lines that are collected have no
zero, or there is no other count after them, or there are not more counts than are skipped. -/
theorem count_mode_pages_iff (headLimit : Option ℕ) (offset : ℕ) (lines : List (List Char)) :
    countMode headLimit offset lines = page (resolveHeadLimit headLimit) offset lines ↔
      (∀ line ∈ (cleaned lines).take (resolveHeadLimit headLimit + offset + 1), isCount line) ∨
      (∀ line ∈ (cleaned lines).drop (resolveHeadLimit headLimit + offset + 1), ¬isCount line) ∨
      (counts lines).length ≤ offset := by
  have hp := resolveHeadLimit_pos headLimit
  generalize hn : resolveHeadLimit headLimit = limit at hp ⊢
  have hs : counts lines = ((cleaned lines).take (limit + offset + 1)).filter isCount ++
      ((cleaned lines).drop (limit + offset + 1)).filter isCount := by
    rw [← filter_append, take_append_drop]
    rfl
  rw [countMode, hn, applyHeadLimit_eq _ hp, runGrep, if_neg hp.ne', onLines_eq, nil_append,
    length_nil, Nat.sub_zero,
    page, hs, ← cleaned, page_append_iff hp, filter_eq_nil_iff, ← or_assoc, ← or_assoc]
  refine or_congr_left ?_
  have hle : ((cleaned lines).take (limit + offset + 1)).length ≤ limit + offset + 1 := length_take_le _ _
  constructor
  · rintro (h | h)
    · -- as many are kept as are collected
      have hall := length_filter_le isCount ((cleaned lines).take (limit + offset + 1))
      exact .inl (length_filter_eq_length_iff.mp (by omega))
    · exact .inr h
  · rintro (h | h)
    · rw [filter_eq_self.mpr h]
      by_cases hl : limit + offset + 1 ≤ (cleaned lines).length
      · left
        rw [length_take]
        omega
      · right
        rw [drop_eq_nil_of_le (by omega)]
        exact fun _ h => by cases h
    · exact .inr h

/-- Two zeros before a match: one page is asked for, and an empty one is shown. -/
theorem zeros_hide_counts : countMode (some 1) 0 ["a:0".toList, "b:0".toList, "c:1".toList] = ([], none) ∧
    page 1 0 ["a:0".toList, "b:0".toList, "c:1".toList] = (["c:1".toList], none) := by
  decide

end XiaoO.Tool.Grep
