import XiaoO.Base.Occurrences
import XiaoO.Base.Text

/-!
# The lines of a text

`str::lines` on lists of characters, for texts without carriage returns.

## What is proved

A text is its lines joined by line feeds, with or without a line feed at the end
(`eq_intercalate_lines`), so that the first lines, joined, are a prefix of it
(`prefix_of_prefix_lines`). Lines that are joined are read back (`lines_intercalate`), but for an
empty one at the end (`lines_intercalate_concat_nil`).
-/

namespace XiaoO.Base

open List

def lines (s : List Char) : List (List Char) := (linesFrom [] s).map String.toList

@[simp] theorem lines_nil : lines [] = [] := rfl

/-- A line has neither of the two characters that end lines. -/
def IsLine (l : List Char) : Prop := '\n' ∉ l ∧ '\r' ∉ l
  deriving Decidable

/-! ### Reading a text line by line -/

theorem linesFrom_cons {c : Char} (hc : c ≠ '\n') (a s : List Char) :
    linesFrom a (c :: s) = linesFrom (c :: a) s := by
  rw [linesFrom]
  · exact hc
  · exact fun _ _ h => hc h

theorem linesFrom_newline {a : List Char} (hr : '\r' ∉ a) (s : List Char) :
    linesFrom a ('\n' :: s) = String.ofList a.reverse :: linesFrom [] s := by
  rw [linesFrom]
  rintro a' rfl
  exact hr mem_cons_self

variable {l : List Char} {ls : List (List Char)}

/-- The characters up to the next line feed join the current line. -/
theorem linesFrom_append (hl : '\n' ∉ l) (a s : List Char) :
    linesFrom a (l ++ s) = linesFrom (l.reverse ++ a) s := by
  induction l generalizing a with
  | nil => rfl
  | cons c l ih =>
    have hc : c ≠ '\n' := fun h => hl (h ▸ mem_cons_self)
    rw [cons_append, linesFrom_cons hc, ih (fun h => hl (mem_cons_of_mem c h)), reverse_cons,
      append_assoc, singleton_append]

theorem lines_of_line (hl : '\n' ∉ l) (hne : l ≠ []) : lines l = [l] := by
  have hls : ∀ a : List Char, a ≠ [] → linesFrom a [] = [String.ofList a.reverse] := by
    rintro (_ | ⟨c, a⟩) ha
    · exact absurd rfl ha
    · rfl
  have hr := linesFrom_append hl [] []
  rw [append_nil, append_nil] at hr
  rw [lines, hr, hls _ (by simpa using hne), reverse_reverse, map_singleton, String.toList_ofList]

/-- The first line ends at the first line feed. -/
theorem lines_line_append (hl : IsLine l) (s : List Char) : lines (l ++ '\n' :: s) = l :: lines s := by
  rw [lines, linesFrom_append hl.1, append_nil, linesFrom_newline (by simpa using hl.2), reverse_reverse,
    map_cons, String.toList_ofList]
  rfl

theorem lines_eq_nil {s : List Char} (hr : '\r' ∉ s) (h : lines s = []) : s = [] := by
  by_contra hs
  by_cases hn : '\n' ∈ s
  · obtain ⟨l, r, rfl, hl⟩ := eq_append_cons_of_mem hn
    rw [lines_line_append ⟨hl, fun hm => hr (mem_append_left _ hm)⟩] at h
    cases h
  · rw [lines_of_line hn hs] at h
    cases h

/-! ### Joining lines -/

theorem intercalate_cons_of_ne_nil (h : ls ≠ []) :
    ['\n'].intercalate (l :: ls) = l ++ '\n' :: ['\n'].intercalate ls := by
  obtain ⟨next, r, rfl⟩ := exists_cons_of_ne_nil h
  rw [intercalate_cons_cons, append_assoc, singleton_append]

theorem intercalate_concat (h : ls ≠ []) (l : List Char) :
    ['\n'].intercalate (ls ++ [l]) = ['\n'].intercalate ls ++ '\n' :: l := by
  rw [intercalate_append _ h (cons_ne_nil l []), intercalate_singleton, append_assoc,
    singleton_append]

/-- **A text is its lines joined**, with or without a line feed at the end. -/
theorem eq_intercalate_lines (s : List Char) (hr : '\r' ∉ s) :
    (∀ l ∈ lines s, IsLine l) ∧ (s = ['\n'].intercalate (lines s) ∨ s = ['\n'].intercalate (lines s ++ [[]])) := by
  by_cases hn : '\n' ∈ s
  · obtain ⟨l, r, rfl, hl⟩ := eq_append_cons_of_mem hn
    have hln : IsLine l := ⟨hl, fun hm => hr (mem_append_left _ hm)⟩
    obtain ⟨hli, hrs⟩ := eq_intercalate_lines r fun hm => hr (by simp [hm])
    rw [lines_line_append hln]
    refine ⟨forall_mem_cons.mpr ⟨hln, hli⟩, ?_⟩
    rcases hrs with hrs | hrs
    · by_cases hnl : lines r = []
      · rw [hnl, intercalate_nil] at hrs
        exact .inr (by rw [hnl, hrs]; simp)
      · exact .inl (by rw [intercalate_cons_of_ne_nil hnl, ← hrs])
    · exact .inr (by rw [cons_append, intercalate_cons_of_ne_nil (by simp), ← hrs])
  · by_cases hs : s = []
    · subst hs
      exact ⟨by simp, .inl rfl⟩
    · rw [lines_of_line hn hs]
      exact ⟨by simpa using ⟨hn, hr⟩, .inl intercalate_singleton.symm⟩
termination_by s.length
decreasing_by
  subst_vars
  simp only [length_append, length_cons]
  omega

/-- The first lines, joined, are a prefix of the text. -/
theorem prefix_of_prefix_lines {s : List Char} (hr : '\r' ∉ s) (h : ls <+: lines s) :
    ['\n'].intercalate ls <+: s := by
  obtain ⟨la, hl⟩ := h
  rcases (eq_intercalate_lines s hr).2 with hs | hs
  · have hp := intercalate_prefix_append ['\n'] ls la
    rwa [hl, ← hs] at hp
  · have hp := intercalate_prefix_append ['\n'] ls (la ++ [[]])
    rwa [← append_assoc, hl, ← hs] at hp

/-- **Joined lines are read back**, if the last one is not empty. -/
theorem lines_intercalate (hls : ∀ l ∈ ls, IsLine l) (hla : ∀ l ∈ ls.getLast?, l ≠ []) :
    lines (['\n'].intercalate ls) = ls := by
  induction ls with
  | nil => rfl
  | cons l ls ih =>
    have hl := hls l mem_cons_self
    cases ls with
    | nil => rw [intercalate_singleton, lines_of_line hl.1 (hla l rfl)]
    | cons =>
      rw [intercalate_cons_of_ne_nil (cons_ne_nil _ _), lines_line_append hl,
        ih (fun k hk => hls k (mem_cons_of_mem l hk)) fun k hk => hla k (by rwa [getLast?_cons_cons])]

/-- An empty line at the end is not read back. -/
theorem lines_intercalate_concat_nil (hls : ∀ l ∈ ls, IsLine l) (hne : ls ≠ []) :
    lines (['\n'].intercalate (ls ++ [[]])) = ls := by
  induction ls with
  | nil => exact absurd rfl hne
  | cons l ls ih =>
    have hl := hls l mem_cons_self
    rw [cons_append, intercalate_cons_of_ne_nil (by simp), lines_line_append hl]
    by_cases hn : ls = []
    · rw [hn]
      rfl
    · rw [ih (fun k hk => hls k (mem_cons_of_mem l hk)) hn]

end XiaoO.Base
