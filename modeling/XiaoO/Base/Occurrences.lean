import Mathlib.Data.List.Basic

/-!
# Occurrences of a list in a list

The places where a list occurs in another, the first of them (`before?`), and the number of
occurrences that are found one after the other without overlapping (`countMatches`).

## What is proved

`before?` splits the list at an occurrence (`before?_eq_some`), and finds one if there is one
(`before?_isSome_iff`). Two occurrences that do not overlap are both counted
(`two_le_countMatches`), so if no occurrences overlap a count of one means a single place
(`eq_of_countMatches_le_one`). Consecutive parts of a list that is joined from parts occur in it,
joined (`intercalate_window`).
-/

namespace XiaoO.Base

open List

variable {α : Type*} {needle : List α}

/-- The list occurs at a place. -/
def OccursAt (needle text : List α) (i : ℕ) : Prop := needle <+: text.drop i

instance [DecidableEq α] (text : List α) (i : ℕ) : Decidable (OccursAt needle text i) :=
  inferInstanceAs (Decidable (needle <+: text.drop i))

variable {i : ℕ} {text : List α}

theorem occursAt_cons_succ {c : α} : OccursAt needle (c :: text) (i + 1) ↔ OccursAt needle text i :=
  Iff.rfl

theorem occursAt_append (s r : List α) : OccursAt needle (s ++ needle ++ r) s.length := by
  rw [OccursAt, append_assoc, drop_left]
  exact prefix_append needle r

theorem not_occursAt_nil (hn : needle ≠ []) : ¬OccursAt needle [] i := by
  intro h
  rw [OccursAt, drop_nil] at h
  exact hn (prefix_nil.mp h)

variable [DecidableEq α]

/-- `&s[..s.find(needle)?]`: what stands before the first occurrence. -/
def before? (needle : List α) : List α → Option (List α)
  | [] => if needle.isEmpty then some [] else none
  | c :: text => if needle.isPrefixOf (c :: text) then some [] else (before? needle text).map (c :: ·)

/-- `s.match_indices(needle).count()`, when the next places are part of an occurrence. -/
def countMatches (needle : List α) : ℕ → List α → ℕ
  | _, [] => if needle.isEmpty then 1 else 0
  | skip + 1, _ :: text => countMatches needle skip text
  | 0, c :: text =>
    if needle.isPrefixOf (c :: text) then countMatches needle (needle.length - 1) text + 1
    else countMatches needle 0 text

/-- `s.replace(needle, new)`, when the next places are part of an occurrence. -/
def replaceMatches (needle new : List α) : ℕ → List α → List α
  | _, [] => if needle.isEmpty then new else []
  | skip + 1, _ :: text => replaceMatches needle new skip text
  | 0, c :: text =>
    if needle.isEmpty then new ++ c :: replaceMatches needle new 0 text
    else if needle.isPrefixOf (c :: text) then new ++ replaceMatches needle new (needle.length - 1) text
    else c :: replaceMatches needle new 0 text

/-! ### The first occurrence -/

/-- The list is what stands before the occurrence, the occurrence, and the rest. -/
theorem before?_eq_some {s : List α} (h : before? needle text = some s) : ∃ rest, text = s ++ needle ++ rest := by
  induction text generalizing s with rw [before?] at h
  | nil =>
    split_ifs at h with he
    cases h
    rw [isEmpty_iff.mp he]
    exact ⟨[], rfl⟩
  | cons c text ih =>
    split_ifs at h with hh
    · cases h
      obtain ⟨rest, hr⟩ := isPrefixOf_iff_prefix.mp hh
      exact ⟨rest, by rw [nil_append, hr]⟩
    · obtain ⟨s', hs, rfl⟩ := Option.map_eq_some_iff.mp h
      obtain ⟨rest, rfl⟩ := ih hs
      exact ⟨rest, rfl⟩

theorem before?_isSome_iff : (before? needle text).isSome ↔ needle <:+: text := by
  constructor
  · intro h
    obtain ⟨s, hs⟩ := Option.isSome_iff_exists.mp h
    obtain ⟨r, rfl⟩ := before?_eq_some hs
    exact ⟨s, r, rfl⟩
  · rintro ⟨s, r, rfl⟩
    induction s with
    | nil =>
      cases hn : needle with
      | nil => cases r <;> simp [before?]
      | cons d n' =>
        have hh : (d :: n').isPrefixOf (d :: (n' ++ r)) :=
          isPrefixOf_iff_prefix.mpr ⟨r, rfl⟩
        rw [nil_append, cons_append, before?, if_pos hh]
        rfl
    | cons c s ih =>
      rw [cons_append, cons_append, before?]
      split_ifs
      · rfl
      · simpa using ih

/-! ### Counting -/

/-- An occurrence after the skipped places is counted, or one before it. -/
theorem one_le_countMatches (hn : needle ≠ []) {skip : ℕ} (hi : OccursAt needle text i)
    (hs : skip ≤ i) : 1 ≤ countMatches needle skip text := by
  induction text generalizing skip i with
  | nil => exact absurd hi (not_occursAt_nil hn)
  | cons c text ih =>
    cases skip with
    | succ =>
      obtain ⟨i, rfl⟩ : ∃ i', i = i' + 1 := ⟨i - 1, by omega⟩
      exact ih hi (by omega)
    | zero =>
      rw [countMatches]
      split_ifs with hh
      · omega
      · cases i with
        | zero => exact absurd (List.isPrefixOf_iff_prefix.mpr hi) hh
        | succ i => exact ih hi (Nat.zero_le i)

/-- Two occurrences that do not overlap are counted twice. -/
theorem two_le_countMatches (hn : needle ≠ []) {skip j : ℕ} (hi : OccursAt needle text i)
    (hj : OccursAt needle text j) (hsk : skip ≤ i) (hij : i + needle.length ≤ j) :
    2 ≤ countMatches needle skip text := by
  have hl : 0 < needle.length := length_pos_iff.mpr hn
  induction text generalizing skip i j with
  | nil => exact absurd hi (not_occursAt_nil hn)
  | cons c text ih =>
    obtain ⟨j, rfl⟩ : ∃ j', j = j' + 1 := ⟨j - 1, by omega⟩
    cases skip with
    | succ =>
      obtain ⟨i, rfl⟩ : ∃ i', i = i' + 1 := ⟨i - 1, by omega⟩
      exact ih hi hj (by omega) (by omega)
    | zero =>
      rw [countMatches]
      split_ifs with hh
      · -- the count goes on behind this occurrence, where the second one still lies
        have hs : 1 ≤ countMatches needle (needle.length - 1) text :=
          one_le_countMatches hn (occursAt_cons_succ.mp hj) (by omega)
        omega
      · cases i with
        | zero => exact absurd (List.isPrefixOf_iff_prefix.mpr hi) hh
        | succ i => exact ih hi hj (Nat.zero_le i) (by omega)

/-- No two occurrences overlap. -/
def Apart (needle text : List α) : Prop :=
  ∀ i j, OccursAt needle text i → OccursAt needle text j → i < j → i + needle.length ≤ j

omit [DecidableEq α] in
theorem OccursAt.lt_length (h : OccursAt needle text i) (hn : needle ≠ []) : i < text.length := by
  have hle := h.length_le
  have hp : 0 < needle.length := length_pos_iff.mpr hn
  rw [length_drop] at hle
  omega

omit [DecidableEq α] in
theorem apart_iff :
    Apart needle text ↔ ∀ i < text.length, ∀ j < text.length, OccursAt needle text i →
      OccursAt needle text j → i < j →
      i + needle.length ≤ j := by
  constructor
  · exact fun h i _ j _ => h i j
  · intro h i j hi hj hij
    rcases eq_or_ne needle [] with rfl | hn
    · simpa using Nat.le_of_lt hij
    · exact h i (hi.lt_length hn) j (hj.lt_length hn) hi hj hij

instance (text : List α) : Decidable (Apart needle text) := decidable_of_iff _ apart_iff.symm

/-- **A count of one is a single place**, if no occurrences overlap. -/
theorem eq_of_countMatches_le_one (hn : needle ≠ []) (ha : Apart needle text)
    (hc : countMatches needle 0 text ≤ 1) {j : ℕ} (hi : OccursAt needle text i) (hj : OccursAt needle text j) :
    i = j := by
  rcases Nat.lt_trichotomy i j with hij | hij | hij
  · have := two_le_countMatches hn hi hj (Nat.zero_le i) (ha i j hi hj hij)
    omega
  · exact hij
  · have := two_le_countMatches hn hj hi (Nat.zero_le j) (ha j i hj hi hij)
    omega

/-! ### Parts of a joined list -/

section

omit [DecidableEq α]

/-- Where consecutive parts begin in a list that is joined from parts. -/
theorem intercalate_append_of_ne_nil (s : List α) {parts : List (List α)} (hp : parts ≠ []) (e : List (List α)) :
    s.intercalate (e ++ parts) = e.flatMap (· ++ s) ++ s.intercalate parts := by
  induction e with
  | nil => rfl
  | cons p e ih =>
    obtain ⟨next, r, hn⟩ := exists_cons_of_ne_nil (append_ne_nil_of_right_ne_nil e hp)
    rw [hn] at ih
    rw [cons_append, hn, intercalate_cons_cons, ih, flatMap_cons]
    simp only [append_assoc]

theorem intercalate_append (s : List α) {a b : List (List α)} (ha : a ≠ []) (hb : b ≠ []) :
    s.intercalate (a ++ b) = s.intercalate a ++ s ++ s.intercalate b := by
  obtain ⟨a, x, rfl⟩ := (eq_nil_or_concat a).resolve_left ha
  obtain ⟨y, b, rfl⟩ := exists_cons_of_ne_nil hb
  have hx := intercalate_append_of_ne_nil s (cons_ne_nil x []) a
  have hxb := intercalate_append_of_ne_nil s (cons_ne_nil x (y :: b)) a
  rw [concat_eq_append, append_assoc, singleton_append, hx, hxb]
  simp

theorem intercalate_prefix_append (s : List α) (ps l : List (List α)) :
    s.intercalate ps <+: s.intercalate (ps ++ l) := by
  induction ps with
  | nil => exact nil_prefix
  | cons p ps ih =>
    cases ps with
    | nil =>
      cases l with
      | nil => exact prefix_refl _
      | cons =>
        simp
    | cons =>
      rw [cons_append, cons_append, intercalate_cons_cons, intercalate_cons_cons]
      exact (prefix_append_right_inj _).mpr ih

/-- Consecutive parts, joined, and what stands around them. -/
theorem intercalate_window (s : List α) {ps : List (List α)} (hp : ps ≠ []) (e l : List (List α)) :
    ∃ rest, s.intercalate (e ++ (ps ++ l)) = e.flatMap (· ++ s) ++ s.intercalate ps ++ rest := by
  obtain ⟨rest, hr⟩ := intercalate_prefix_append s ps l
  refine ⟨rest, ?_⟩
  rw [intercalate_append_of_ne_nil s (append_ne_nil_of_left_ne_nil hp l), ← hr, append_assoc]

end

end XiaoO.Base
