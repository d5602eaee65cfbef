import XiaoO.Base.Occurrences
import Mathlib.Tactic

/-!
# Searching for several lists

`findAt` finds the first place where one of several lists occurs (`findAt_eq_some`,
`findAt_eq_none`).

A list may be woven from stretches in which another list does not occur and from others between them
(`Woven`). If the other list does occur in the whole, it meets one of those between
(`Woven.exists_overlap`); so it does not occur if none of those can be met by it (`Woven.free`).
-/

namespace XiaoO.Base

open List

variable {α : Type*} {needle mark text : List α}

/-! ### Places -/

/-- The list does not occur. -/
def Free (needle text : List α) : Prop := ∀ i, ¬OccursAt needle text i

theorem occursAt_append_right (s rest : List α) (i : ℕ) :
    OccursAt needle (s ++ rest) (s.length + i) ↔ OccursAt needle rest i := by
  rw [OccursAt, OccursAt, drop_append, drop_eq_nil_of_le (Nat.le_add_right _ _), Nat.add_sub_cancel_left, nil_append]

variable {i : ℕ}

theorem occursAt_of_append {start r : List α} (h : OccursAt needle (start ++ r) i)
    (hi : i + needle.length ≤ start.length) : OccursAt needle start i := by
  rw [OccursAt, drop_append_of_le_length (by omega)] at h
  apply prefix_of_prefix_length_le h (prefix_append _ _)
  rw [length_drop]
  omega

theorem OccursAt.of_take_drop {n m : ℕ} (h : OccursAt needle ((text.take m).drop n) i) :
    OccursAt needle text (n + i) := by
  rw [OccursAt, drop_drop, drop_take] at h
  exact h.trans (List.take_prefix _ _)

theorem OccursAt.add_length_le (h : OccursAt needle text i) (hn : needle ≠ []) :
    i + needle.length ≤ text.length := by
  have hlt := h.lt_length hn
  have hle := List.IsPrefix.length_le h
  rw [length_drop] at hle
  omega

/-! ### The first place -/

section Find

variable [DecidableEq α] {needles : List (List α)} {search start : ℕ} {found : List α}

/-- The first place from `search` on where one of the lists occurs, with the first of them that
does. -/
def findAt (needles : List (List α)) (text : List α) (search : ℕ) : Option (ℕ × List α) :=
  let occurs (i : ℕ) (s : List α) : Bool := s.isPrefixOf (text.drop i)
  ((List.range' search (text.length - search)).find? fun i => needles.any (occurs i)).bind fun start =>
    (needles.find? (occurs start)).map fun found => (start, found)

/-- The list is found at a place, and none of the lists occurs before. -/
structure FirstAt (needles : List (List α)) (text : List α) (search start : ℕ) (found : List α) : Prop where
  le : search ≤ start
  mem : found ∈ needles
  occurs : OccursAt found text start
  first : ∀ i, search ≤ i → i < start → ∀ needle ∈ needles, ¬OccursAt needle text i

theorem findAt_eq_some (h : findAt needles text search = some (start, found)) :
    FirstAt needles text search start found := by
  obtain ⟨i, hp, h⟩ := Option.bind_eq_some_iff.mp h
  obtain ⟨s, hf, h⟩ := Option.map_eq_some_iff.mp h
  cases h
  rw [find?_range'_eq_some] at hp
  obtain ⟨-, hm, hfr⟩ := hp
  refine ⟨(mem_range'_1.mp hm).1, mem_of_find?_eq_some hf, ?_, ?_⟩
  · have hpr := find?_some hf
    exact isPrefixOf_iff_prefix.mp hpr
  · intro i hi hlt needle hn ho
    have hnn := hfr i hi hlt
    rw [Bool.not_eq_true', any_eq_false] at hnn
    exact hnn needle hn (List.isPrefixOf_iff_prefix.mpr ho)

theorem findAt_eq_none (h : findAt needles text search = none) (hm : needle ∈ needles) (hnd : needle ≠ [])
    (hi : search ≤ i) : ¬OccursAt needle text i := by
  intro ho
  have hlt := ho.lt_length hnd
  have hpr : needle.isPrefixOf (text.drop i) = true := isPrefixOf_iff_prefix.mpr ho
  rw [findAt, Option.bind_eq_none_iff] at h
  cases hp : (range' search (text.length - search)).find? fun i =>
      needles.any fun s => s.isPrefixOf (text.drop i) with
  | none =>
    have hn := find?_eq_none.mp hp i (mem_range'_1.mpr ⟨hi, by omega⟩)
    exact hn (any_eq_true.mpr ⟨needle, hm, hpr⟩)
  | some start =>
    have hn := find?_eq_none.mp (Option.map_eq_none_iff.mp (h start hp))
    have ha := find?_some hp
    obtain ⟨s, hs, hsp⟩ := any_eq_true.mp ha
    exact hn s hs hsp

end Find

/-! ### Woven lists -/

/-- Two stretches, given by where they start and how long they are, meet. -/
def Overlap (i n j m : ℕ) : Prop := i < j + m ∧ j < i + n

/-- In no text do the two lists occur so that they meet. -/
def Clear (needle mark : List α) : Prop :=
  ∀ text i j, OccursAt needle text i → OccursAt mark text j → ¬Overlap i needle.length j mark.length

theorem Clear.free (h : Clear needle mark) (hn : needle ≠ []) : Free needle mark := by
  intro i hi
  have hlt := hi.lt_length hn
  have hp := length_pos_iff.mpr hn
  refine h mark i 0 hi ?_ ⟨by omega, by omega⟩
  exact prefix_refl mark

theorem OccursAt.getElem? {k : ℕ} (h : OccursAt needle text i) (hk : k < needle.length) :
    text[i + k]? = some needle[k] := by
  have hlt : k < (text.drop i).length := hk.trans_le (List.IsPrefix.length_le h)
  rw [← getElem?_drop, getElem?_eq_getElem hlt, List.IsPrefix.getElem h hk]

theorem clear_of_disjoint (hn : needle ≠ []) (hm : mark ≠ []) (h : ∀ c ∈ needle, c ∉ mark) : Clear needle mark := by
  rintro text i j hi hj ⟨hij, hji⟩
  have hn := length_pos_iff.mpr hn
  have hm := length_pos_iff.mpr hm
  -- what stands at the later of the two starts is in both
  rcases Nat.le_total i j with hle | hle
  · have ht := hi.getElem? (show j - i < needle.length by omega)
    have hh := hj.getElem? hm
    rw [Nat.add_zero] at hh
    rw [Nat.add_sub_cancel' hle, hh] at ht
    exact h _ (getElem_mem _) (Option.some.inj ht ▸ getElem_mem hm)
  · have ht := hj.getElem? (show i - j < mark.length by omega)
    have hh := hi.getElem? hn
    rw [Nat.add_zero] at hh
    rw [Nat.add_sub_cancel' hle, hh] at ht
    exact h _ (getElem_mem hn) (Option.some.inj ht ▸ getElem_mem _)

/-- Stretches with one property, and between them stretches with another. -/
inductive Woven (P S : List α → Prop) : List α → Prop
  | last {t : List α} : P t → Woven P S t
  | cons {t d rest : List α} : P t → S d → Woven P S rest → Woven P S (t ++ d ++ rest)

namespace Woven

variable {S : List α → Prop}

/-- **What occurs in the whole meets a stretch between** those where it does not occur. -/
theorem exists_overlap (h : Woven (Free needle) S text) (hi : OccursAt needle text i) :
    ∃ d, S d ∧ ∃ j, OccursAt d text j ∧ Overlap i needle.length j d.length := by
  induction h generalizing i with
  | last hf => exact absurd hi (hf i)
  | @cons t d r hf hd _ ih =>
    by_cases hb : i + needle.length ≤ t.length
    · rw [append_assoc] at hi
      exact absurd (occursAt_of_append hi hb) (hf i)
    · by_cases hm : i < t.length + d.length
      · exact ⟨d, hd, t.length, occursAt_append t r, hm, by omega⟩
      · obtain ⟨n, rfl⟩ : ∃ n, i = (t ++ d).length + n := ⟨i - (t ++ d).length, by rw [length_append]; omega⟩
        obtain ⟨d', hd', j, hj, ho⟩ := ih ((occursAt_append_right _ _ _).mp hi)
        refine ⟨d', hd', (t ++ d).length + j, (occursAt_append_right _ _ _).mpr hj, ?_⟩
        unfold Overlap at ho ⊢
        omega

/-- If what is between cannot be met, the list does not occur. -/
theorem free (h : Woven (Free needle) (· = mark) text) (hc : Clear needle mark) : Free needle text := by
  intro i hi
  obtain ⟨d, rfl, j, hj, ho⟩ := h.exists_overlap hi
  exact hc text i j hi hj ho

end Woven

end XiaoO.Base
