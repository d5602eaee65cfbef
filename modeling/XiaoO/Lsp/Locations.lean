import Mathlib.Data.List.Destutter
import Mathlib.Data.List.Sort
import Mathlib.Data.Prod.Lex
import Mathlib.Data.String.Basic

/-!
# Locations from several servers

`definition` and `references` (`lsp/src/manager.rs`) ask every server of a file and put the answers
together. `deduplicate_locations` sorts them by file and line and removes a location that is equal
to the one before it.

## What is proved

The result is sorted and has the locations of the answers. It has each of them once exactly if no
location comes again after another one of the same line (`deduplicateLocations_exact_iff`). The sort
does not look at the column: two servers that both report the same two columns of a line leave all
four (`columns_stay_interleaved`).
-/

namespace XiaoO.Lsp

open List

structure LspLocation where
  file : String
  line : ℕ
  col : ℕ
  deriving DecidableEq

/-- What `sort_by` compares: the file, and then the line. -/
def LspLocation.key (location : LspLocation) : String ×ₗ ℕ := toLex (location.file, location.line)

/-- `deduplicate_locations`: the sort is stable, and `dedup_by` compares all three fields. -/
def deduplicateLocations (locs : List LspLocation) : List LspLocation :=
  (locs.insertionSort fun a b => a.key ≤ b.key).destutter (· ≠ ·)

theorem mem_destutter_ne {α : Type*} [DecidableEq α] {x : α} : ∀ {l : List α}, x ∈ l.destutter (· ≠ ·) ↔ x ∈ l
  | [] => Iff.rfl
  | a :: l => by
    rw [destutter_cons']
    induction l generalizing a with
    | nil => rfl
    | cons b l ih =>
      rw [destutter'_cons]
      split_ifs with hab
      · rw [mem_cons, ih, mem_cons (a := x) (b := a)]
      · rw [ih, not_not.mp hab, mem_cons, mem_cons, mem_cons, or_self_left]

/-- Between two equal elements there is another one, if no neighbours are equal. -/
theorem exists_between {α : Type*} {a : α} {l : List α} (hl : l.IsChain (· ≠ ·)) (h : [a, a] <+ l) :
    ∃ b, a ≠ b ∧ [a, b, a] <+ l := by
  induction l with
  | nil => cases h
  | cons x l ih =>
    cases h with
    | cons _ h =>
      obtain ⟨b, hb, hs⟩ := ih hl.tail h
      exact ⟨b, hb, hs.cons x⟩
    | cons_cons _ h =>
      cases h with
      | cons b h => exact ⟨b, hl.rel, (h.cons_cons b).cons_cons a⟩
      | cons_cons _ h => exact absurd rfl hl.rel

/-- The sort leaves the locations of a line as they are. -/
theorem filter_insertionSort (key : String ×ₗ ℕ) (locs : List LspLocation) :
    (locs.insertionSort fun a b => a.key ≤ b.key).filter (·.key = key) = locs.filter (·.key = key) := by
  have hp : (locs.filter (·.key = key)).Pairwise fun a b => a.key ≤ b.key := by
    refine pairwise_of_forall_mem_list fun a ha b hb => le_of_eq ?_
    simp only [mem_filter, decide_eq_true_eq] at ha hb
    rw [ha.2, hb.2]
  have hs := (sublist_insertionSort hp filter_sublist).filter (·.key = key)
  simp only [filter_filter, Bool.and_self] at hs
  refine (hs.eq_of_length ?_).symm
  exact ((perm_insertionSort _ locs).filter _).length_eq.symm

/-- What has no equal neighbours stays. -/
theorem sublist_destutter' {α : Type*} [DecidableEq α] {a : α} {c l : List α} (hc : c.IsChain (· ≠ ·))
    (h : c <+ a :: l) : c <+ destutter' (· ≠ ·) a l := by
  induction l generalizing a c with
  | nil => exact h
  | cons b l ih =>
    rw [destutter'_cons]
    split_ifs with hab
    · cases h with
      | cons _ h => exact (ih hc h).cons a
      | cons_cons _ h => exact (ih hc.tail h).cons_cons a
    · apply ih hc
      obtain rfl := not_not.mp hab
      cases h with
      | cons _ h => exact h
      | @cons_cons c _ _ h =>
        -- what follows in `c` is not `a`, and so is not the second `a` either
        cases h with
        | cons _ h => exact h.cons_cons a
        | cons_cons _ h => exact absurd rfl hc.rel

theorem sublist_destutter {α : Type*} [DecidableEq α] {c : List α} (hc : c.IsChain (· ≠ ·)) :
    ∀ {l : List α}, c <+ l → c <+ l.destutter (· ≠ ·)
  | [], h => h
  | _ :: _, h => sublist_destutter' hc h

/-- **Locations are deduplicated** exactly if none comes again after another one of the same
line. -/
theorem deduplicateLocations_exact_iff (locs : List LspLocation) :
    (deduplicateLocations locs).Nodup ∧ (∀ a, a ∈ deduplicateLocations locs ↔ a ∈ locs) ∧
        ((deduplicateLocations locs).Pairwise fun a b => a.key ≤ b.key) ↔
      ∀ a b, [a, b, a] <+ locs → a.key = b.key → a = b := by
  have hp : (locs.insertionSort fun a b => a.key ≤ b.key).Pairwise fun a b => a.key ≤ b.key :=
    pairwise_insertionSort _ _
  constructor
  · rintro ⟨hn, -⟩ a b h hk
    by_contra hab
    have hf := h.filter (·.key = a.key)
    rw [filter_eq_self.mpr (by simp [hk]), ← filter_insertionSort a.key locs] at hf
    have hs := sublist_destutter (by simp [hab, Ne.symm hab]) (hf.trans filter_sublist)
    exact nodup_iff_sublist.mp hn a (((Sublist.refl [a]).cons b |>.cons_cons a).trans hs)
  · intro hlocs
    refine ⟨nodup_iff_sublist.mpr fun a ha => ?_, fun a => ?_, hp.sublist (destutter_sublist _ _)⟩
    · obtain ⟨b, hb, hs⟩ := exists_between (isChain_destutter _ _) ha
      have hs := hs.trans (destutter_sublist _ _)
      have hk : a.key = b.key := by
        have ho := hp.sublist hs
        simp only [pairwise_cons, mem_cons] at ho
        exact le_antisymm (ho.1 b (.inl rfl)) (ho.2.1 a (.inl rfl))
      have hf := hs.filter (·.key = a.key)
      rw [filter_insertionSort, filter_eq_self.mpr (by simp [hk])] at hf
      exact hb (hlocs a b (hf.trans filter_sublist) hk)
    · rw [deduplicateLocations, mem_destutter_ne, mem_insertionSort]

/-- **A location stays twice**: two servers report two columns of one line. -/
theorem columns_stay_interleaved : let answers : List LspLocation := [⟨"main.rs", 3, 1⟩, ⟨"main.rs", 3, 9⟩]
    deduplicateLocations (answers ++ answers) = answers ++ answers := by
  decide

end XiaoO.Lsp
