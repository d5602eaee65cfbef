import Mathlib.Data.List.GetD
import Mathlib.Tactic

/-!
# Lists filled slot by slot

Changes come one after the other, each for the slot with its index; a slot that the list does not
have yet is made, with those before it, from a blank. Groups of changes for the slots 0, 1, 2, …
make one slot each (`fill_flatMap`), and the list goes up to the last index (`lt_length_fill`).
-/

namespace XiaoO.Base

open List

variable {α δ : Type*} (blank : α) (index : δ → ℕ) (change : δ → α → α)

def putSlot (slots : List α) (d : δ) : List α :=
  (slots ++ List.replicate (index d + 1 - slots.length) blank).modify (index d) (change d)

def fill (slots : List α) (ds : List δ) : List α := ds.foldl (putSlot blank index change) slots

variable {blank index change} (ss : List α) (ds : List δ)

theorem fill_append (ds' : List δ) :
    fill blank index change ss (ds ++ ds') = fill blank index change (fill blank index change ss ds) ds' :=
  foldl_append

theorem length_putSlot (d : δ) : (putSlot blank index change ss d).length = max ss.length (index d + 1) := by
  rw [putSlot, length_modify, length_append, length_replicate]
  omega

theorem modify_append_singleton (a : α) (f : α → α) : (ss ++ [a]).modify ss.length f = ss ++ [f a] := by
  induction ss with
  | nil => rfl
  | cons b ss ih => rw [cons_append, length_cons, modify_succ_cons, ih, cons_append]

theorem fill_last {sl : List α} {a : α} {ds : List δ} (h : ∀ d ∈ ds, index d = sl.length) :
    fill blank index change (sl ++ [a]) ds = sl ++ [ds.foldl (fun a d => change d a) a] := by
  induction ds generalizing a with
  | nil => rfl
  | cons d ds ih =>
    obtain ⟨hd, hds⟩ := forall_mem_cons.mp h
    have hp : putSlot blank index change (sl ++ [a]) d = sl ++ [change d a] := by
      rw [putSlot, hd, length_append, length_singleton, Nat.sub_self, replicate_zero, append_nil,
        modify_append_singleton]
    rw [fill, foldl_cons, hp, ← fill, ih hds, foldl_cons]

theorem fill_next {sl : List α} {ds : List δ} (hds : ds ≠ []) (h : ∀ d ∈ ds, index d = sl.length) :
    fill blank index change sl ds = sl ++ [ds.foldl (fun a d => change d a) blank] := by
  obtain ⟨d, ds, rfl⟩ := exists_cons_of_ne_nil hds
  obtain ⟨hd, hr⟩ := forall_mem_cons.mp h
  have hp : putSlot blank index change sl d = sl ++ [change d blank] := by
    rw [putSlot, hd, Nat.add_sub_cancel_left, replicate_one, modify_append_singleton]
  rw [fill, foldl_cons, hp, ← fill, fill_last hr, foldl_cons]

section Groups

variable {γ : Type*} {gs : List γ} {s : γ → ℕ} {changes : γ → List δ}

/-- Groups of changes for the slots 0, 1, 2, … make one slot each. -/
theorem fill_flatMap (hne : ∀ g ∈ gs, changes g ≠ []) (hi : ∀ g ∈ gs, ∀ d ∈ changes g, index d = s g)
    (h : gs.map s = range gs.length) :
    fill blank index change [] (gs.flatMap changes) = gs.map fun g =>
      (changes g).foldl (fun a d => change d a) blank := by
  induction gs using reverseRecOn with
  | nil => rfl
  | append_singleton gs g ih =>
    rw [forall_mem_append] at hne hi
    rw [map_append, length_append, length_singleton, range_succ] at h
    obtain ⟨hgs, hg⟩ := append_inj h (by simp)
    have hs : s g = gs.length := by simpa using hg
    rw [flatMap_append, fill_append, ih hne.1 hi.1 hgs, map_append, flatMap_singleton]
    apply fill_next (hne.2 g (mem_singleton_self g))
    intro d hd
    rw [length_map, hi.2 g (mem_singleton_self g) d hd, hs]

end Groups

/-- Changes with the indices 0, 1, 2, … make one slot each. -/
theorem fill_eq_map {ds : List δ} (h : ds.map index = range ds.length) :
    fill blank index change [] ds = ds.map (change · blank) := by
  have hg : ds.flatMap (fun d => [d]) = ds := flatMap_singleton' ds
  rw [← hg, fill_flatMap (by simp) (by simp) h, hg]
  rfl

/-- The list goes up to the last index. -/
theorem lt_length_fill (j : ℕ) :
    j < (fill blank index change ss ds).length ↔ j < ss.length ∨ ∃ d ∈ ds, j ≤ index d := by
  induction ds generalizing ss with
  | nil => simp [fill]
  | cons d ds ih =>
    rw [fill, foldl_cons, ← fill, ih, length_putSlot, lt_max_iff, Nat.lt_succ_iff]
    simp [or_assoc]

end XiaoO.Base
