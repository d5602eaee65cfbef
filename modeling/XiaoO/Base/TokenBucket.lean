import Mathlib.Algebra.Order.Field.Basic
import Mathlib.Tactic.Linarith
import Mathlib.Tactic.Ring

/-!
# Token buckets

A bucket holds at most `capacity` tokens, and `rate` tokens flow in per unit of time. Who takes
something takes a token. In any window of time no more is taken than a full bucket and what flows in
during the window.

The times are those of a clock that does not go back: the bucket is filled up at times that only
grow, and a token is taken at the time of the last filling. The times at which something was taken
are a log, the last one first.

## What is proved

The potential argument: what was taken since any moment, together with what is still in the bucket,
is at most the capacity and the inflow since that moment. It is kept by filling up
(`Metered.refill`) and by taking (`Metered.take`), and gives the bound of every window
(`Metered.window`).
-/

namespace XiaoO.Base

variable {K : Type*} [Field K] [LinearOrder K] [IsStrictOrderedRing K]

/-- How many were taken from `w` on. -/
def takenSince (w : K) (log : List K) : ℕ := log.countP fun t => w ≤ t

/-- How many were taken in a window. -/
def takenIn (w e : K) (log : List K) : ℕ := log.countP fun t => w ≤ t ∧ t ≤ e

/-- A bucket with so many tokens at the time `last`, and what was taken from it up to then. -/
structure Metered (capacity rate tokens last : K) (log : List K) : Prop where
  nonneg : 0 ≤ tokens
  le_capacity : tokens ≤ capacity
  past : ∀ t ∈ log, t ≤ last
  since : ∀ w ≤ last, takenSince w log + tokens ≤ capacity + (last - w) * rate
  windows : ∀ w e, w ≤ e → takenIn w e log ≤ capacity + (e - w) * rate

variable {capacity rate ts last : K} {log : List K}

theorem metered_full (hc : 0 ≤ capacity) (hr : 0 ≤ rate) (n : K) : Metered capacity rate capacity n [] where
  nonneg := hc
  le_capacity := le_rfl
  past := List.forall_mem_nil _
  since w hw := by
    have hi : 0 ≤ (n - w) * rate := mul_nonneg (sub_nonneg.mpr hw) hr
    simpa [takenSince] using hi
  windows w e hwe := by
    have hi : 0 ≤ (e - w) * rate := mul_nonneg (sub_nonneg.mpr hwe) hr
    simpa [takenIn] using add_nonneg hc hi

/-- **Filling up** keeps the books. -/
theorem Metered.refill (h : Metered capacity rate ts last log) (hr : 0 ≤ rate) {n : K} (hn : last ≤ n) :
    Metered capacity rate (min (ts + (n - last) * rate) capacity) n log where
  nonneg := by
    have hi : 0 ≤ (n - last) * rate := mul_nonneg (sub_nonneg.mpr hn) hr
    exact le_min (add_nonneg h.nonneg hi) (h.nonneg.trans h.le_capacity)
  le_capacity := min_le_right _ _
  past t ht := (h.past t ht).trans hn
  since w hw := by
    rcases le_or_gt w last with ho | hnw
    · -- what flows in is counted on both sides
      have hs := h.since w ho
      have hm : min (ts + (n - last) * rate) capacity ≤ ts + (n - last) * rate := min_le_left _ _
      calc (takenSince w log : K) + min (ts + (n - last) * rate) capacity
          ≤ takenSince w log + (ts + (n - last) * rate) := by gcongr
        _ ≤ capacity + (last - w) * rate + (n - last) * rate := by linarith
        _ = capacity + (n - w) * rate := by ring
    · -- nothing was taken since
      have hz : takenSince w log = 0 :=
        List.countP_eq_zero.mpr fun t ht => by simpa using (h.past t ht).trans_lt hnw
      have hi : 0 ≤ (n - w) * rate := mul_nonneg (sub_nonneg.mpr hw) hr
      have hm : min (ts + (n - last) * rate) capacity ≤ capacity := min_le_right _ _
      rw [hz, Nat.cast_zero, zero_add]
      linarith
  windows := h.windows

/-- **Taking** a token keeps the books. -/
theorem Metered.take (h : Metered capacity rate ts last log) (hr : 0 ≤ rate) (htk : 1 ≤ ts) :
    Metered capacity rate (ts - 1) last (last :: log) := by
  have hp : ∀ t ∈ last :: log, t ≤ last := List.forall_mem_cons.mpr ⟨le_rfl, h.past⟩
  have hs : ∀ w ≤ last, takenSince w (last :: log) + (ts - 1) ≤ capacity + (last - w) * rate := by
    intro w hw
    have hc : takenSince w (last :: log) = takenSince w log + 1 := List.countP_cons_of_pos (decide_eq_true hw)
    have ho := h.since w hw
    rw [hc]
    push_cast
    linarith
  refine ⟨sub_nonneg.mpr htk, ?_, hp, hs, fun w e hwe => ?_⟩
  · have hle := h.le_capacity
    linarith
  · by_cases hin : w ≤ last ∧ last ≤ e
    · obtain ⟨hw, he⟩ := hin
      have ha : takenIn w e (last :: log) = takenSince w (last :: log) :=
        List.countP_congr fun t ht => by simp [(hp t ht).trans he]
      have hb := hs w hw
      have hi : (last - w) * rate ≤ (e - w) * rate := by gcongr
      rw [ha]
      linarith
    · have hsm : takenIn w e (last :: log) = takenIn w e log := List.countP_cons_of_neg (by simpa using hin)
      rw [hsm]
      exact h.windows w e hwe

/-- **The bound of a window.** -/
theorem Metered.window (h : Metered capacity rate ts last log) (w : K) {d : K} (hd : 0 ≤ d) :
    takenIn w (w + d) log ≤ capacity + d * rate := by
  have hb := h.windows w (w + d) (le_add_of_nonneg_right hd)
  rwa [add_sub_cancel_left] at hb

end XiaoO.Base
