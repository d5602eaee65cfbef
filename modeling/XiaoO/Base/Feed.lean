import Mathlib.Data.List.Basic

/-!
# Machines that are fed piece by piece

A machine takes one input at a time, gives some outputs for it and goes to its next state: a decoder
of bytes, a buffer that gives off lines.

## What is proved

Feeding a list in pieces is feeding it at once (`feed_append`). So it is for a machine that may fail
and is fed no more then (`feedUntil_append_of_ok`, `feedUntil_append_of_failed`).
-/

namespace XiaoO.Base

variable {σ α β : Type*} (step : σ → α → List β × σ)

/-- The outputs for a list of inputs, and the state after it. -/
def feed : σ → List α → List β × σ
  | s, [] => ([], s)
  | s, a :: as => ((step s a).1 ++ (feed (step s a).2 as).1, (feed (step s a).2 as).2)

theorem feed_append (s : σ) (as bs : List α) : feed step s (as ++ bs) =
      ((feed step s as).1 ++ (feed step (feed step s as).2 bs).1, (feed step (feed step s as).2 bs).2) := by
  induction as generalizing s with
  | nil => rfl
  | cons a as ih =>
    rw [List.cons_append, feed, ih, feed]
    simp only [List.append_assoc]

section Failing

variable {σ α β ε : Type*} (step : σ → α → σ × Option ε)

/-- The state after a list of inputs, or after the first one that fails. -/
def feedUntil : σ → List α → σ × Option ε
  | s, [] => (s, none)
  | s, a :: as =>
    match step s a with
    | (t, none) => feedUntil t as
    | (t, some e) => (t, some e)

variable {step} {s t : σ} {a : α} {e : ε}

theorem feedUntil_cons_of_ok (h : step s a = (t, none)) (as : List α) :
    feedUntil step s (a :: as) = feedUntil step t as := by
  rw [feedUntil, h]

theorem feedUntil_cons_of_failed (h : step s a = (t, some e)) (as : List α) :
    feedUntil step s (a :: as) = (t, some e) := by
  rw [feedUntil, h]

theorem feedUntil_append (s : σ) (as bs : List α) : feedUntil step s (as ++ bs) = match feedUntil step s as with
      | (t, none) => feedUntil step t bs
      | (t, some e) => (t, some e) := by
  induction as generalizing s with
  | nil => rfl
  | cons a as ih =>
    rw [List.cons_append, feedUntil, feedUntil]
    rcases step s a with ⟨u, _ | e⟩
    · exact ih u
    · rfl

theorem feedUntil_append_of_ok {as : List α} (h : feedUntil step s as = (t, none)) (bs : List α) :
    feedUntil step s (as ++ bs) = feedUntil step t bs := by
  rw [feedUntil_append, h]

theorem feedUntil_append_of_failed {as : List α} (h : feedUntil step s as = (t, some e)) (bs : List α) :
    feedUntil step s (as ++ bs) = (t, some e) := by
  rw [feedUntil_append, h]

variable {c : σ → β → σ × Option ε}

/-- An input of one machine that is a list of inputs of another, and what comes after it. -/
theorem feedUntil_cons_eq_append {b : β} {as : List α} (h : c s b = feedUntil step s as) {bs : List β} {r : List α}
    (hr : ∀ t, feedUntil c t bs = feedUntil step t r) : feedUntil c s (b :: bs) = feedUntil step s (as ++ r) := by
  rcases hf : c s b with ⟨t, _ | e⟩
  · rw [feedUntil_cons_of_ok hf, feedUntil_append_of_ok (h.symm.trans hf), hr]
  · rw [feedUntil_cons_of_failed hf, feedUntil_append_of_failed (h.symm.trans hf)]

end Failing

end XiaoO.Base
