import Mathlib.Logic.Relation
import Mathlib.Tactic.SplitIfs

/-!
# Runs of a labelled machine

A machine is a partial function `step : σ → α → Option σ`: in a state, a label either can be
executed, with the state that follows, or cannot. A label names everything a step depends on besides
the state, such as who moves, what the clock says and what the environment answers, so that any
interleaving and any environment is a list of labels.

Runs are taken under a condition on the steps, `P s a` for a step with label `a` from the state `s`.
The condition `Always` leaves every run.

## What is proved

The induction rule for invariants of the states reached (`RunUnder.invariant`), and that a list of
labels that executes is a run (`runUnder_of_exec`), from which the existence of a run with a
decidable property is a computation (`exists_run_of_exec`, `exists_runs_of_exec`). Lists of labels
are also how the course of a run is spoken of (`exec_append`). A machine that keeps a log of what it
did can be held to what an entry needs of the earlier ones (`Backed`).
-/

namespace XiaoO.Base

open Relation Option

variable {σ α : Type*} {step : σ → α → Option σ} {P : σ → α → Prop}

/-- A step from `s` to `t` under a label that meets the condition. -/
def StepUnder (step : σ → α → Option σ) (P : σ → α → Prop) (s t : σ) : Prop :=
  ∃ a, P s a ∧ step s a = some t

/-- A run from `s` to `t` all of whose steps meet the condition. -/
def RunUnder (step : σ → α → Option σ) (P : σ → α → Prop) : σ → σ → Prop :=
  ReflTransGen (StepUnder step P)

/-- The condition that asks for nothing. -/
def Always (_ : σ) (_ : α) : Prop := True

instance : DecidableRel (Always : σ → α → Prop) := fun _ _ => isTrue trivial

/-- **The invariant rule**: what holds at the start and is kept by every step that
meets the condition holds in every state reached. -/
theorem RunUnder.invariant {I : σ → Prop} {s t : σ} (h : RunUnder step P s t) (hs : I s)
    (hst : ∀ {u v a}, I u → P u a → step u a = some v → I v) : I t := by
  induction h with
  | refl => exact hs
  | tail _ hl ih =>
    obtain ⟨a, hP, heq⟩ := hl
    exact hst ih hP heq

/-- Execute a list of labels, as long as each step meets the condition. -/
def exec (step : σ → α → Option σ) (P : σ → α → Prop) [DecidableRel P] : List α → σ → Option σ
  | [], s => some s
  | a :: as, s => if P s a then (step s a).bind (exec step P as) else none

theorem runUnder_of_exec [DecidableRel P] {as : List α} {s t : σ} (h : exec step P as s = some t) :
    RunUnder step P s t := by
  induction as generalizing s with
  | nil =>
    obtain rfl : s = t := some.inj h
    exact ReflTransGen.refl
  | cons a as ih =>
    rw [exec] at h
    split_ifs at h with hP
    obtain ⟨u, hu, hr⟩ := bind_eq_some_iff.mp h
    exact ReflTransGen.head ⟨a, hP, hu⟩ (ih hr)

theorem exec_cons_eq_some [DecidableRel P] {a : α} {as : List α} {s u : σ} :
    exec step P (a :: as) s = some u ↔ P s a ∧ ∃ t, step s a = some t ∧ exec step P as t = some u := by
  rw [exec]
  split_ifs with hP <;> simp [hP, bind_eq_some_iff]

/-- A run that executes goes through the states of its first parts. -/
theorem exec_append [DecidableRel P] (as bs : List α) (s : σ) :
    exec step P (as ++ bs) s = (exec step P as s).bind (exec step P bs) := by
  induction as generalizing s with
  | nil => rfl
  | cons a as ih =>
    rw [List.cons_append, exec, exec]
    split_ifs
    · rw [bind_assoc]
      exact bind_congr fun t _ => ih t
    · rfl

/-- A list of labels that executes to a state with a decidable property. -/
theorem exists_run_of_exec (step : σ → α → Option σ) (P : σ → α → Prop) [DecidableRel P] (s : σ)
    (Q : σ → Prop) [DecidablePred Q] (as : List α)
    (h : (exec step P as s).any (fun t => decide (Q t)) = true) : ∃ t, RunUnder step P s t ∧ Q t := by
  cases ht : exec step P as s with
  | none => simp [ht] at h
  | some t =>
    rw [ht] at h
    exact ⟨t, runUnder_of_exec ht, of_decide_eq_true h⟩

/-- A run that goes on after a state of interest. -/
theorem exists_runs_of_exec (step : σ → α → Option σ) (P : σ → α → Prop) [DecidableRel P] (s : σ)
    (Q : σ → σ → Prop) [DecidableRel Q] (as bs : List α)
    (h : (exec step P as s).any (fun t => (exec step P bs t).any fun u => decide (Q t u)) = true) :
    ∃ t u, RunUnder step P s t ∧ RunUnder step P t u ∧ Q t u := by
  obtain ⟨t, ht, hr⟩ := exists_run_of_exec step P s
    (fun t => (exec step P bs t).any (fun u => decide (Q t u)) = true) as (by simpa using h)
  obtain ⟨u, hu, hQ⟩ := exists_run_of_exec step P t (Q t) bs hr
  exact ⟨t, u, ht, hu, hQ⟩

/-! ### Logs -/

/-- Each entry of a log, the last one first, is backed by the entries before it. -/
def Backed {ε : Type*} (Q : List ε → ε → Prop) : List ε → Prop
  | [] => True
  | e :: earlier => Q earlier e ∧ Backed Q earlier

instance {ε : Type*} (Q : List ε → ε → Prop) [h : ∀ earlier e, Decidable (Q earlier e)] :
    (log : List ε) → Decidable (Backed Q log)
  | [] => isTrue trivial
  | e :: earlier =>
    have := instDecidableBacked Q earlier
    inferInstanceAs (Decidable (Q earlier e ∧ Backed Q earlier))

end XiaoO.Base
