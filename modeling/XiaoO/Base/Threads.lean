import XiaoO.Base.Runs
import Mathlib.Algebra.BigOperators.Group.Finset.Basic

/-!
# Threads over a shared state

Threads that take turns: in each step one thread acts, on the shared state and on
its own, and the others wait. What a thread can do is a partial function `act` of the
shared state, its own state and an input `α` that stands for all the rest of the
world, so a label is a thread with an input and a run is an interleaving.

A *token* is something that at most one thread holds, and that one once: a place in
a queue, a duty still to be done. `Single n` says so of the numbers `n` of tokens
that the threads hold.

## What is proved

What a step is (`step_eq_some`), what it leaves of the threads (`forall_put`) and of a sum
over them (`sum_put`), and how tokens may move: they may be dropped (`Single.anti`,
`Single.update_of_le`), and one may be made where there is none (`single_of_only`,
`single_update_of_zero`).
-/

namespace XiaoO.Base

open Finset

/-- The threads `ι`, each with its own state `θ`, and the state `σ` they share. -/
structure Threads (ι σ θ : Type*) where
  shared : σ
  thread : ι → θ

namespace Threads

variable {ι σ θ α : Type*} [DecidableEq ι]

/-- A new state of the thread `i`, and a new shared state. -/
def put (w : Threads ι σ θ) (i : ι) (s : σ) (t : θ) : Threads ι σ θ := ⟨s, Function.update w.thread i t⟩

variable (w : Threads ι σ θ)

@[simp] theorem put_shared (i : ι) (s : σ) (t : θ) : (w.put i s t).shared = s := rfl

@[simp] theorem put_thread_self (i : ι) (s : σ) (t : θ) : (w.put i s t).thread i = t := by
  simp [put]

theorem put_thread_of_ne {i k : ι} (s : σ) (t : θ) (h : k ≠ i) : (w.put i s t).thread k = w.thread k := by
  simp [put, h]

/-- What holds of each thread still does, if it does of the one that has moved. -/
theorem forall_put {P : ι → θ → Prop} {w : Threads ι σ θ} {i : ι} {s : σ} {t : θ} (hi : P i t)
    (h : ∀ k, k ≠ i → P k (w.thread k)) (k : ι) : P k ((w.put i s t).thread k) :=
  (Function.forall_update_iff w.thread P).mpr ⟨hi, h⟩ k

/-- A sum over the threads changes by what the thread that has moved adds. -/
theorem sum_put [Fintype ι] (i : ι) (s : σ) (t : θ) (f : θ → ℕ) :
    ∑ k, f ((w.put i s t).thread k) + f (w.thread i) = ∑ k, f (w.thread k) + f t := by
  have hr : ∑ k ∈ univ.erase i, f ((w.put i s t).thread k) = ∑ k ∈ univ.erase i, f (w.thread k) := by
    refine sum_congr rfl fun k hk => ?_
    rw [put_thread_of_ne _ _ _ (ne_of_mem_erase hk)]
  have hp := add_sum_erase univ (fun k => f ((w.put i s t).thread k)) (mem_univ i)
  have ho := add_sum_erase univ (fun k => f (w.thread k)) (mem_univ i)
  simp only [hr, put_thread_self] at hp
  omega

def step (act : α → σ → θ → Option (σ × θ)) (w : Threads ι σ θ) (l : ι × α) : Option (Threads ι σ θ) :=
  (act l.2 w.shared (w.thread l.1)).map fun r => w.put l.1 r.1 r.2

theorem step_eq_some {a : α → σ → θ → Option (σ × θ)} {w v : Threads ι σ θ} {l : ι × α} : step a w l = some v ↔
      ∃ s t, a l.2 w.shared (w.thread l.1) = some (s, t) ∧ v = w.put l.1 s t := by
  simp only [step, Option.map_eq_some_iff, Prod.exists]
  constructor
  · rintro ⟨s, t, ha, rfl⟩
    exact ⟨s, t, ha, rfl⟩
  · rintro ⟨s, t, ha, rfl⟩
    exact ⟨s, t, ha, rfl⟩

end Threads

/-! ### Tokens -/

variable {ι : Type*}

/-- At most one thread holds a token, and it holds at most one. -/
structure Single (n : ι → ℕ) : Prop where
  le_one : ∀ k, n k ≤ 1
  eq : ∀ {k k'}, 0 < n k → 0 < n k' → k = k'

variable {n n' : ι → ℕ} {i : ι}

theorem Single.anti (h : Single n) (hle : ∀ k, n' k ≤ n k) : Single n' :=
  ⟨fun k => Nat.le_trans (hle k) (h.le_one k),
    fun hk hk' => h.eq (Nat.lt_of_lt_of_le hk (hle _)) (Nat.lt_of_lt_of_le hk' (hle _))⟩

theorem Single.eq_zero_of_ne (h : Single n) {k : ι} (hi : 0 < n i) (hne : k ≠ i) : n k = 0 := by
  by_contra hk
  exact hne (h.eq (Nat.pos_of_ne_zero hk) hi)

theorem single_of_only (hi : n i ≤ 1) (hne : ∀ k, k ≠ i → n k = 0) : Single n := by
  have heq : ∀ k, 0 < n k → k = i := fun k hk => by
    by_contra hki
    rw [hne k hki] at hk
    exact absurd hk (Nat.lt_irrefl 0)
  constructor
  · intro k
    rcases eq_or_ne k i with rfl | hki
    · exact hi
    · simp [hne k hki]
  · intro k k' hk hk'
    rw [heq k hk, heq k' hk']

variable [DecidableEq ι] {m : ℕ}

theorem Single.update_of_le (h : Single n) (hm : m ≤ n i) : Single (Function.update n i m) := by
  refine h.anti fun k => ?_
  rcases eq_or_ne k i with rfl | hk
  · simpa using hm
  · simp [hk]

theorem single_update_of_zero (h : ∀ k, n k = 0) (hm : m ≤ 1) : Single (Function.update n i m) :=
  single_of_only (i := i) (by simpa using hm) fun k hk => by simp [hk, h]

end XiaoO.Base
