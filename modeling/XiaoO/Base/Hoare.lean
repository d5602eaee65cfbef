import Mathlib.Tactic.SplitIfs

/-!
# Pre- and postconditions of programs with a state and errors

A program is a computation that reads and changes a state and may stop with an
error, keeping what it has done to the state so far. `Triple P m Q E` says: from
a state with `P` the program `m` ends normally with `Q` of its value and the
state, or with an error in a state with `E`.

## What is proved

One rule for each way a program is built: returning, throwing, sequencing,
reading and changing the state, choosing, running over a list, where the
postcondition of the body is an invariant (`triple_forM`), catching, and running on a
part of the state (`triple_within`). The same for programs that preserve one property
of the state throughout (`Preserves`), and for programs that stay in a relation with a cost
(`Within`), where sequencing adds the costs.
-/

namespace XiaoO.Base

/-- Programs over the state `σ` with errors `ε`. -/
abbrev Prog (σ ε : Type) := ExceptT ε (StateM σ)

namespace Prog

variable {σ τ ε ε' α β : Type}

/-- Run a program: its value or error, and the state after it. -/
def exec (m : Prog σ ε α) (s : σ) : Except ε α × σ := m.run.run s

theorem exec_bind (m : Prog σ ε α) (f : α → Prog σ ε β) (s : σ) : exec (m >>= f) s = match exec m s with
      | (.ok a, s') => exec (f a) s'
      | (.error e, s') => (.error e, s') := by
  unfold exec
  simp only [ExceptT.run_bind, StateT.run_bind]
  rcases m.run.run s with ⟨e | a, s'⟩ <;> rfl

/-- Run a program and hand its error, if any, to what follows. -/
def attempt (m : Prog σ ε α) : Prog σ ε' (Except ε α) := ExceptT.mk (Except.ok <$> m.run)

@[simp] theorem exec_attempt (m : Prog σ ε α) (s : σ) :
    exec (attempt m : Prog σ ε' (Except ε α)) s = (.ok (exec m s).1, (exec m s).2) := rfl

/-- Run a program on a part of the state, and translate its errors. -/
def within (part : σ → τ) (replace : σ → τ → σ) (f : ε → ε') (m : Prog τ ε α) : Prog σ ε' α :=
  ExceptT.mk (StateT.mk fun s => ((exec m (part s)).1.mapError f, replace s (exec m (part s)).2))

@[simp] theorem exec_within (p : σ → τ) (r : σ → τ → σ) (f : ε → ε') (m : Prog τ ε α) (s : σ) :
    exec (within p r f m) s = ((exec m (p s)).1.mapError f, r s (exec m (p s)).2) := rfl

end Prog

open Prog

variable {σ τ ε ε' α β : Type} {P P' : σ → Prop} {Q Q' : α → σ → Prop} {R : β → σ → Prop} {E E' : σ → Prop}

/-- From a state with `P`, `m` ends normally with `Q`, or with an error with `E`. -/
def Triple (P : σ → Prop) (m : Prog σ ε α) (Q : α → σ → Prop) (E : σ → Prop) : Prop :=
  ∀ s, P s → match exec m s with
    | (.ok a, s') => Q a s'
    | (.error _, s') => E s'

theorem triple_pure {a : α} (h : ∀ s, P s → Q a s) : Triple P (pure a : Prog σ ε α) Q E := by
  intro s hs
  exact h s hs

theorem triple_throw {e : ε} (h : ∀ s, P s → E s) : Triple P (throw e : Prog σ ε α) Q E := by
  intro s hs
  exact h s hs

/-- A value or an error that was computed without the state. -/
theorem triple_lift {x : Except ε α} (hQ : ∀ a s, x = .ok a → P s → Q a s) (hE : ∀ s, P s → E s) :
    Triple P (liftM x : Prog σ ε α) Q E := by
  intro s hs
  cases x with
  | error => exact hE s hs
  | ok a => exact hQ a s rfl hs

variable {m : Prog σ ε α} {c : Prop} {s : σ}

/-- The rule of sequencing. -/
theorem triple_bind {f : α → Prog σ ε β} (hm : Triple P m Q E)
    (hf : ∀ a, Triple (Q a) (f a) R E) : Triple P (m >>= f) R E := by
  intro s hs
  have hs' := hm s hs
  rcases hms : exec m s with ⟨e | a, s'⟩
  · rw [hms] at hs'
    rw [exec_bind, hms]
    exact hs'
  · rw [hms] at hs'
    rw [exec_bind, hms]
    exact hf a s' hs'

/-- Reading the state: what follows may use that the value is the state. -/
theorem triple_get_bind {f : σ → Prog σ ε β} (hf : ∀ s, P s → Triple (· = s) (f s) R E) :
    Triple P (get >>= f) R E := by
  intro s hs
  exact hf s hs s rfl

theorem triple_modify {f : σ → σ} {Q : PUnit → σ → Prop} (h : ∀ s, P s → Q ⟨⟩ (f s)) :
    Triple P (modify f : Prog σ ε PUnit) Q E := by
  intro s hs
  exact h s hs

theorem triple_modifyGet {f : σ → α × σ} (h : ∀ s, P s → Q (f s).1 (f s).2) :
    Triple P (modifyGet f : Prog σ ε α) Q E := by
  intro s hs
  exact h s hs

theorem Triple.conseq (h : Triple P m Q E) (hP : ∀ s, P' s → P s)
    (hQ : ∀ a s, Q a s → Q' a s) (hE : ∀ s, E s → E' s) : Triple P' m Q' E' := by
  intro s hs
  have hs' := h s (hP s hs)
  rcases hm : exec m s with ⟨e | a, s'⟩
  · rw [hm] at hs'
    exact hE s' hs'
  · rw [hm] at hs'
    exact hQ a s' hs'

theorem Triple.imp (h : Triple P m Q E) (hQ : ∀ a s, Q a s → Q' a s) : Triple P m Q' E :=
  h.conseq (fun _ hs => hs) hQ fun _ hs => hs

theorem Triple.imp_error (h : Triple P m Q E) (hE : ∀ s, E s → E' s) : Triple P m Q E' :=
  h.conseq (fun _ hs => hs) (fun _ _ hs => hs) hE

/-- A part of the precondition that does not depend on the state is a hypothesis. -/
theorem triple_of_imp (h : c → Triple P m Q E) : Triple (fun s => c ∧ P s) m Q E := by
  rintro s ⟨hc, hs⟩
  exact h hc s hs

/-- The rule of choice. -/
theorem triple_ite [Decidable c] {m' : Prog σ ε α} (h : c → Triple P m Q E)
    (h' : ¬ c → Triple P m' Q E) : Triple P (if c then m else m') Q E := by
  split_ifs with hc
  · exact h hc
  · exact h' hc

/-- The rule of a loop over a list: what the body keeps, the loop keeps. -/
theorem triple_forM {γ : Type} {xs : List γ} {f : γ → Prog σ ε PUnit}
    (hf : ∀ x ∈ xs, Triple P (f x) (fun _ => P) E) : Triple P (xs.forM f) (fun _ => P) E := by
  induction xs with
  | nil => exact triple_pure fun _ hs => hs
  | cons x xs ih =>
    exact triple_bind (hf x (by simp)) fun _ => ih fun y hy => hf y (by simp [hy])

/-- The rule of catching: what follows sees either ending. -/
theorem triple_attempt (h : Triple P m Q E) : Triple P (attempt m : Prog σ ε' (Except ε α)) (fun r s => match r with
      | .ok a => Q a s
      | .error _ => E s) E' := by
  intro s hs
  have hs' := h s hs
  rw [exec_attempt]
  rcases hm : exec m s with ⟨e | a, s'⟩ <;> rw [hm] at hs' <;> exact hs'

/-- The frame rule: a program on a part of the state keeps what a change of that part
keeps. -/
theorem triple_within {p : σ → τ} {r : σ → τ → σ} {f : ε → ε'} {m : Prog τ ε α} {A : τ → Prop}
    {B : α → τ → Prop} {C : τ → Prop} {F : σ → Prop} (h : Triple A m B C)
    (hp : ∀ s t, p (r s t) = t) (hF : ∀ s t, F s → F (r s t)) :
    Triple (fun s => F s ∧ A (p s)) (within p r f m) (fun a s => F s ∧ B a (p s)) (fun s => F s ∧ C (p s)) := by
  rintro s ⟨hs, hA⟩
  have hm := h (p s) hA
  rw [exec_within]
  rcases he : exec m (p s) with ⟨e | a, t⟩ <;> rw [he] at hm
  · exact ⟨hF s t hs, by rwa [hp]⟩
  · exact ⟨hF s t hs, by rwa [hp]⟩

theorem Triple.ok (h : Triple P m Q E) {s' : σ} {a : α} (hs : P s) (hm : exec m s = (.ok a, s')) : Q a s' := by
  have := h s hs
  rwa [hm] at this

theorem Triple.error (h : Triple P m Q E) {s' : σ} {e : ε} (hs : P s) (hm : exec m s = (.error e, s')) : E s' := by
  have := h s hs
  rwa [hm] at this

/-! ### Invariants of programs -/

/-- A program preserves `P`, however it ends. -/
def Preserves (P : σ → Prop) (m : Prog σ ε α) : Prop := Triple P m (fun _ => P) P

/-- A property of the state that every ending has. -/
theorem Triple.exec (h : Triple P m (fun _ => E) E) (hs : P s) : E (Prog.exec m s).2 := by
  have hm := h s hs
  rcases he : Prog.exec m s with ⟨e | a, t⟩ <;> rw [he] at hm <;> exact hm

theorem preserves_pure (a : α) : Preserves P (pure a : Prog σ ε α) := triple_pure fun _ hs => hs

theorem preserves_throw (e : ε) : Preserves P (throw e : Prog σ ε α) := triple_throw fun _ hs => hs

theorem preserves_lift (x : Except ε α) : Preserves P (liftM x : Prog σ ε α) :=
  triple_lift (fun _ _ _ hs => hs) fun _ hs => hs

theorem preserves_modify {f : σ → σ} (h : ∀ s, P s → P (f s)) : Preserves P (modify f : Prog σ ε PUnit) :=
  triple_modify h

theorem Preserves.bind {f : α → Prog σ ε β} (hm : Preserves P m) (hf : ∀ a, Preserves P (f a)) :
    Preserves P (m >>= f) :=
  triple_bind hm hf

theorem preserves_get_bind {f : σ → Prog σ ε β} (hf : ∀ s, P s → Preserves P (f s)) : Preserves P (get >>= f) :=
  triple_get_bind fun s hs => (hf s hs).conseq (fun _ h => h ▸ hs) (fun _ _ h => h) fun _ h => h

theorem preserves_ite [Decidable c] {m' : Prog σ ε α} (h : c → Preserves P m) (h' : ¬ c → Preserves P m') :
    Preserves P (if c then m else m') :=
  triple_ite h h'

/-- A test before which nothing happens. -/
theorem preserves_unless [Decidable c] {e : ε} (h : ¬ c → Preserves P m) : Preserves P (if c then throw e else m) :=
  preserves_ite (fun _ => preserves_throw e) h

theorem Preserves.attempt (h : Preserves P m) : Preserves P (Prog.attempt m : Prog σ ε' (Except ε α)) := by
  refine (triple_attempt h).imp fun r _ hs => ?_
  cases r <;> exact hs

/-! ### Budgets -/

section Budgets

variable {R : Nat → σ → σ → Prop} {n k : Nat}

/-- A relation between states with a cost, which adds up. -/
structure Graded (R : Nat → σ → σ → Prop) : Prop where
  refl : ∀ n s, R n s s
  trans : ∀ {n k s t u}, R n s t → R k t u → R (n + k) s u

/-- A program stays in the relation at the cost `n`, however it ends. -/
def Within (R : Nat → σ → σ → Prop) (n : Nat) (m : Prog σ ε α) : Prop := ∀ s, R n s (exec m s).2

variable (hR : Graded R)
include hR

theorem within_pure (a : α) : Within R n (pure a : Prog σ ε α) := hR.refl n

theorem within_throw (e : ε) : Within R n (throw e : Prog σ ε α) := hR.refl n

variable {m : Prog σ ε α}

theorem Within.bind {f : α → Prog σ ε β} (hm : Within R n m) (hf : ∀ a, Within R k (f a)) :
    Within R (n + k) (m >>= f) := by
  intro s
  have hms := hm s
  rw [exec_bind]
  rcases he : exec m s with ⟨e | a, s'⟩ <;> rw [he] at hms
  · exact hR.trans hms (hR.refl k s')
  · exact hR.trans hms (hf a s')

theorem Within.bind_of_zero {f : α → Prog σ ε β} (hm : Within R 0 m) (hf : ∀ a, Within R n (f a)) :
    Within R n (m >>= f) :=
  Nat.zero_add n ▸ hm.bind hR hf

section

omit hR

theorem within_get_bind {f : σ → Prog σ ε β} (hf : ∀ s, R n s (exec (f s) s).2) : Within R n (get >>= f) := by
  intro s
  exact hf s

theorem Within.attempt (h : Within R n m) : Within R n (Prog.attempt m : Prog σ ε' (Except ε α)) := h

end

end Budgets

end XiaoO.Base
