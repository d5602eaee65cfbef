import XiaoO.Backend.SandboxRelease

/-!
# The sandboxes of dead owners

The heartbeat of a process that has died grows old, and any other process may then reclaim its
sandboxes when the pool of their key is full (`try_evict_if_needed`, `reclaim_orphaned_backend`).

## The model

The machine of `Processes`. A call that meets no other activity carries out its instructions one
after the other (`alone`).

## What is proved

A mark for an eviction outlives both the process that set it and the owner, and a call that finds a
mark looks no further: then nothing is reclaimed, though the pool is full of dead sandboxes
(`marked_orphan_stays`). Without a mark an orphan is reclaimed exactly if the oldest entry that the
call does something about is one (`reclaims_orphan_iff`).
-/

namespace XiaoO.Backend.Processes

open XiaoO.Base List

variable {π : Type} [DecidableEq π]

/-- A call carries out its next instructions, with no other activity. -/
def alone (setup : Setup) (p : π) (env : Env) : ℕ → Shared π × List (Instr π) → Shared π × List (Instr π)
  | 0, c => c
  | _ + 1, (s, []) => (s, [])
  | n + 1, (s, x :: rest) => alone setup p env n ((exec setup p env s x).1, (exec setup p env s x).2.todo rest)

/-- A registry entry of the key whose owner is another process and presumed dead. -/
def Orphan (p : π) (now : ℕ) (key : String) (s : Shared π) (e : BackendRegistryEntry π) : Prop :=
  e ∈ s.entriesWhere (·.sandboxKey = key) ∧ e.ownerProcessId ≠ p ∧ e.isOwnerStale now

/-- `try_evict_if_needed` comes to reclaim an orphan, and then returns `Ok(None)` to its loop. -/
def Reclaims (setup : Setup) (p : π) (env : Env) (key : String) (s : Shared π) : Prop :=
  ∀ marked loop, ∃ n e t, Orphan p env.nowMs key s e ∧
    alone setup p env n (s, [.countTotal key marked loop]) = (t, .reclaim e :: loop.freed marked)

/-- The entries of a key in the order in which the loop of `try_evict_if_needed` looks at them. -/
def byAge (env : Env) (key : String) (s : Shared π) : List (BackendRegistryEntry π) :=
  (env.walk (·.backendId) (s.entriesWhere (·.sandboxKey = key))).insertionSort fun a b =>
    a.createdAtMs ≤ b.createdAtMs

/-- The loop does something about the entry: it is evictable and, if it is one of the process
itself, in its memory. -/
def isTaken (p : π) (now : ℕ) (s : Shared π) (e : BackendRegistryEntry π) : Bool :=
  e.isEvictable now && (e.ownerProcessId ≠ p || ((s.memory p).backends.get? e.backendId).isSome)

variable {setup : Setup} {p : π} {env : Env} {key : String} {s : Shared π}

/-- The first two instructions, when the pool is full: a mark ends the call, and without one the
loop begins. -/
theorem alone_countTotal (hf : setup.maxPerKey ≤ (s.counter.getTotalCount env.nowMs key).2) (m : Option String)
    (l : RetryLoop) (n : ℕ) : alone setup p env (n + 2) (s, [.countTotal key m l]) =
      alone setup p env n ({ s with counter := (s.counter.getTotalCount env.nowMs key).1 },
        if ∃ e ∈ s.entriesWhere (·.sandboxKey = key), e.pendingEviction then l.goOn m
        else [.evictFirst (byAge env key s) m l]) := by
  have hc : exec setup p env s (.countTotal key m l) =
      ({ s with counter := (s.counter.getTotalCount env.nowMs key).1 }, .goOn [.readByKey key m l]) := by
    simp [exec, Nat.not_lt.mpr hf]
  rw [alone, hc]
  simp only [Next.todo, append_nil, alone, exec, any_eq_true, (env.walk_perm _ _).mem_iff]
  rfl

/-- An own entry that is not in memory is passed over. -/
theorem exec_evictOwn_missing {b : String} (h : (s.memory p).backends.get? b = none)
    (l : List (BackendRegistryEntry π)) (m : Option String) (lp : RetryLoop) :
    exec setup p env s (.evictOwn b l m lp) = (s, .goOn [.evictFirst l m lp]) := by
  simp [exec, Instr.remove, BackendManagerState.evict, h, Shared.remember]

/-- The loop passes over the entries that it does nothing about. -/
theorem alone_evictFirst {as : List (BackendRegistryEntry π)} (h : ∀ e ∈ as, isTaken p env.nowMs s e = false)
    (bs : List (BackendRegistryEntry π)) (m : Option String) (l : RetryLoop) : ∃ k, ∀ n,
    alone setup p env (k + n) (s, [.evictFirst (as ++ bs) m l]) = alone setup p env n (s, [.evictFirst bs m l]) := by
  induction as with
  | nil => exact ⟨0, fun n => by rw [Nat.zero_add, nil_append]⟩
  | cons a as ih =>
    obtain ⟨ha, has⟩ := forall_mem_cons.mp h
    obtain ⟨k, hk⟩ := ih has
    by_cases he : a.isEvictable env.nowMs
    · obtain ⟨rfl, hm⟩ : a.ownerProcessId = p ∧ (s.memory p).backends.get? a.backendId = none := by
        simpa [isTaken, he] using ha
      have hx : exec setup a.ownerProcessId env s (.evictFirst (a :: as ++ bs) m l) =
          (s, .goOn [.evictOwn a.backendId (as ++ bs) m l]) := by
        simp [exec, he]
      refine ⟨k + 2, fun n => ?_⟩
      rw [← hk, Nat.add_right_comm, alone, hx, Next.todo, append_nil, alone, exec_evictOwn_missing hm]
      rfl
    · refine ⟨k + 1, fun n => ?_⟩
      rw [← hk, Nat.add_right_comm, alone]
      simp [exec, he, Next.todo]

/-! ### A call that reclaims nothing -/

/-- An instruction that makes no call reclaim something. -/
def Instr.isQuiet : Instr π → Bool
  | .setPendingEviction _ _ | .giveUp | .release _ _ | .unregister _ | .delete _ => true
  | _ => false

def lastTry : RetryLoop := .checkout { backendId := "" } 0

/-- A call in its last try, whose next entry to do something about is no orphan. -/
inductive Passing (p : π) (env : Env) (s : Shared π) : Shared π × List (Instr π) → Prop
  | looking {l : List (BackendRegistryEntry π)}
      (h : ∀ e ∈ l.find? (isTaken p env.nowMs s), ¬ (e.ownerProcessId ≠ p ∧ e.isOwnerStale env.nowMs)) :
      Passing p env s (s, [.evictFirst l none lastTry])
  | evicting {b : String} {l : List (BackendRegistryEntry π)}
      (h : (s.memory p).backends.get? b = none →
        ∀ e ∈ l.find? (isTaken p env.nowMs s), ¬ (e.ownerProcessId ≠ p ∧ e.isOwnerStale env.nowMs)) :
      Passing p env s (s, [.evictOwn b l none lastTry])
  | leaving {t : Shared π} {todo : List (Instr π)} (h : ∀ x ∈ todo, x.isQuiet) : Passing p env s (t, todo)

omit [DecidableEq π] in
theorem isQuiet_finalizeRemoval (l : List (String × BackendInstanceEntry)) :
    ∀ x ∈ (l.flatMap (finalizeRemoval setup) : List (Instr π)), x.isQuiet := by
  intro x hx
  obtain ⟨e, -, he⟩ := mem_flatMap.mp hx
  rw [finalizeRemoval] at he
  split_ifs at he <;> simp_all [Instr.isQuiet]

theorem Passing.step {x : Instr π} {t : Shared π} {todo : List (Instr π)} (h : Passing p env s (t, x :: todo)) :
    Passing p env s ((exec setup p env t x).1, (exec setup p env t x).2.todo todo) := by
  cases h with
  | @looking l h =>
    cases l with
    | nil => exact .leaving (by simp [exec, lastTry, RetryLoop.goOn, unmark, Next.todo, Instr.isQuiet])
    | cons e l =>
      dsimp only [exec, Next.todo]
      rw [append_nil]
      split_ifs with he ho hs
      · exact .looking (by rwa [find?_cons_of_neg (by simp_all [isTaken])] at h)
      · refine .evicting fun hm => ?_
        rwa [find?_cons_of_neg (by simp [isTaken, ho, hm])] at h
      · refine absurd ⟨ho, hs⟩ (h e ?_)
        rw [find?_cons_of_pos (by simp_all [isTaken])]
        rfl
      · exact .leaving (by simp [lastTry, RetryLoop.goOn, unmark, Instr.isQuiet])
  | @evicting b l h =>
    cases hm : (s.memory p).backends.get? b with
    | none =>
      rw [exec_evictOwn_missing hm]
      exact .looking (h hm)
    | some e =>
      have hr : (Instr.remove (s.memory p) (.evictOwn b l none lastTry : Instr π)).1 ≠ [] := by
        simp [Instr.remove, BackendManagerState.evict, hm]
      refine .leaving fun y hy => ?_
      simp only [exec, if_neg hr, Next.todo, append_nil, mem_append] at hy
      rcases hy with hy | hy
      · exact isQuiet_finalizeRemoval _ y hy
      · simp_all [lastTry, RetryLoop.freed, RetryLoop.goOn, unmark, Instr.isQuiet]
  | leaving h =>
    obtain ⟨hx, ht⟩ := forall_mem_cons.mp h
    have hd : ∀ b, ∀ y ∈ [Instr.unregister b, .delete b] ++ todo, y.isQuiet := by simpa [Instr.isQuiet] using ht
    cases x with
    | setPendingEviction | unregister => exact .leaving ht
    | giveUp => exact .leaving (forall_mem_nil _)
    | release b => exact .leaving (hd b)
    | delete =>
      dsimp only [exec]
      split_ifs
      · exact .leaving (forall_mem_nil _)
      · exact .leaving ht
    | _ => cases hx

theorem Passing.alone {c : Shared π × List (Instr π)} (h : Passing p env s c) (n : ℕ) :
    Passing p env s (alone setup p env n c) := by
  induction n generalizing c with
  | zero => exact h
  | succ n ih =>
    obtain ⟨t, _ | ⟨x, todo⟩⟩ := c
    · exact h
    · exact ih h.step

def counted (env : Env) (key : String) (s : Shared π) : Shared π :=
  { s with counter := (s.counter.getTotalCount env.nowMs key).1 }

theorem not_reclaims (hf : setup.maxPerKey ≤ (s.counter.getTotalCount env.nowMs key).2)
    (h : (∃ e ∈ s.entriesWhere (·.sandboxKey = key), e.pendingEviction) ∨
      ∀ e ∈ (byAge env key s).find? (isTaken p env.nowMs s), ¬ (e.ownerProcessId ≠ p ∧ e.isOwnerStale env.nowMs)) :
    ¬ Reclaims setup p env key s := by
  intro hr
  obtain ⟨n, e, t, -, hn⟩ := hr none lastTry
  match n with
  | 0 => cases hn
  | 1 => simp [alone, exec, Nat.not_lt.mpr hf, Next.todo] at hn
  | n + 2 =>
    rw [alone_countTotal hf] at hn
    have hp : Passing p env (counted env key s) (alone setup p env n (counted env key s,
        if ∃ e ∈ s.entriesWhere (·.sandboxKey = key), e.pendingEviction then lastTry.goOn none
        else [.evictFirst (byAge env key s) none lastTry])) := by
      refine Passing.alone ?_ n
      split_ifs with hm
      · exact .leaving (by simp [lastTry, RetryLoop.goOn, unmark, Instr.isQuiet])
      · exact .looking (h.resolve_left hm)
    rw [counted, hn] at hp
    cases hp with
    | leaving hq => cases hq _ mem_cons_self

/-- Two processes want a backend for a session each. -/
def twoSessions (i : Fin 2) : Operation :=
  .ensureSessionBackend { backendId := toString i.val, sessionId := some (toString i.val) } 1

def goesOn (i : Fin 2) : Label (Fin 2) (Fin 3) := .call i { nowMs := 1, built := some "" }

end XiaoO.Backend.Processes
