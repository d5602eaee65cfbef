import XiaoO.Backend.Accounts
import Mathlib.Data.Fintype.Basic

/-!
# A sandbox is released once

The place of a sandbox in the shared counter is given back when its backend is removed
from the memory of its process, or when another process finds that the owner is dead
and reclaims it. Nothing ties the two together: a call that reclaims acts on an entry
it has read from the registry some time ago.

## What is proved

Two processes that have read the entry of a dead owner both release its place
(`orphan_is_released_twice`). In every run in which

* a place is reclaimed only while the entry is in the registry, no process has the
  backend in memory, and no call is still to confirm, register, release or unregister
  it,
* a backend is removed from memory only when it has been confirmed and registered,
* no process dies between a release and the unregistration that follows it,

there are at most as many releases for a backend as confirmations
(`releases_le_confirms_of_run`).

The right to release a backend is a token: it is in the memory of the process that made
the backend, or with the one call that has removed it from there. `Ledger` follows it
through the life of one backend, with one lemma for each effect of an instruction.
-/

namespace XiaoO.Backend.Processes

open XiaoO.Base Function List Nat

variable {ι π : Type}

/-! ### The property and its condition -/

variable (w : World ι π)

/-- Some call has a duty to a backend. -/
def Owes (d : Duty) (b : String) : Prop := ∃ k, 0 < due d b (w.thread k)

def Label.caller? : Label ι π → Option ι
  | .call i _ => some i
  | .die _ => none

def Label.dying? : Label ι π → Option π
  | .call _ _ => none
  | .die p => some p

/-- **The property**: for every backend, at most one release per confirmation. -/
def ReleasedOnce : Prop := ∀ b, w.shared.releases b ≤ w.shared.confirms b

/-- New backends have new ids. -/
def Fresh (l : Label ι π) : Prop :=
  ∀ i ∈ l.caller?, ∀ x ∈ (w.thread i).head?, ∀ b ∈ x.makes?, b ∉ w.shared.issued
  deriving Decidable

/-- A registered backend that no process has and no call is concerned with. -/
@[mk_iff] structure Orphaned (b : String) : Prop where
  registered : (w.shared.account b).registered
  forgotten : ∀ p, (w.shared.account b).kind? p = none
  unowed : ∀ d, ¬ Owes w d b

/-- The condition on the steps of a run. -/
@[mk_iff] structure Orderly (process : ι → π) (w : World ι π) (l : Label ι π) : Prop where
  fresh : Fresh w l
  /-- Only orphans are reclaimed. -/
  reclaims : ∀ i ∈ l.caller?, ∀ x ∈ (w.thread i).head?, ∀ b ∈ x.reclaims?, Orphaned w b
  /-- What is removed from memory has been confirmed and registered. -/
  removes : ∀ i ∈ l.caller?, ∀ x ∈ (w.thread i).head?, ∀ removed ∈ (x.remove (w.shared.memory (process i))).1,
    ¬ Owes w .confirm removed.1 ∧ ¬ Owes w .register removed.1
  /-- No process dies between a release and the unregistration. -/
  dies : ∀ p ∈ l.dying?, ∀ k, process k = p → ∀ x ∈ w.thread k, x.duty?.map Prod.fst ≠ some .unregister

section Decidable

instance : Fintype Duty := ⟨{.confirm, .register, .release, .unregister}, fun d => by cases d <;> decide⟩

variable [Fintype ι] [Fintype π] [DecidableEq π]

instance (w : World ι π) (d : Duty) (b : String) : Decidable (Owes w d b) := by
  delta Owes
  infer_instance

instance (w : World ι π) (b : String) : Decidable (Orphaned w b) := decidable_of_iff _ (orphaned_iff ..).symm

instance (process : ι → π) : DecidableRel (Orderly process) := fun _ _ => decidable_of_iff _ (orderly_iff ..).symm

end Decidable

/-! ### The ledger of a backend -/

variable {process : ι → π} {b : String} {a a' : Account π} {todo todo' : ι → List (Instr π)}

/-- How many rights to release a backend a process or a call has: the process that has the
backend in memory may remove it, and a call that has removed it is to release it. -/
def rights (b : String) (a : Account π) (todo : ι → List (Instr π)) : π ⊕ ι → ℕ
  | .inl p => if (a.kind? p).isSome then 1 else 0
  | .inr k => due .release b (todo k)

/-- The duties of a backend that is being made. -/
def making (b : String) (todo : List (Instr π)) : ℕ := due .confirm b todo + due .register b todo

/-- Who may release a backend. -/
structure Exclusive (b : String) (a : Account π) (todo : ι → List (Instr π)) : Prop where
  /-- There is one right at most. -/
  token : Single (rights b a todo)
  /-- With the right there, the backend was never released. -/
  held : ∀ y, 0 < rights b a todo y → a.releases = 0
  /-- Nor was one that is being made. -/
  made : ∀ k, 0 < making b (todo k) → a.releases = 0
  /-- What is to be released is confirmed, and not being made any more. -/
  settled : ∀ k, 0 < due .release b (todo k) → 0 < a.confirms ∧ ∀ k', making b (todo k') = 0

/-- The books of a backend. -/
structure Ledger (process : ι → π) (b : String) (a : Account π) (todo : ι → List (Instr π)) : Prop
    extends Exclusive b a todo where
  balance : a.releases ≤ a.confirms
  /-- A counted backend in memory is confirmed, or a call of its process is about to. -/
  confirmed : ∀ p, (a.kind? p).any isCountedKind → 0 < a.confirms ∨ ∃ k, process k = p ∧ 0 < due .confirm b (todo k)
  /-- What is to be registered is confirmed. -/
  registering : ∀ k, 0 < due .register b (todo k) → 0 < a.confirms
  /-- What is registered is confirmed. -/
  listed : a.registered → 0 < a.confirms
  /-- An entry of a released backend is about to be removed. -/
  pending : a.registered → 0 < a.releases → ∃ k, 0 < due .unregister b (todo k)
  /-- Only releases can wait behind other instructions. -/
  headed : ∀ k d, d ≠ .release → due d b (todo k).tail = 0
  /-- Before a backend is made there is nothing. -/
  fresh : a.issued = false →
    a.releases = 0 ∧ a.registered = false ∧ (∀ p, a.kind? p = none) ∧ ∀ k d, due d b (todo k) = 0

theorem Exclusive.anti (h : Exclusive b a todo) (hr : a'.releases = a.releases) (hc : a.confirms ≤ a'.confirms)
    (hkn : ∀ p, (a'.kind? p).isSome → (a.kind? p).isSome) (hm : ∀ k, making b (todo' k) ≤ making b (todo k))
    (hd : ∀ k, due .release b (todo' k) ≤ due .release b (todo k)) : Exclusive b a' todo' := by
  have hle : ∀ y, rights b a' todo' y ≤ rights b a todo y := by
    rintro (p | k)
    · dsimp only [rights]
      split_ifs with hp' hp hp
      · exact le_refl _
      · exact absurd (hkn p hp') hp
      · exact zero_le _
      · exact le_refl _
    · exact hd k
  refine ⟨h.token.anti hle, fun y hy => ?_, fun k hk => ?_, fun k hk => ?_⟩
  · rw [hr]
    exact h.held y (lt_of_lt_of_le hy (hle y))
  · rw [hr]
    exact h.made k (lt_of_lt_of_le hk (hm k))
  · obtain ⟨hps, hz⟩ := h.settled k (lt_of_lt_of_le hk (hd k))
    exact ⟨lt_of_lt_of_le hps hc, fun k' => le_zero.mp (hz k' ▸ hm k')⟩

variable {d : Duty}

/-- Who has duties to a backend knows that it was made. -/
theorem Ledger.issued_of_due (h : Ledger process b a todo) {k : ι} (hp : 0 < due d b (todo k)) :
    a.issued = true := by
  by_contra hi
  have hz := (h.fresh (Bool.eq_false_of_not_eq_true hi)).2.2.2 k d
  omega

/-- The call `i` has carried out `x` and goes on with `first`, as far as `b` is concerned. -/
structure Turn (b : String) (todo todo' : ι → List (Instr π)) (i : ι) (x : Instr π) (first : List (Instr π)) :
    Prop where
  others : ∀ k, k ≠ i → todo' k = todo k
  before : ∀ d, d ≠ .release → due d b (todo i) = due d b [x]
  after : ∀ d, d ≠ .release → due d b (todo' i) = due d b first
  holds : due .release b [x] ≤ due .release b (todo i)
  releases : due .release b (todo' i) + due .release b [x] ≤ due .release b first + due .release b (todo i)
  tail : ∀ d, d ≠ .release → due d b first.tail = 0 → due d b (todo' i).tail = 0

variable {i : ι}

theorem Ledger.turn [DecidableEq ι] (h : Ledger process b a todo) {x : Instr π} {rest : List (Instr π)}
    (ht : todo i = x :: rest) (next : Next π) : Turn b todo (update todo i (next.todo rest)) i x next.first := by
  have hr : ∀ d, d ≠ .release → due d b rest = 0 := fun d hd => by simpa [ht] using h.headed i d hd
  have ho : ∀ d, due d b (todo i) = due d b [x] + due d b rest := fun d => by rw [ht, due_cons]
  constructor
  · exact fun k hk => update_of_ne hk _ _
  · intro d hd
    rw [ho, hr d hd, add_zero]
  · intro d hd
    rw [update_self]
    have hle : due d b (next.todo rest) ≤ due d b next.first + due d b rest := due_todo_le
    rw [hr d hd] at hle
    exact le_antisymm hle due_first_le_todo
  · rw [ho]
    exact le_add_right _ _
  · rw [update_self, ho]
    have hle : due .release b (next.todo rest) ≤ due .release b next.first + due .release b rest := due_todo_le
    omega
  · intro d hd hf
    rw [update_self]
    exact due_tail_todo hf (hr d hd)

namespace Turn

variable {i : ι} {x : Instr π} {f : List (Instr π)} (ht : Turn b todo todo' i x f)
include ht

theorem due_le (hle : due d b f ≤ due d b [x]) (k : ι) : due d b (todo' k) ≤ due d b (todo k) := by
  rcases eq_or_ne k i with rfl | hk
  · by_cases hd : d = .release
    · subst hd
      have := ht.releases
      omega
    · rw [ht.after d hd, ht.before d hd]
      exact hle
  · rw [ht.others k hk]

theorem making_le (hle : making b f ≤ making b [x]) (k : ι) : making b (todo' k) ≤ making b (todo k) := by
  rcases eq_or_ne k i with rfl | hk
  · simpa [making, ht.after, ht.before] using hle
  · rw [ht.others k hk]

/-- A duty that `x` does not discharge stays. -/
theorem kept (hd : d ≠ .release) (hx : due d b [x] = 0) {k : ι}
    (hp : 0 < due d b (todo k)) : 0 < due d b (todo' k) := by
  rcases eq_or_ne k i with rfl | hk
  · rw [ht.before d hd, hx] at hp
    exact absurd hp (lt_irrefl 0)
  · rwa [ht.others k hk]

theorem headed (h : Ledger process b a todo)
    (htl : ∀ d, d ≠ .release → due d b f.tail = 0) (k : ι) (d : Duty) (hd : d ≠ .release) :
    due d b (todo' k).tail = 0 := by
  rcases eq_or_ne k i with rfl | hk
  · exact ht.tail d hd (htl d hd)
  · rw [ht.others k hk]
    exact h.headed k d hd

end Turn

/-! ### What the effects do to the ledger -/

section Steps

variable {i : ι} {x : Instr π} {first : List (Instr π)} (h : Ledger process b a todo)
include h

section

variable (ht : Turn b todo todo' i x first)
include ht

/-- A duty other than to confirm the backend is done, and the entry may go. -/
theorem Ledger.lowered {r : Bool} (hx : due .confirm b [x] = 0) (hf : ∀ d, due d b first = 0)
    (hr : r → a.registered ∧ due .unregister b [x] = 0) : Ledger process b { a with registered := r } todo' := by
  have hle : ∀ d k, due d b (todo' k) ≤ due d b (todo k) := fun d => ht.due_le (by simp [hf])
  refine ⟨h.toExclusive.anti rfl le_rfl (fun _ => id) (fun k => Nat.add_le_add (hle _ k) (hle _ k)) (hle _),
    h.balance, fun p hp => ?_, fun k hk => ?_, fun hl => h.listed (hr hl).1, fun hl hps => ?_,
    ht.headed h fun d _ => ?_, fun hi => ?_⟩
  · obtain hps | ⟨k, hk, hps⟩ := h.confirmed p hp
    · exact .inl hps
    · exact .inr ⟨k, hk, ht.kept (by decide) hx hps⟩
  · exact h.registering k (lt_of_lt_of_le hk (hle _ k))
  · obtain ⟨k, hk⟩ := h.pending (hr hl).1 hps
    exact ⟨k, ht.kept (by decide) (hr hl).2 hk⟩
  · exact due_tail d b (hf d)
  · obtain ⟨hz, hn, hkn, hd⟩ := h.fresh hi
    refine ⟨hz, ?_, hkn, fun k d => Nat.le_zero.mp (hd k d ▸ hle d k)⟩
    exact Bool.eq_false_of_not_eq_true fun hl => Bool.false_ne_true (hn.symm.trans (hr hl).1)

theorem Ledger.untouched (hx : ∀ d, due d b [x] = 0) (hf : ∀ d, due d b first = 0) : Ledger process b a todo' :=
  h.lowered ht (hx _) hf fun hr => ⟨hr, hx _⟩

/-- Making a backend: it gets its entry in memory, and a call that is to confirm it. -/
theorem Ledger.created [DecidableEq π] (kn : String)
    (hi : a.issued = false) (hf : ∀ d, d ≠ .confirm → due d b first = 0) (htl : due .confirm b first.tail = 0)
    (hc : isCountedKind kn → 0 < due .confirm b first) :
    Ledger process b { a with kind? := update a.kind? (process i) (some kn), issued := true } todo' := by
  obtain ⟨hz, hr, hkn, hdu⟩ := h.fresh hi
  have hd' : ∀ d, d ≠ .confirm → ∀ k, due d b (todo' k) = 0 := fun d hd k =>
    le_zero.mp (hdu k d ▸ ht.due_le (by simp [hf d hd]) k)
  refine ⟨⟨single_of_only (i := .inl (process i)) ?_ ?_, fun _ _ => hz, fun _ _ => hz, fun k hk => ?_⟩,
    h.balance, fun p hp => ?_, fun k hk => ?_, fun hl => ?_, fun hl => ?_, ht.headed h fun d _ => ?_, nofun⟩
  · simp [rights]
  · rintro (p | k) hne
    · have hp : p ≠ process i := fun heq => hne (congrArg Sum.inl heq)
      simp [rights, hp, hkn]
    · exact hd' _ (by decide) k
  · exact absurd hk (by simp [hd' .release])
  · by_cases hp' : p = process i
    · subst hp'
      refine .inr ⟨i, rfl, ?_⟩
      rw [ht.after .confirm (by decide)]
      exact hc (by simpa using hp)
    · simp [hp', hkn] at hp
  · exact absurd hk (by simp [hd' .register])
  · exact absurd hl (by simp [hr])
  · exact absurd hl (by simp [hr])
  · by_cases hd : d = .confirm
    · exact hd ▸ htl
    · exact due_tail d b (hf d hd)

theorem Ledger.confirm (hx : 0 < due .confirm b [x])
    (hr : due .register b first = 1) (hf : ∀ d, d ≠ .register → due d b first = 0)
    (htl : due .register b first.tail = 0) : Ledger process b { a with confirms := a.confirms + 1 } todo' := by
  have hdu : 0 < due .confirm b (todo i) := by rwa [ht.before .confirm (by decide)]
  have hz : a.releases = 0 := h.made i (Nat.add_pos_left hdu _)
  have hm : making b first ≤ making b [x] := by
    rw [making, making, hr, hf .confirm (by decide)]
    omega
  refine ⟨h.toExclusive.anti rfl (Nat.le_succ _) (fun _ => id) (ht.making_le hm) (ht.due_le ?_),
    h.balance.trans (Nat.le_succ _), fun _ _ => .inl (Nat.succ_pos _), fun _ _ =>
      Nat.succ_pos _, fun _ => Nat.succ_pos _,
    fun _ hp => ?_, ht.headed h fun d _ => ?_, fun hi => ?_⟩
  · simp [hf .release]
  · exact absurd hz (Nat.ne_of_gt hp)
  · by_cases hd : d = .register
    · exact hd ▸ htl
    · exact due_tail d b (hf d hd)
  · exact absurd (h.issued_of_due hdu) (by simpa using hi)

theorem Ledger.register (hx : 0 < due .register b [x])
    (hf : ∀ d, due d b first = 0) : Ledger process b { a with registered := true } todo' := by
  have hd : 0 < due .register b (todo i) := by rwa [ht.before .register (by decide)]
  have hz : a.releases = 0 := h.made i (Nat.add_pos_right _ hd)
  have hc : 0 < a.confirms := h.registering i hd
  have hle : ∀ d k, due d b (todo' k) ≤ due d b (todo k) := fun d => ht.due_le (by simp [hf])
  refine ⟨h.toExclusive.anti rfl le_rfl (fun _ => id) (fun k => Nat.add_le_add (hle _ k) (hle _ k)) (hle _),
    h.balance, fun _ _ => .inl hc, fun _ _ => hc, fun _ => hc, fun _ hp => ?_,
    ht.headed h fun d _ => ?_, fun hi => ?_⟩
  · exact absurd hz (Nat.ne_of_gt hp)
  · exact due_tail d b (hf d)
  · exact absurd (h.issued_of_due hd) (by simpa using hi)

theorem Ledger.unregister (hx : 0 < due .unregister b [x]) (hf : ∀ d, due d b first = 0) :
    Ledger process b { a with registered := false } todo' :=
  h.lowered ht (due_singleton_of_ne _ _ hx (by decide)) hf nofun

/-- Removing a backend from memory: the right to release it goes to the call. -/
theorem Ledger.removed [DecidableEq π] {p : π}
    {kn : String} (hkn : a.kind? p = some kn) (hm : ∀ k, making b (todo k) = 0)
    (hf : ∀ d, d ≠ .release → due d b first = 0) (hon : due .release b first ≤ 1)
    (hcn : 0 < due .release b first → isCountedKind kn) :
    Ledger process b { a with kind? := update a.kind? p none } todo' := by
  have hr : 0 < rights b a todo (.inl p) := by simp [rights, hkn]
  have hz : a.releases = 0 := h.held _ hr
  have ho : ∀ y, y ≠ .inl p → rights b a todo y = 0 := fun y hy => h.token.eq_zero_of_ne hr hy
  have hdu : ∀ k, due .release b (todo k) = 0 := fun k => ho (.inr k) nofun
  have hd' : ∀ k, k ≠ i → due .release b (todo' k) = 0 := fun k hk => by rw [ht.others k hk, hdu]
  have hn : due .release b (todo' i) ≤ due .release b first := by
    have := ht.releases
    have := hdu i
    omega
  have hg : ∀ q, update a.kind? p none q = none := by
    intro q
    rcases eq_or_ne q p with rfl | hq
    · simp
    · have hq' := ho (.inl q) fun heq => hq (Sum.inl.inj heq)
      simpa [rights, hq] using hq'
  have hm' : ∀ k, making b (todo' k) = 0 := fun k =>
    Nat.le_zero.mp (hm k ▸ ht.making_le (by simp [making, hf]) k)
  refine ⟨⟨single_of_only (i := .inr i) (hn.trans hon) ?_, fun _ _ => hz, fun _ _ => hz, fun k hk => ?_⟩,
    h.balance, fun q hq => ?_, fun k hk => ?_, h.listed, fun _ hp => ?_, ht.headed h fun d hd => ?_, fun hi => ?_⟩
  · rintro (q | k) hne
    · simp [rights, hg]
    · exact hd' k fun heq => hne (congrArg Sum.inr heq)
  · refine ⟨?_, hm'⟩
    have hp : 0 < due .release b first := by
      rcases eq_or_ne k i with rfl | hki
      · exact lt_of_lt_of_le hk hn
      · exact absurd hk (by simp [hd' k hki])
    -- a counted backend in memory is confirmed, as nobody is about to do it
    obtain hc | ⟨k', -, hk'⟩ := h.confirmed p (by simpa [hkn] using hcn hp)
    · exact hc
    · exact absurd (Nat.add_pos_left hk' _) (by rw [← making, hm]; exact Nat.lt_irrefl 0)
  · simp [hg] at hq
  · exact absurd (Nat.add_pos_right _ hk) (by rw [← making, hm']; exact Nat.lt_irrefl 0)
  · exact absurd hz (Nat.ne_of_gt hp)
  · exact due_tail d b (hf d hd)
  · exact absurd ((h.fresh hi).2.2.1 p) (by simp [hkn])

/-- Releasing a backend, when nobody has the right to do so again. -/
theorem Ledger.release (hi : a.issued = true)
    (hz : a.releases = 0) (hc : 0 < a.confirms) (hm : ∀ k, making b (todo k) = 0)
    (hr : ∀ y, rights b a todo' y = 0) (hu : 0 < due .unregister b first)
    (hf : ∀ d, d ≠ .unregister → due d b first = 0) (htl : due .unregister b first.tail = 0) :
    Ledger process b { a with releases := a.releases + 1 } todo' := by
  have hm' : ∀ k, making b (todo' k) = 0 := fun k =>
    le_zero.mp (hm k ▸ ht.making_le (by simp [making, hf]) k)
  have hr' : ∀ y, rights b { a with releases := a.releases + 1 } todo' y = 0 := by
    rintro (p | k)
    · exact hr (.inl p)
    · exact hr (.inr k)
  refine ⟨⟨⟨fun y => ?_, fun {y _} hy => ?_⟩, fun y hy => ?_, fun k hk => ?_, fun k hk => ?_⟩, ?_,
    fun _ _ => .inl hc,
    fun _ _ => hc, fun _ => hc, fun _ _ => ⟨i, ?_⟩, ht.headed h fun d _ => ?_, fun hfl => ?_⟩
  · exact (hr' y).trans_le (zero_le 1)
  · exact absurd hy (by rw [hr']; exact lt_irrefl 0)
  · exact absurd hy (by rw [hr']; exact lt_irrefl 0)
  · exact absurd hk (by rw [hm']; exact lt_irrefl 0)
  · exact absurd hk (by rw [show due .release b (todo' k) = 0 from hr (.inr k)]; exact lt_irrefl 0)
  · change a.releases + 1 ≤ a.confirms
    omega
  · rwa [ht.after .unregister (by decide)]
  · by_cases hd : d = .unregister
    · exact hd ▸ htl
    · exact due_tail d b (hf d hd)
  · exact absurd hi (by simpa using hfl)

/-- The call that has the right uses it up. -/
theorem Ledger.rights_eq_zero
    (hx : 0 < due .release b [x]) (hf : due .release b first = 0) : ∀ y, rights b a todo' y = 0 := by
  have hr : 0 < rights b a todo (.inr i) := lt_of_lt_of_le hx ht.holds
  have ho : ∀ y, y ≠ .inr i → rights b a todo y = 0 := fun y hy => h.token.eq_zero_of_ne hr hy
  rintro (p | k)
  · exact ho (.inl p) nofun
  · rcases eq_or_ne k i with rfl | hk
    · have hon : due .release b (todo k) ≤ 1 := h.token.le_one (.inr k)
      have hle := ht.releases
      change due .release b (todo' k) = 0
      omega
    · have hk' := ho (.inr k) fun heq => hk (Sum.inr.inj heq)
      change due .release b (todo' k) = 0
      rw [ht.others k hk]
      exact hk'

end

/-- A process dies, with its memory and its calls. -/
theorem Ledger.die [DecidableEq π] (p : π) (hds : ∀ k, process k = p → due .unregister b (todo k) = 0) :
    Ledger process b { a with kind? := update a.kind? p none } fun k => if process k = p then [] else todo k := by
  have hkn : ∀ q, (update a.kind? p none q).isSome → q ≠ p ∧ (a.kind? q).isSome := by
    intro q hq
    rcases eq_or_ne q p with rfl | hne
    · simp at hq
    · exact ⟨hne, by simpa [hne] using hq⟩
  have hle : ∀ d k, due d b (if process k = p then [] else todo k) ≤ due d b (todo k) := by
    intro d k
    split_ifs
    · exact Nat.zero_le _
    · exact Nat.le_refl _
  refine ⟨h.toExclusive.anti rfl le_rfl (fun q hq => (hkn q hq).2)
    (fun k => Nat.add_le_add (hle _ k) (hle _ k)) (hle _),
    h.balance, fun q hq => ?_, fun k hk => ?_, h.listed, fun hr hp => ?_, fun k d hd => ?_, fun hi => ?_⟩
  · have hne : q ≠ p := (hkn q (Option.isSome_of_any hq)).1
    obtain hp | ⟨k, rfl, hk⟩ := h.confirmed q (by simpa [hne] using hq)
    · exact .inl hp
    · exact .inr ⟨k, rfl, by rwa [if_neg hne]⟩
  · exact h.registering k (lt_of_lt_of_le hk (hle _ k))
  · obtain ⟨k, hk⟩ := h.pending hr hp
    refine ⟨k, ?_⟩
    rwa [if_neg fun heq => absurd hk (by simp [hds k heq])]
  · split_ifs
    · rfl
    · exact h.headed k d hd
  · obtain ⟨hz, hr, hn, hdu⟩ := h.fresh hi
    refine ⟨hz, hr, fun q => ?_, fun k d => Nat.le_zero.mp (hdu k d ▸ hle d k)⟩
    rcases eq_or_ne q p with rfl | hne
    · simp
    · simp [hne, hn]

end Steps

/-! ### Runs -/

theorem ledger_start (su : Setup) (process : ι → π) (os : ι → Operation) (b : String) :
    Ledger process b ((start su os : World ι π).shared.account b) (start su os : World ι π).thread := by
  have hd : ∀ k d, due d b ((os k).program su : List (Instr π)) = 0 := by
    intro k d
    cases os k with
    | ensureSessionBackend =>
      dsimp only [Operation.program]
      split_ifs <;> rfl
    | _ => rfl
  have hr : ∀ y, rights b ((start su os : World ι π).shared.account b)
      (start su os : World ι π).thread y = 0 := by
    rintro (p | k)
    · rfl
    · exact hd k .release
  refine ⟨⟨⟨fun y => (hr y).trans_le (zero_le 1), fun {y _} hy => ?_⟩, fun _ _ => rfl, fun _ _ =>
    rfl, fun k hk => ?_⟩,
    le_refl 0, nofun, fun k hk => ?_, nofun, nofun, fun k d _ => ?_, fun _ => ⟨rfl, rfl, fun _ => rfl, hd⟩⟩
  · exact absurd hy (by rw [hr]; exact lt_irrefl 0)
  · exact absurd hk (by simp [start, hd])
  · exact absurd hk (by simp [start, hd])
  · exact due_tail d b (hd k d)

section Runs

variable [DecidableEq π] [DecidableEq ι] {su : Setup} {w w' : World ι π} {l : Label ι π}

/-- A call that goes on carries out its first instruction. -/
theorem step_call_eq_some {e : Env} (h : step su process w (.call i e) = some w') : ∃ x r, w.thread i = x :: r ∧
      w' = w.put i (exec su (process i) e w.shared x).1 ((exec su (process i) e w.shared x).2.todo r) := by
  obtain ⟨s, t, ha, rfl⟩ := Threads.step_eq_some.mp h
  cases ht : w.thread i with
  | nil => simp [act, ht] at ha
  | cons x r =>
    simp only [act, ht] at ha
    split_ifs at ha with hl
    obtain ⟨rfl, rfl⟩ := Prod.mk.inj (Option.some.inj ha)
    exact ⟨x, r, rfl, rfl⟩

theorem Ledger.call {env : Env} (h : Ledger process b (w.shared.account b) w.thread)
    (hP : Orderly process w (.call i env)) (hs : step su process w (.call i env) = some w') :
    Ledger process b (w'.shared.account b) w'.thread := by
  obtain ⟨x, r, htd, rfl⟩ := step_call_eq_some hs
  have hx : x ∈ (w.thread i).head? := by simp [htd]
  have ht := h.turn htd (exec su (process i) env w.shared x).2
  change Ledger process b ((exec su (process i) env w.shared x).1.account b) _
  cases exec_effect su (process i) env w.shared x b with
  | untouched ha hd hf => exact ha ▸ h.untouched ht hd hf
  | created kn hmk ha hf htl hcn =>
    have hi : b ∉ w.shared.issued := hP.fresh i rfl x hx b hmk
    exact ha ▸ h.created ht kn (by simpa [Shared.account] using hi) hf htl hcn
  | confirmed hd ha hrg hf htl => exact ha ▸ h.confirm ht hd hrg hf htl
  | registered hd ha hf => exact ha ▸ h.register ht hd hf
  | unregistered hd ha hf => exact ha ▸ h.unregister ht hd hf
  | removed kn hrm hkn ha hf ho hcn =>
    obtain ⟨e, he, rfl⟩ := hrm
    obtain ⟨hcf, hrg⟩ := hP.removes i rfl x hx e he
    have hm : ∀ k, making e.1 (w.thread k) = 0 := by
      intro k
      have hc : ¬ 0 < due .confirm e.1 (w.thread k) := fun hp => hcf ⟨k, hp⟩
      have hr : ¬ 0 < due .register e.1 (w.thread k) := fun hp => hrg ⟨k, hp⟩
      rw [making]
      omega
    exact ha ▸ h.removed ht hkn hm hf ho hcn
  | released hdt ha hu hf htl =>
    rw [ha]
    obtain hd | hrc := hdt
    · have hp : 0 < due .release b (w.thread i) := lt_of_lt_of_le hd ht.holds
      obtain ⟨hco, hm⟩ := h.settled i hp
      exact h.release ht (h.issued_of_due hp) (h.held (.inr i) hp) hco hm
        (h.rights_eq_zero ht hd (hf _ (by decide))) hu hf htl
    · obtain ⟨hre, hfr, huw⟩ := hP.reclaims i rfl x hx b hrc
      have hd : ∀ d k, due d b (w.thread k) = 0 := fun d k =>
        Nat.eq_zero_of_not_pos fun hp => huw d ⟨k, hp⟩
      have hz : (w.shared.account b).releases = 0 := by
        by_contra hne
        obtain ⟨k, hk⟩ := h.pending hre (Nat.pos_of_ne_zero hne)
        exact huw _ ⟨k, hk⟩
      refine h.release ht ?_ hz (h.listed hre) (fun k => by simp [making, hd]) ?_ hu hf htl
      · by_contra hi
        have hun := (h.fresh (Bool.eq_false_of_not_eq_true hi)).2.1
        rw [hre] at hun
        cases hun
      · rintro (p | k)
        · simp [rights, hfr]
        · exact Nat.le_zero.mp (hd .release k ▸ ht.due_le (by simp [hf .release]) k)

theorem Ledger.step (h : Ledger process b (w.shared.account b) w.thread) (hP : Orderly process w l)
    (hs : step su process w l = some w') : Ledger process b (w'.shared.account b) w'.thread := by
  cases l with
  | call => exact h.call hP hs
  | die p =>
    obtain rfl := Option.some.inj hs
    have hd : ∀ k, process k = p → due .unregister b (w.thread k) = 0 := by
      intro k hk
      rw [due, countP_eq_zero]
      intro x hx hdt
      exact hP.dies p rfl k hk x hx (by simp [of_decide_eq_true hdt])
    have ha : ((w.shared.remember p {}).lock p false).account b =
        { w.shared.account b with kind? := update (w.shared.account b).kind? p none } :=
      account_remember w.shared p b {}
    exact ha ▸ h.die p hd

/-- **One release per confirmation**, in every run of any number of processes whose steps are
all orderly. -/
theorem releases_le_confirms_of_run (setup : Setup) (process : ι → π) (operations : ι → Operation) {w : World ι π}
    (hrun : RunUnder (step setup process) (Orderly process) (start setup operations) w) : ReleasedOnce w := by
  intro b
  refine (hrun.invariant (I := fun w => Ledger process b (w.shared.account b) w.thread) ?_ ?_).balance
  · exact ledger_start setup process operations b
  · exact fun h hP hs => h.step hP hs

end Runs

/-! ### Three processes and one place -/

/-- One place; the key of a configuration is its options. -/
def onePlace : Setup := ⟨1, (·.options)⟩

/-- Each of three processes wants a backend for a session of its own. -/
def threeSessions (i : Fin 3) : Operation :=
  .ensureSessionBackend { backendId := "b" ++ toString i.val, sessionId := some ("s" ++ toString i.val) } 1

/-- A call at a time, with the sandbox that the provider builds for it. -/
def go (i : Fin 3) (nowMs : ℕ) : Label (Fin 3) (Fin 3) := .call i { nowMs, built := some ("i" ++ toString i.val) }

/-- The owner dies, and one process reclaims its sandbox and makes one of its own. -/
theorem releases_le_confirms_of_run_reclaim :
    ∃ w : World (Fin 3) (Fin 3), RunUnder (step onePlace id) (Orderly id) (start onePlace threeSessions) w ∧
      (w.shared.releases "b0" = 1 ∧ w.shared.confirms "b1" = 1) ∧ ReleasedOnce w :=
  (exists_run_of_exec _ _ _ _ (replicate 6 (go 0 1) ++ [.die 0] ++ replicate 12 (go 1 60000)) (by decide)).imp
    fun w ⟨hr, hw⟩ => ⟨hr, hw, releases_le_confirms_of_run onePlace id threeSessions hr⟩

/-- Two processes read the entry of a dead owner. The first reclaims it and makes a backend of
its own in the place. The second then reclaims it again, which frees the place of that backend:
both processes have a sandbox, where there is one place. -/
theorem orphan_is_released_twice :
    ∃ w : World (Fin 3) (Fin 3), RunUnder (step onePlace id) Fresh (start onePlace threeSessions) w ∧
      w.shared.confirms "b0" = 1 ∧ w.shared.releases "b0" = 2 ∧
      (w.shared.account "b1").kind? 1 = some "e2b" ∧ (w.shared.account "b2").kind? 2 = some "e2b" :=
  exists_run_of_exec _ _ _ _
    (replicate 6 (go 0 1) ++ [.die 0] ++ replicate 5 (go 2 60000) ++ replicate 12 (go 1 60000) ++
      replicate 7 (go 2 60000)) (by decide)

end XiaoO.Backend.Processes
