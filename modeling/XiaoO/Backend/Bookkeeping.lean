import XiaoO.Backend.Reservations
import XiaoO.Backend.SandboxRelease
import Mathlib.Algebra.BigOperators.Group.Finset.Piecewise
import Mathlib.Algebra.Order.BigOperators.Group.Finset

/-!
# The books of one process

A backend manager keeps three books of its sandboxes: the backends in its memory, the
entries of the registry and the places of the shared counter. Calls write to them one after
the other and in different orders, so that the books differ while calls are in progress.

## The model

The machine of `Processes` with one process and any number of calls of
`ensure_session_backend`, `checkout_backend`, `release_session` and `evict_backend_by_id`.
The provider may fail to build or to delete a sandbox.

## What is proved

`checkout_backend` puts the new backend into memory before it confirms its place and
registers it. A `release_session` between the two gives back a place that is not yet taken,
and the place and the entry that follow are never removed (`released_checkout_stays_booked`).
In every run in which

* a backend is removed from memory only when no call is still to confirm or register it,
* a backend is made under an id that is not in memory and that no call is still to
  confirm, register, release or unregister,

the books agree whenever no call is in progress, and no reservation is left
(`books_agree_at_rest`).

Two things are followed. A call seeks a reservation, holds one, or neither
(`Course`), and the reservations are those that the calls hold. Each backend has a place,
and as many entries as it should have up to what the calls are still to do (`Booked`).
-/

namespace XiaoO.Backend.Processes

open XiaoO.Base List SortedMap Nat

/-! ### The calls and their books -/

/-- The calls of the process. -/
inductive Call where
  | ensureSessionBackend (request : NewBackend) (attempts : ℕ)
  | checkoutBackend (request : NewBackend) (attempts : ℕ)
  | releaseSession (sessionId : String)
  | evictBackendById (backendId : String)

def Call.program (setup : Setup) : Call → List (Instr Unit)
  | .ensureSessionBackend request attempts => (Operation.ensureSessionBackend request attempts).program setup
  | .checkoutBackend request attempts => (Operation.checkoutBackend request attempts).program setup
  | .releaseSession sessionId => (Operation.releaseSession sessionId).program setup
  | .evictBackendById backendId => [.evictMarkedOwn backendId []]

/-- The sandboxes of a call have the key, which no options change. -/
def Call.OneKey (setup : Setup) (key : String) : Call → Prop
  | .ensureSessionBackend request _ => isCountedKind request.config.kind → setup.sandboxKey request.config = key
  | .checkoutBackend request _ => request.sandboxKey = key ∧ setup.sandboxKey ⟨"e2b", request.config.options⟩ = key
  | .releaseSession _ | .evictBackendById _ => True

variable (s : Shared Unit)

def countedBackends : ℕ :=
  (s.memory ()).backends.entries.countP fun e => isCountedKind e.2.config.kind

/-- **The property**: the books agree, and nothing is reserved. -/
structure Agreed (key : String) (s : Shared Unit) : Prop where
  counts : s.counter.counts key + s.counter.ghosts key = countedBackends s
  entries : (s.entriesWhere fun entry => entry.ownerProcessId = ()).length = countedBackends s
  reservations : s.counter.pendingReservations key = []

section Machine

variable {ι : Type} [DecidableEq ι]

def proceedCall (setup : Setup) (w : World ι Unit) (c : ι × Env) : Option (World ι Unit) :=
  step setup (fun _ => ()) w (.call c.1 c.2)

/-- Nothing is made yet. -/
def before (setup : Setup) (calls : ι → Call) : World ι Unit := ⟨{}, fun i => (calls i).program setup⟩

end Machine

variable {ι : Type}

/-- No call is in progress: each has returned, or was not yet made. -/
def AtRest (setup : Setup) (calls : ι → Call) (w : World ι Unit) : Prop :=
  ∀ k, w.thread k = [] ∨ w.thread k = (calls k).program setup

/-! ### Conditions -/

def Instr.made? (state : BackendManagerState) (env : Env) : Instr Unit → Option String
  | .create request => if isBound state request then none else env.built.map fun _ => request.backendId
  | .insertCheckoutChild request =>
    match checkoutConflict state request.backendId request.sessionId with
    | .ok () => env.built.map fun _ => request.backendId
    | .error _ => none
  | _ => none

/-- No reservation reaches its time to live. -/
def InTime (key : String) (w : World ι Unit) (c : ι × Env) : Prop :=
  ∀ reservedAt ∈ w.shared.counter.pendingReservations key, SandboxCounterData.valid c.2.nowMs reservedAt
  deriving Decidable

/-- The condition on the steps of a run. -/
@[mk_iff] structure Tidy (key : String) (w : World ι Unit) (c : ι × Env) : Prop where
  inTime : InTime key w c
  /-- What is removed from memory has been confirmed and registered. -/
  removes : ∀ x ∈ (w.thread c.1).head?, ∀ removed ∈ (x.remove (w.shared.memory ())).1,
    ¬ Owes w .confirm removed.1 ∧ ¬ Owes w .register removed.1
  /-- Nobody is concerned with the id of a new backend. -/
  makes : ∀ x ∈ (w.thread c.1).head?, ∀ b ∈ x.made? (w.shared.memory ()) c.2,
    kindIn (w.shared.memory ()) b = none ∧ ∀ d, ¬ Owes w d b

section Decidable

variable [Fintype ι]

instance (key : String) : DecidableRel (Tidy key : World ι Unit → ι × Env → Prop) := fun _ _ =>
  decidable_of_iff _ (tidy_iff ..).symm

end Decidable

/-! ### What an instruction does to the books -/

/-- The duty that a call gets first; it gets no other. -/
structure Starts (first : List (Instr Unit)) (duty? : Option (Duty × String)) : Prop where
  due_eq : ∀ d b, due d b first = if duty? = some (d, b) then 1 else 0
  tail_eq : ∀ d b, due d b first.tail = 0

theorem starts_none {first : List (Instr Unit)} (h : ∀ d b, due d b first = 0) : Starts first none :=
  ⟨fun d b => by simp [h], fun d b => due_tail d b (h d b)⟩

theorem starts_nil : Starts [] none := starts_none fun _ _ => rfl

variable {d : Duty} {b : String}

theorem starts_cons {x : Instr Unit} {r : List (Instr Unit)} (hx : x.duty? = some (d, b))
    (hr : ∀ d b, due d b r = 0) : Starts (x :: r) (some (d, b)) := by
  refine ⟨fun d' b' => ?_, hr⟩
  rw [due_cons_of_duty d' b' hx (hr d' b')]
  simp [eq_comm]

/-- What an instruction does to the memory and to the registry, and what its call is to do next. -/
inductive Acts (env : Env) (s : Shared Unit) (x : Instr Unit) (t : Shared Unit)
    (first : List (Instr Unit)) : Prop where
  | nothing (hx : x.duty? = none) (hkind : ∀ b, kindIn (t.memory ()) b = kindIn (s.memory ()) b)
      (hlisted : ∀ b, (t.registry.get? b).isSome = (s.registry.get? b).isSome) (hfirst : Starts first none)
  | makes (b kind : String) (hmade : x.made? (s.memory ()) env = some b) (hx : x.duty? = none)
      (hkind : ∀ b', kindIn (t.memory ()) b' = if b' = b then some kind else kindIn (s.memory ()) b')
      (hlisted : ∀ b, (t.registry.get? b).isSome = (s.registry.get? b).isSome)
      (hfirst : Starts first (if isCountedKind kind then some (.confirm, b) else none))
  | confirms (b : String) (hx : x.duty? = some (.confirm, b))
      (hkind : ∀ b, kindIn (t.memory ()) b = kindIn (s.memory ()) b)
      (hlisted : ∀ b, (t.registry.get? b).isSome = (s.registry.get? b).isSome)
      (hfirst : Starts first (some (.register, b)))
  | registers (b : String) (hx : x.duty? = some (.register, b))
      (hkind : ∀ b, kindIn (t.memory ()) b = kindIn (s.memory ()) b)
      (hlisted : ∀ b', (t.registry.get? b').isSome = (decide (b' = b) || (s.registry.get? b').isSome))
      (hfirst : Starts first none)
  | removes (b kind : String) (hremoved : ∃ e ∈ (x.remove (s.memory ())).1, e.1 = b) (hx : x.duty? = none)
      (hold : kindIn (s.memory ()) b = some kind)
      (hkind : ∀ b', kindIn (t.memory ()) b' = if b' = b then none else kindIn (s.memory ()) b')
      (hlisted : ∀ b, (t.registry.get? b).isSome = (s.registry.get? b).isSome)
      (hfirst : Starts first (if isCountedKind kind then some (.release, b) else none))
  | releases (b : String) (hx : x.duty? = some (.release, b))
      (hkind : ∀ b, kindIn (t.memory ()) b = kindIn (s.memory ()) b)
      (hlisted : ∀ b, (t.registry.get? b).isSome = (s.registry.get? b).isSome)
      (hfirst : Starts first (some (.unregister, b)))
  | unregisters (b : String) (hx : x.duty? = some (.unregister, b))
      (hkind : ∀ b, kindIn (t.memory ()) b = kindIn (s.memory ()) b)
      (hlisted : ∀ b', (t.registry.get? b').isSome = (!decide (b' = b) && (s.registry.get? b').isSome))
      (hfirst : Starts first none)

section Acting

variable {su : Setup} {k : String} {env : Env} {s t : Shared Unit} {x : Instr Unit} {first : List (Instr Unit)}

/-- The values in the registry change at most. -/
theorem Acts.still (hx : x.duty? = none) (hm : t.memory = s.memory)
    (hl : ∀ b, (t.registry.get? b).isSome = (s.registry.get? b).isSome) (hf : ∀ d b, due d b first = 0) :
    Acts env s x t first :=
  .nothing hx (fun b => by rw [hm]) hl (starts_none hf)

theorem remove_eq (hk : x.Keyed su k) (st : BackendManagerState) :
    (x.remove st).1 = [] ∨ ∃ e, (x.remove st).1 = [e] := by
  have ho : ∀ {α β : Type} (f : α → β) (a? : Option α), a?.toList.map f = [] ∨ ∃ e, a?.toList.map f = [e] := by
    intro α β f a?
    cases a? with
    | none => exact .inl rfl
    | some a => exact .inr ⟨f a, rfl⟩
  cases x with
  | releaseSession i =>
    have h := ho id (st.releaseSession i).1
    rwa [map_id] at h
  | evictOwn | evictMarkedOwn => exact ho _ _
  | drain => exact hk.elim
  | _ => exact .inl rfl

/-- A part of a function that may remove a backend. -/
theorem acts_remove (st : Setup) (env : Env) (s : Shared Unit) (x : Instr Unit) (hk : x.Keyed st k)
    (hx : x.duty? = none) (r : List (Instr Unit)) (hrs : ∀ d b, due d b r = 0) :
    Acts env s x (s.remember () (x.remove (s.memory ())).2)
      ((x.remove (s.memory ())).1.flatMap (finalizeRemoval st) ++ r) := by
  have hr := removal_remove x (s.memory ())
  obtain hn | ⟨e, he⟩ := remove_eq hk (s.memory ())
  · rw [hn] at hr ⊢
    exact .nothing hx (fun b => by simpa [Shared.remember] using hr.others b (forall_mem_nil _))
      (fun _ => rfl) (starts_none hrs)
  · have hm : e ∈ (x.remove (s.memory ())).1 := by rw [he]; exact mem_singleton_self e
    refine .removes e.1 e.2.config.kind ⟨e, hm, rfl⟩ hx (hr.found e hm) (fun b => ?_) (fun _ => rfl) ?_
    · simp only [Shared.remember, Function.update_self]
      split_ifs with hb
      · rw [hb, hr.gone e hm]
      · refine hr.others b fun e' he' => ?_
        rw [he, mem_singleton] at he'
        rw [he']
        exact Ne.symm hb
    · rw [he, flatMap_cons, flatMap_nil, append_nil, finalizeRemoval]
      split_ifs
      · exact starts_cons rfl hrs
      · refine starts_none fun d b => ?_
        rw [due_append, hrs, add_zero]
        rfl

theorem acts_create (r : NewBackend) : Acts env s (.create r) (exec su () env s (.create r)).1
      (exec su () env s (.create r)).2.first := by
  obtain ⟨c, hc⟩ := cancel_eq s r env.nowMs
  have hk : ∀ i b, kindIn ((s.insertBackend () r i).memory ()) b =
      if b = r.backendId then some r.config.kind else kindIn (s.memory ()) b := fun i b => by
    simp [kindIn_insertBackend]
  cases exec_create su () env s r with
  | gaveUp h =>
    rw [h, hc]
    exact .still rfl rfl (fun _ => rfl) fun _ _ => rfl
  | found bi h =>
    rw [h, hc]
    exact .still rfl rfl (fun _ => rfl) fun d b => due_reassert d b r bi
  | counted i hb hbl hkn h =>
    rw [h]
    refine .makes r.backendId r.config.kind (by simp [Instr.made?, hb, hbl]) rfl
      (hk i) (fun _ => rfl) ?_
    rw [if_pos hkn]
    exact starts_cons rfl fun _ _ => rfl
  | uncounted i hb hbl hkn h =>
    rw [h]
    refine .makes r.backendId r.config.kind (by simp [Instr.made?, hb, hbl]) rfl
      (hk i) (fun _ => rfl) ?_
    rw [if_neg hkn]
    exact starts_nil

theorem acts_insertCheckoutChild (r : NewBackend) (hk : isCountedKind r.config.kind) :
    Acts env s (.insertCheckoutChild r) (exec su () env s (.insertCheckoutChild r)).1
      (exec su () env s (.insertCheckoutChild r)).2.first := by
  dsimp only [exec]
  split
  · next i hb hc =>
    refine .makes r.backendId r.config.kind (by simp [Instr.made?, hc, hb]) rfl
      (fun b => by simp [kindIn_insertBackend]) (fun _ => rfl) ?_
    rw [if_pos hk]
    exact starts_cons rfl fun _ _ => rfl
  · rw [Shared.cancel, if_pos hk]
    exact .still rfl rfl (fun _ => rfl) fun _ _ => rfl

/-- **What an instruction does to the books.** -/
theorem exec_acts (hk : x.Keyed su k) : Acts env s x (exec su () env s x).1 (exec su () env s x).2.first := by
  have hi : x.idle → Acts env s x (exec su () env s x).1 (exec su () env s x).2.first := by
    intro hx
    obtain ⟨hd, ⟨c, lc, hs⟩, hf⟩ := exec_idle su () env s hx
    exact .still hd (by rw [hs]) (fun _ => by rw [hs]) hf
  cases x with
  | create r => exact acts_create r
  | insertCheckoutChild r => exact acts_insertCheckoutChild r hk.1
  | confirm r =>
    exact .confirms r.backendId rfl (fun _ => rfl) (fun _ => rfl) (starts_cons rfl fun _ _ => rfl)
  | register e =>
    refine .registers e.backendId rfl (fun _ => rfl) (fun b => ?_) starts_nil
    simp only [exec, SortedMap.get?_insert]
    split_ifs with hb <;> simp [hb]
  | unregister bi =>
    refine .unregisters bi rfl (fun _ => rfl) (fun b => ?_) starts_nil
    simp only [exec, SortedMap.get?_erase]
    split_ifs with hb <;> simp [hb]
  | release bi =>
    exact .releases bi rfl (fun _ => rfl) (fun _ => rfl) (starts_cons rfl fun _ _ => rfl)
  | releaseSession i =>
    have h := acts_remove su env s (.releaseSession i) hk rfl [] fun _ _ => rfl
    rwa [append_nil] at h
  | evictOwn bi rs m l =>
    dsimp only [exec]
    split_ifs with hn
    · have h := acts_remove su env s (.evictOwn bi rs m l) hk rfl [.evictFirst rs m l]
        fun _ _ => rfl
      rwa [hn] at h
    · exact acts_remove su env s _ hk rfl _ fun d b => due_freed d b m l
  | evictMarkedOwn bi rs =>
    dsimp only [exec]
    split_ifs with hn
    · have h := acts_remove su env s (.evictMarkedOwn bi rs) hk rfl [] fun _ _ => rfl
      rwa [hn] at h
    · exact acts_remove su env s _ hk rfl _ fun _ _ => rfl
  | setPendingEviction | updateSessionStatus | refreshHeartbeats =>
    refine .still rfl rfl (fun b => ?_) fun _ _ => rfl
    simp [exec, SortedMap.modify, SortedMap.get?_mapValues]
  | leaseBound | reserve | countTotal | readByKey | evictFirst | reserveChild | giveUp | unlock | delete | readOwn
  | evictMarked =>
    exact hi rfl
  | reclaim | drain => exact hk.elim

theorem Acts.starts (h : Acts env s x t first) : ∃ duty?, Starts first duty? := by
  cases h with
  | nothing _ _ _ hf | makes _ _ _ _ _ _ hf | confirms _ _ _ _ hf | registers _ _ _ _ hf
  | removes _ _ _ _ _ _ _ hf | releases _ _ _ _ hf | unregisters _ _ _ _ hf => exact ⟨_, hf⟩

end Acting

/-! ### The books of a backend -/

variable {dt : Option (Duty × String)}

section Books

/-- The counted backends under an id in memory. -/
def Shared.keeps (b : String) : ℕ := if (kindIn (s.memory ()) b).any isCountedKind then 1 else 0

open Shared

/-- The entries under an id in the registry. -/
def Shared.lists (b : String) : ℕ := if (s.registry.get? b).isSome then 1 else 0

variable [Fintype ι] (w : World ι Unit)

/-- How often the calls have a duty to a backend. -/
def owed (d : Duty) (b : String) : ℕ := ∑ k, due d b (w.thread k)

theorem owed_eq_zero {w : World ι Unit} (h : ¬ Owes w d b) : owed w d b = 0 :=
  Finset.sum_eq_zero fun k _ => Nat.eq_zero_of_not_pos fun hp => h ⟨k, hp⟩

/-- **The books of a backend**, up to what the calls are still to do. -/
structure Booked (b : String) : Prop where
  /-- What is to be confirmed or registered is in memory. -/
  making : owed w .confirm b + owed w .register b ≤ w.shared.keeps b
  /-- It is in memory, or one call is to release or to unregister it. -/
  single : w.shared.keeps b + owed w .release b + owed w .unregister b ≤ 1
  balance : w.shared.lists b + owed w .confirm b + owed w .register b =
    w.shared.keeps b + owed w .release b + owed w .unregister b

/-- The place of a backend: it was confirmed, and not released. -/
def place (b : String) : ℕ := w.shared.keeps b + owed w .release b - owed w .confirm b

variable {env : Env} {w w' : World ι Unit} {x : Instr Unit} {fr : List (Instr Unit)}

/-- The duties to a backend after a turn: that of the instruction `x` is done, and `duty?` is
due. -/
def HandedOn (w : World ι Unit) (x : Instr Unit) (duty? : Option (Duty × String)) (w' : World ι Unit) (b : String) :
    Prop :=
  ∀ d, owed w' d b + (if x.duty? = some (d, b) then 1 else 0) = owed w d b + (if duty? = some (d, b) then 1 else 0)

/-- The books of a backend after a turn: its place changes when it is confirmed or released. -/
structure StaysBooked (w : World ι Unit) (x : Instr Unit) (w' : World ι Unit) (b : String) : Prop where
  booked : Booked w' b
  moved : place w' b + (if x.duty? = some (.release, b) then 1 else 0) =
    place w b + (if x.duty? = some (.confirm, b) then 1 else 0)

theorem handedOn_put [DecidableEq ι] {i : ι} {rest : List (Instr Unit)} {next : Next Unit}
    {t : Shared Unit} (ht : w.thread i = x :: rest) (hr : ∀ d b, due d b rest = 0)
    (hf : Starts next.first dt) (b : String) : HandedOn w x dt (w.put i t (next.todo rest)) b := by
  intro d
  have hx : due d b (w.thread i) = if x.duty? = some (d, b) then 1 else 0 := by
    rw [ht, due_cons, hr, due_singleton, add_zero]
  have hn : due d b (next.todo rest) = if dt = some (d, b) then 1 else 0 := by
    have hle : due d b (next.todo rest) ≤ due d b next.first + due d b rest := due_todo_le
    rw [hr, add_zero] at hle
    rw [← hf.due_eq d b]
    exact le_antisymm hle due_first_le_todo
  rw [← hx, ← hn]
  exact w.sum_put i t (next.todo rest) (due d b)

section Turn

variable {b b' : String}

/-- The instruction is not about the backend. -/
theorem Booked.other (h : Booked w b)
    (hk : w'.shared.keeps b = w.shared.keeps b) (hl : w'.shared.lists b = w.shared.lists b)
    (how : HandedOn w x dt w' b) (hx : ∀ d, x.duty? ≠ some (d, b)) (hd : ∀ d, dt ≠ some (d, b)) :
    StaysBooked w x w' b := by
  have ho : ∀ d, owed w' d b = owed w d b := fun d => by simpa [hx d, hd d] using how d
  obtain ⟨hm, hs, hb⟩ := h
  refine ⟨⟨?_, ?_, ?_⟩, ?_⟩
  · rwa [ho, ho, hk]
  · rwa [ho, ho, hk]
  · rwa [ho, ho, ho, ho, hk, hl]
  · rw [if_neg (hx .release), if_neg (hx .confirm), place, place, ho, ho, hk]

/-- A duty to the backend is done, and the next one is due. -/
theorem Booked.done (h : Booked w b) (hx : x.duty? = some (d, b)) (hk : w'.shared.keeps b = w.shared.keeps b)
    (hn : d = .confirm ∧ dt = some (.register, b) ∧ w'.shared.lists b = w.shared.lists b ∨
      d = .register ∧ dt = none ∧ w'.shared.lists b = 1 ∨
      d = .release ∧ dt = some (.unregister, b) ∧ w'.shared.lists b = w.shared.lists b ∨
      d = .unregister ∧ dt = none ∧ w'.shared.lists b = 0) (ho : HandedOn w x dt w' b) : StaysBooked w x w' b := by
  obtain ⟨hm, hs, hb⟩ := h
  have hc := ho .confirm
  have hg := ho .register
  have hr := ho .release
  have hu := ho .unregister
  obtain ⟨rfl, rfl, hl⟩ | ⟨rfl, rfl, hl⟩ | ⟨rfl, rfl, hl⟩ | ⟨rfl, rfl, hl⟩ := hn
  all_goals
    simp only [hx, Option.some.injEq, Prod.mk.injEq, reduceCtorEq, and_true, if_true, if_false, add_zero]
      at hc hg hr hu
    refine ⟨⟨by omega, by omega, by omega⟩, ?_⟩
    simp only [hx, Option.some.injEq, Prod.mk.injEq, reduceCtorEq, and_true, if_true, if_false, place]
    omega

theorem Booked.made {kind : String} (h : Booked w b) (hx : x.duty? = none)
    (hn : kindIn (w.shared.memory ()) b = none) (how : ∀ d, ¬ Owes w d b)
    (hk : kindIn (w'.shared.memory ()) b = some kind) (hl : w'.shared.lists b = w.shared.lists b)
    (ho : HandedOn w x (if isCountedKind kind then some (.confirm, b) else none) w' b) : StaysBooked w x w' b := by
  have hbf : w.shared.keeps b = 0 := by simp [keeps, hn]
  have ha : w'.shared.keeps b = if isCountedKind kind then 1 else 0 := by simp [keeps, hk]
  have hz : ∀ d, owed w d b = 0 := fun d => owed_eq_zero (how d)
  have hb := h.balance
  have hc := ho .confirm
  have hg := ho .register
  have hr := ho .release
  have hu := ho .unregister
  simp only [hx, hz, reduceCtorEq, if_false, add_zero] at hb hc hg hr hu
  by_cases hcn : isCountedKind kind
  all_goals
    simp [hcn] at hc hg hr hu ha
    refine ⟨⟨by omega, by omega, by omega⟩, ?_⟩
    simp only [hx, reduceCtorEq, if_false, place, hz]
    omega

theorem Booked.removed {kind : String} (h : Booked w b) (hx : x.duty? = none)
    (hol : kindIn (w.shared.memory ()) b = some kind) (hcn : ¬ Owes w .confirm b) (hrg : ¬ Owes w .register b)
    (hk : kindIn (w'.shared.memory ()) b = none) (hl : w'.shared.lists b = w.shared.lists b)
    (ho : HandedOn w x (if isCountedKind kind then some (.release, b) else none) w' b) : StaysBooked w x w' b := by
  have hbf : w.shared.keeps b = if isCountedKind kind then 1 else 0 := by simp [keeps, hol]
  have ha : w'.shared.keeps b = 0 := by simp [keeps, hk]
  obtain ⟨hm, hs, hb⟩ := h
  have hc := ho .confirm
  have hg := ho .register
  have hr := ho .release
  have hu := ho .unregister
  simp only [hx, owed_eq_zero hcn, owed_eq_zero hrg, reduceCtorEq, if_false, add_zero]
    at hm hb hc hg hr hu
  by_cases hco : isCountedKind kind
  all_goals
    simp [hco] at hc hg hr hu hbf
    refine ⟨⟨by omega, by omega, by omega⟩, ?_⟩
    simp only [hx, owed_eq_zero hcn, reduceCtorEq, if_false, place]
    omega

/-- **A turn keeps the books of a backend.** -/
theorem Booked.turn (h : Booked w b) (ha : Acts env w.shared x w'.shared fr)
    (ho : ∀ dt, Starts fr dt → HandedOn w x dt w' b)
    (hre : ∀ e ∈ (x.remove (w.shared.memory ())).1, ¬ Owes w .confirm e.1 ∧ ¬ Owes w .register e.1)
    (hm : ∀ b ∈ x.made? (w.shared.memory ()) env, kindIn (w.shared.memory ()) b = none ∧ ∀ d, ¬ Owes w d b) :
    StaysBooked w x w' b := by
  have hkp : kindIn (w'.shared.memory ()) b = kindIn (w.shared.memory ()) b →
      w'.shared.keeps b = w.shared.keeps b := fun hk => by rw [keeps, hk, keeps]
  have hls : (w'.shared.registry.get? b).isSome = (w.shared.registry.get? b).isSome →
      w'.shared.lists b = w.shared.lists b := fun hl => by rw [lists, hl, lists]
  cases ha with
  | nothing hx hk hl hf =>
    exact h.other (hkp (hk b)) (hls (hl b)) (ho _ hf) (by simp [hx]) nofun
  | makes b' k hmd hx hk hl hf =>
    rcases eq_or_ne b b' with rfl | hb
    · obtain ⟨hn, how⟩ := hm b hmd
      exact h.made hx hn how (by rw [hk, if_pos rfl]) (hls (hl b)) (ho _ hf)
    · refine h.other (hkp (by rw [hk, if_neg hb])) (hls (hl b)) (ho _ hf) (by simp [hx])
        fun d => ?_
      split_ifs <;> simp [Ne.symm hb]
  | removes b' k hrm hx hol hk hl hf =>
    rcases eq_or_ne b b' with rfl | hb
    · obtain ⟨e, he, rfl⟩ := hrm
      obtain ⟨hc, hr⟩ := hre e he
      exact h.removed hx hol hc hr (by rw [hk, if_pos rfl]) (hls (hl _)) (ho _ hf)
    · refine h.other (hkp (by rw [hk, if_neg hb])) (hls (hl b)) (ho _ hf) (by simp [hx])
        fun d => ?_
      split_ifs <;> simp [Ne.symm hb]
  | confirms b' hx hk hl hf =>
    rcases eq_or_ne b b' with rfl | hb
    · exact h.done hx (hkp (hk b)) (.inl ⟨rfl, rfl, hls (hl b)⟩) (ho _ hf)
    · exact h.other (hkp (hk b)) (hls (hl b)) (ho _ hf) (by simp [hx, Ne.symm hb])
        (by simp [Ne.symm hb])
  | releases b' hx hk hl hf =>
    rcases eq_or_ne b b' with rfl | hb
    · exact h.done hx (hkp (hk b)) (.inr (.inr (.inl ⟨rfl, rfl, hls (hl b)⟩))) (ho _ hf)
    · exact h.other (hkp (hk b)) (hls (hl b)) (ho _ hf) (by simp [hx, Ne.symm hb])
        (by simp [Ne.symm hb])
  | registers b' hx hk hl hf =>
    rcases eq_or_ne b b' with rfl | hb
    · have hli : w'.shared.lists b = 1 := by simp [lists, hl]
      exact h.done hx (hkp (hk b)) (.inr (.inl ⟨rfl, rfl, hli⟩)) (ho _ hf)
    · exact h.other (hkp (hk b)) (hls (by simp [hl, hb])) (ho _ hf)
        (by simp [hx, Ne.symm hb]) nofun
  | unregisters b' hx hk hl hf =>
    rcases eq_or_ne b b' with rfl | hb
    · have hli : w'.shared.lists b = 0 := by simp [lists, hl]
      exact h.done hx (hkp (hk b)) (.inr (.inr (.inr ⟨rfl, rfl, hli⟩))) (ho _ hf)
    · exact h.other (hkp (hk b)) (hls (by simp [hl, hb])) (ho _ hf)
        (by simp [hx, Ne.symm hb]) nofun

end Turn

/-! ### Counting by ids -/

theorem countedBackends_eq :
    countedBackends s = ((s.memory ()).backends.keysWhere fun e => isCountedKind e.config.kind).length := by
  rw [countedBackends, countP_eq_length_filter, keysWhere, length_map]

variable {s : Shared Unit}

theorem keeps_eq_one : s.keeps b = 1 ↔ b ∈ (s.memory ()).backends.keysWhere fun e =>
    isCountedKind e.config.kind := by
  rw [mem_keysWhere, ← Option.any_eq_true, keeps, kindIn, Option.any_map]
  simp

/-- The counted backends in memory, counted by their ids. -/
theorem sum_keeps {ids : Finset String} (h : ∀ b ∉ ids, s.keeps b = 0) :
    ∑ b ∈ ids, s.keeps b = countedBackends s := by
  rw [countedBackends_eq, length_keysWhere (S := ids), Finset.card_filter]
  · refine Finset.sum_congr rfl fun b _ => ?_
    rw [keeps, kindIn, Option.any_map]
  · intro b hb
    by_contra hn
    have ho := keeps_eq_one.mpr hb
    rw [h b hn] at ho
    cases ho

/-- The entries of the process, if there is one for each counted backend in memory. -/
theorem length_entriesWhere (h : ∀ b, s.lists b = s.keeps b) :
    (s.entriesWhere fun e => e.ownerProcessId = ()).length = countedBackends s := by
  have hk : s.registry.keysWhere (fun e => e.ownerProcessId = ()) =
      (s.memory ()).backends.keysWhere fun e => isCountedKind e.config.kind := by
    refine keysWhere_eq (pairwise_keysWhere _ _) fun b => ?_
    rw [← keeps_eq_one, ← h, lists]
    simp [Option.isSome_iff_exists]
  rw [countedBackends_eq, ← hk, entriesWhere, filter_map, keysWhere, length_map, length_map]
  rfl

/-! ### Calls that were not yet made -/

section Programs

variable {setup : Setup} {key : String}

/-- A call that was not yet made has no duty and no reservation. -/
theorem course_program (c : Call) (hky : c.OneKey setup key) : Course setup key (c.program setup) := by
  cases c with
  | ensureSessionBackend =>
    dsimp only [Call.program, Operation.program]
    split_ifs with hk
    · refine .seeking [_, _] _ ⟨[_], _, rfl, ?_, rfl, hky hk⟩ ⟨?_, fun _ => ⟨hky hk, hky hk⟩⟩
      · simp [Instr.Is, Instr.role, Instr.Keyed]
      · simp [Instr.role, hk]
    · refine .passing _ ?_
      simp [Instr.Is, Instr.role, Instr.Keyed, NewBackend.Keyed, hk]
  | checkoutBackend request =>
    have hr : isCountedKind "e2b" ∧
        ({ request with config := ⟨"e2b", request.config.options⟩ } : NewBackend).Keyed setup key :=
      ⟨rfl, fun _ => hky⟩
    exact .seeking [_] _ (retries_singleton ⟨rfl, hr⟩) ⟨rfl, hr⟩
  | releaseSession =>
    refine .passing _ ?_
    simp [Call.program, Operation.program, Instr.Is, Instr.role, Instr.Keyed]
  | evictBackendById =>
    refine .passing _ ?_
    simp [Call.program, Instr.Is, Instr.role, Instr.Keyed]

theorem held_due_program (c : Call) : held (c.program setup) = 0 ∧ ∀ d b, due d b (c.program setup) = 0 := by
  cases c with
  | ensureSessionBackend =>
    dsimp only [Call.program, Operation.program]
    split_ifs <;> exact ⟨rfl, fun _ _ => rfl⟩
  | _ => exact ⟨rfl, fun _ _ => rfl⟩

end Programs

/-! ### The sum of the places -/

/-- The places that are taken are those of the backends of a finite set; of the others nothing is
known. -/
structure Counted (key : String) (w : World ι Unit) (ids : Finset String) : Prop where
  support : ∀ b ∉ ids, w.shared.keeps b = 0 ∧ ∀ d, owed w d b = 0
  total : w.shared.counted key = ∑ b ∈ ids, place w b

variable {key b : String} {ids : Finset String}

theorem Counted.mem (h : Counted key w ids) (hp : 0 < owed w d b) : b ∈ ids := by
  by_contra hb
  exact absurd ((h.support b hb).2 d) (ne_of_gt hp)

/-- A backend that is neither made nor known. -/
theorem Acts.unknown (ha : Acts env w.shared x w'.shared fr) (ho : ∀ dt, Starts fr dt → HandedOn w x dt w' b)
    (hm : x.made? (w.shared.memory ()) env ≠ some b) (hx : ∀ d, x.duty? ≠ some (d, b))
    (hkp : w.shared.keeps b = 0) (hz : ∀ d, owed w d b = 0) : w'.shared.keeps b = 0 ∧ ∀ d, owed w' d b = 0 := by
  have hs : kindIn (w'.shared.memory ()) b = kindIn (w.shared.memory ()) b → w'.shared.keeps b = 0 := fun hk => by
    rwa [keeps, hk, ← keeps]
  have hn : ∀ {dt}, Starts fr dt → (∀ d, dt ≠ some (d, b)) → ∀ d, owed w' d b = 0 := by
    intro dt hf hd d
    simpa [hx d, hd d, hz d] using ho dt hf d
  cases ha with
  | nothing _ hk _ hf | registers _ _ hk _ hf | unregisters _ _ hk _ hf => exact ⟨hs (hk b), hn hf nofun⟩
  | makes b' kind hm' _ hk _ hf =>
    have hb : b ≠ b' := by
      rintro rfl
      exact hm hm'
    refine ⟨hs (by rw [hk, if_neg hb]), hn hf fun d => ?_⟩
    split_ifs <;> simp [Ne.symm hb]
  | confirms b' hx' hk _ hf =>
    have hb : b' ≠ b := fun heq => hx .confirm (heq ▸ hx')
    exact ⟨hs (hk b), hn hf (by simp [hb])⟩
  | releases b' hx' hk _ hf =>
    have hb : b' ≠ b := fun heq => hx .release (heq ▸ hx')
    exact ⟨hs (hk b), hn hf (by simp [hb])⟩
  | removes b' kind _ _ hol hk _ hf =>
    rcases eq_or_ne b b' with rfl | hb
    · have hc : ¬ isCountedKind kind := by simpa [keeps, hol] using hkp
      rw [if_neg hc] at hf
      exact ⟨by simp [keeps, hk], hn hf nofun⟩
    · refine ⟨hs (by rw [hk, if_neg hb]), hn hf fun d => ?_⟩
      split_ifs <;> simp [Ne.symm hb]

/-- The one backend that an instruction has a duty to. -/
theorem sum_duty (h : ∀ b, x.duty? = some (d, b) → b ∈ ids) :
    (∑ b ∈ ids, if x.duty? = some (d, b) then 1 else 0) = if x.duty?.map Prod.fst = some d then 1 else 0 := by
  cases hx : x.duty? with
  | none => simp
  | some dt =>
    obtain ⟨d', b'⟩ := dt
    by_cases hd : d' = d
    · subst hd
      simp [h b' hx]
    · simp [hd]

theorem Booked.place_pos (h : Booked w b) (hp : 0 < owed w .release b) : 0 < place w b := by
  have hm := h.making
  rw [place]
  omega

theorem Counted.pos (h : Counted key w ids) (hb : Booked w b)
    (hp : 0 < owed w .release b) : 0 < w.shared.counted key := by
  rw [h.total]
  exact lt_of_lt_of_le (hb.place_pos hp) (Finset.single_le_sum (fun _ _ => zero_le _) (h.mem hp))

/-- **A turn keeps the sum of the places.** -/
theorem Counted.turn (h : Counted key w ids) (ha : Acts env w.shared x w'.shared fr)
    (ho : ∀ dt, Starts fr dt → ∀ b, HandedOn w x dt w' b) (hx : ∀ d b, x.duty? = some (d, b) → 0 < owed w d b)
    (hbk : ∀ b, StaysBooked w x w' b)
    (hc : w'.shared.counted key + (if x.duty?.map Prod.fst = some .release then 1 else 0) =
      w.shared.counted key + (if x.duty?.map Prod.fst = some .confirm then 1 else 0)) :
    Counted key w' ((x.made? (w.shared.memory ()) env).toFinset ∪ ids) := by
  constructor
  · intro b hb
    rw [Finset.mem_union, Option.mem_toFinset, not_or] at hb
    obtain ⟨hk, hz⟩ := h.support b hb.2
    refine ha.unknown (fun dt hf => ho dt hf b) hb.1 (fun d hd => ?_) hk hz
    exact hb.2 (h.mem (hx d b hd))
  · have hs : ids ⊆ (x.made? (w.shared.memory ()) env).toFinset ∪ ids := Finset.subset_union_right
    have hol : ∑ b ∈ (x.made? (w.shared.memory ()) env).toFinset ∪ ids, place w b = ∑ b ∈ ids, place w b := by
      refine (Finset.sum_subset hs fun b _ hb => ?_).symm
      obtain ⟨hk, hz⟩ := h.support b hb
      simp [place, hk, hz]
    have hm : ∀ d b, x.duty? = some (d, b) → b ∈ (x.made? (w.shared.memory ()) env).toFinset ∪ ids :=
      fun d b hb => hs (h.mem (hx d b hb))
    have hsm := Finset.sum_congr (rfl : (x.made? (w.shared.memory ()) env).toFinset ∪ ids = _)
      fun b _ => (hbk b).moved
    rw [Finset.sum_add_distrib, Finset.sum_add_distrib, sum_duty (hm .release), sum_duty (hm .confirm), hol,
      ← h.total] at hsm
    omega

end Books

/-! ### Runs -/

section Runs

variable [Fintype ι] {setup : Setup} {key : String} {w w' : World ι Unit}

/-- **The invariant of a run.** -/
structure Balanced (setup : Setup) (key : String) (w : World ι Unit) : Prop where
  course : ∀ k, Course setup key (w.thread k)
  /-- A duty is the first thing that a call has to do. -/
  headed : ∀ k d b, due d b (w.thread k).tail = 0
  memory : KeyedMemory setup key w.shared
  booked : ∀ b, Booked w b
  reserved : w.shared.reserved key = ∑ k, held (w.thread k)
  counted : ∃ ids, Counted key w ids

theorem balanced_before (cs : ι → Call) (hky : ∀ i, (cs i).OneKey setup key) :
    Balanced setup key (before setup cs) := by
  have ho : ∀ d b, owed (before setup cs) d b = 0 := fun d b =>
    Finset.sum_eq_zero fun k _ => (held_due_program (cs k)).2 d b
  have hk : ∀ b, (before setup cs).shared.keeps b = 0 := fun _ => rfl
  have hl : ∀ b, (before setup cs).shared.lists b = 0 := fun _ => rfl
  refine ⟨fun k => course_program (cs k) (hky k), fun k d b => ?_, nofun, fun b => ?_, ?_, ∅, fun b _ => ?_, rfl⟩
  · exact due_tail d b ((held_due_program (cs k)).2 d b)
  · constructor <;> simp [ho, hk, hl]
  · exact (Finset.sum_eq_zero fun k _ => (held_due_program (cs k)).1).symm
  · exact ⟨hk b, fun d => ho d b⟩

variable [DecidableEq ι]

theorem Balanced.turn {c : ι × Env} (h : Balanced setup key w) (hP : Tidy key w c)
    (hs : proceedCall setup w c = some w') : Balanced setup key w' := by
  obtain ⟨i, e⟩ := c
  dsimp only [proceedCall] at hs
  obtain ⟨x, r, ht, rfl⟩ := step_call_eq_some hs
  have hx : x ∈ (w.thread i).head? := by simp [ht]
  have hk : x.Keyed setup key := (h.course i).keyed x (by simp [ht])
  have hrs : ∀ d b, due d b r = 0 := fun d b => by simpa [ht] using h.headed i d b
  have ha : Acts e w.shared x (exec setup () e w.shared x).1 (exec setup () e w.shared x).2.first :=
    exec_acts hk
  have hbk : ∀ b, StaysBooked w x
    (w.put i (exec setup () e w.shared x).1 ((exec setup () e w.shared x).2.todo r)) b :=
    fun b => (h.booked b).turn ha (fun dt hf => handedOn_put ht hrs hf b) (hP.removes x hx)
      (hP.makes x hx)
  have hh : held (x :: r) ≤ w.shared.reserved key := by
    rw [h.reserved, ← ht]
    exact Finset.single_le_sum (f := fun k => held (w.thread k)) (fun _ _ => zero_le _) (Finset.mem_univ i)
  have htm : ∀ reservedAt ∈ w.shared.counter.pendingReservations key, SandboxCounterData.valid e.nowMs reservedAt :=
    hP.inTime
  obtain ⟨hc, hr⟩ := (ht ▸ h.course i).turn (exec_booking hk h.memory htm) hh
  refine ⟨Threads.forall_put hc fun k _ => h.course k, ?_, h.memory.exec hk, fun b => (hbk b).booked, ?_, ?_⟩
  · obtain ⟨dt, hf⟩ := ha.starts
    exact Threads.forall_put (P := fun (_ : ι) (t : List (Instr Unit)) => ∀ d b, due d b t.tail = 0)
      (fun d b => due_tail_todo (hf.tail_eq d b) (hrs d b)) fun k _ => h.headed k
  · have hsm := w.sum_put i (exec setup () e w.shared x).1 ((exec setup () e w.shared x).2.todo r) held
    rw [ht] at hsm
    rw [h.reserved] at hr
    change (exec setup () e w.shared x).1.reserved key = _
    omega
  · obtain ⟨ids, hi⟩ := h.counted
    have hd : ∀ d b, x.duty? = some (d, b) → 0 < owed w d b := by
      intro d b hb
      have hp : 0 < due d b (w.thread i) := by
        rw [ht, due_cons, due_singleton, if_pos hb]
        omega
      exact lt_of_lt_of_le hp
        (Finset.single_le_sum (f := fun k => due d b (w.thread k)) (fun _ _ => zero_le _) (Finset.mem_univ i))
    exact ⟨_, hi.turn ha (fun dt hf b => handedOn_put ht hrs hf b) hd hbk
      (counted_exec hk fun b hb => hi.pos (h.booked b) (hd _ b hb))⟩

/-- **The books agree whenever no call is in progress**, in every run of any number of calls whose
steps are all tidy. -/
theorem books_agree_at_rest (setup : Setup) (key : String) (calls : ι → Call)
    (hkey : ∀ i, (calls i).OneKey setup key) {w : World ι Unit}
    (hrun : RunUnder (proceedCall setup) (Tidy key) (before setup calls) w) (hrest : AtRest setup calls w) :
    Agreed key w.shared := by
  have hbl : Balanced setup key w :=
    hrun.invariant (I := Balanced setup key) (balanced_before calls hkey) fun h hP hs => h.turn hP hs
  have hd : ∀ k, held (w.thread k) = 0 ∧ ∀ d b, due d b (w.thread k) = 0 := by
    intro k
    obtain hk | hk := hrest k
    · rw [hk]
      exact ⟨rfl, fun _ _ => rfl⟩
    · rw [hk]
      exact held_due_program (calls k)
  have ho : ∀ d b, owed w d b = 0 := fun d b => Finset.sum_eq_zero fun k _ => (hd k).2 d b
  refine ⟨?_, ?_, ?_⟩
  · obtain ⟨ids, hi⟩ := hbl.counted
    rw [← sum_keeps fun b hb => (hi.support b hb).1]
    refine hi.total.trans (Finset.sum_congr rfl fun b _ => ?_)
    rw [place, ho, ho]
    rfl
  · refine length_entriesWhere fun b => ?_
    simpa [ho] using (hbl.booked b).balance
  · have hr := hbl.reserved
    rw [Finset.sum_eq_zero fun k _ => (hd k).1] at hr
    exact eq_nil_of_length_eq_zero hr

end Runs

/-! ### A checkout, and the end of its session -/

/-- A checkout for a session, the end of the session, and another session that gets a backend. -/
def checkoutAndRelease : Fin 3 → Call
  | 0 => .checkoutBackend { backendId := "b0", sessionId := some "s0", sandboxKey := "null" } 0
  | 1 => .releaseSession "s0"
  | 2 => .ensureSessionBackend { backendId := "b2", sessionId := some "s2" } 1

/-- A call goes on, and the provider builds what it is asked for. -/
def goOn (i : Fin 3) : Fin 3 × Env := (i, { nowMs := 1, built := some ("i" ++ toString i.val) })

/-- The session ends when its backend is in memory and the checkout has not yet confirmed it. There
is no backend then, but an entry and a place that nobody gives back: the other session gets none. -/
theorem released_checkout_stays_booked : ∃ w : World (Fin 3) Unit,
      RunUnder (proceedCall onePlace) (InTime "null") (before onePlace checkoutAndRelease) w ∧
      (∀ k, w.thread k = []) ∧ countedBackends w.shared = 0 ∧ w.shared.counter.counts "null" = 1 ∧
      (w.shared.entriesWhere fun entry => entry.ownerProcessId = ()).length = 1 :=
  exists_run_of_exec _ _ _ _
    ([goOn 0, goOn 0] ++ replicate 4 (goOn 1) ++ [goOn 0, goOn 0] ++ replicate 8 (goOn 2)) (by decide)

/-- The session ends when its backend is confirmed and registered, and the other one gets the
place. -/
theorem books_agree_after_release : ∃ w : World (Fin 3) Unit,
      RunUnder (proceedCall onePlace) (Tidy "null") (before onePlace checkoutAndRelease) w ∧
      ((∀ k, w.thread k = []) ∧ w.shared.counter.counts "null" = 1) ∧ Agreed "null" w.shared := by
  obtain ⟨w, hr, hw⟩ := exists_run_of_exec (proceedCall onePlace) (Tidy "null") (before onePlace checkoutAndRelease)
    (fun w => (∀ k, w.thread k = []) ∧ w.shared.counter.counts "null" = 1)
    (replicate 4 (goOn 0) ++ replicate 4 (goOn 1) ++ replicate 6 (goOn 2)) (by decide)
  have hk : ∀ i, (checkoutAndRelease i).OneKey onePlace "null"
    | 0 => ⟨rfl, rfl⟩
    | 1 => trivial
    | 2 => fun _ => rfl
  exact ⟨w, hr, hw, books_agree_at_rest onePlace "null" checkoutAndRelease hk hr fun k => .inl (hw.1 k)⟩

end XiaoO.Backend.Processes
