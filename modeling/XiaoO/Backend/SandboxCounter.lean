import XiaoO.Base.Runs
import Mathlib.Data.List.Count
import Mathlib.Data.List.Infix

/-!
# The sandbox counter

The shared counter of `backend/sandbox_counter.rs`, which admits at most
`max_per_key` sandboxes per provider key over all processes of a host. Every
operation runs under a file lock, so an operation is one atomic step.

## The model

`SandboxCounterData` is the content of `sandbox_counts.json`. Its three maps are
total functions of the string key, with `0` and `[]` for a missing entry, which
is how every operation reads them. Each operation first loads the file, and
loading drops the reservations that have reached their time to live at the
clock reading `now` of that load; `check_and_reserve` reads the clock once more
for the reservation itself. I/O errors of the file are left out.

A `Fleet` is the counter together with the sandboxes of all processes. A sandbox
follows the protocol reserve, build, confirm or cancel, release, and the fleet
remembers of each build when it reserved and whether its reservation has ever
been seen to reach its time to live. The clock is arbitrary: it may stand still,
jump or run backwards.

## What is proved

A confirmation or cancellation pops the *last* reservation of the key, whoever
made it. When it pops one that is newer than its own, or pops one although its
own has been collected, the counter can later admit more than the limit
(`admission_exceeds_max`). In every run without such a pop, an admission leaves
at most `max` confirmed sandboxes and fresh builds (`admission_le_max`).
Whatever is popped, the counts and ghosts of a key are its confirmations less its
releases (`counter_accounts`).
-/

namespace XiaoO.Backend

open XiaoO.Base List Function Option

def pendingReservationTtlMs : ℕ := 300000

/-- `SandboxCounterData`: confirmed counts, the times of pending reservations in
order, and ghosts, per string key. -/
structure SandboxCounterData where
  counts : String → ℕ
  pendingReservations : String → List ℕ
  ghosts : String → ℕ

structure LimitExceeded where
  current : ℕ
  max : ℕ
  key : String
  deriving DecidableEq

variable (maxPerKey now : ℕ) (key : String) (data : SandboxCounterData)

namespace SandboxCounterData

/-- `SandboxCounterData::default()`. -/
def empty : SandboxCounterData := ⟨fun _ => 0, fun _ => [], fun _ => 0⟩

/-- A reservation made at `reservedAt` is valid at the clock reading `now`. -/
def valid (reservedAt : ℕ) : Bool := now - reservedAt < pendingReservationTtlMs

def gcStalePending : SandboxCounterData :=
  { data with pendingReservations := fun key => (data.pendingReservations key).filter (valid now) }

def popPending : SandboxCounterData :=
  { data with
    pendingReservations :=
      Function.update data.pendingReservations key (data.pendingReservations key).dropLast }

/-- `check_and_reserve`: the data it leaves in the file, and its result. -/
def checkAndReserve (reservedAt : ℕ) (key : String) (data : SandboxCounterData) :
    SandboxCounterData × Except LimitExceeded Unit :=
  let data := data.gcStalePending now
  let current := data.counts key
  let pending := (data.pendingReservations key).length
  if maxPerKey ≤ current + pending then (data, .error ⟨current + pending, maxPerKey, key⟩)
  else
    ({ data with
        pendingReservations :=
          Function.update data.pendingReservations key (data.pendingReservations key ++ [reservedAt]) },
      .ok ())

/-- What `confirm_creation` does to the confirmed sandboxes: one more count, or one
more ghost once the counts have reached the limit. -/
def countConfirmed : SandboxCounterData :=
  let current := data.counts key
  if current < maxPerKey then { data with counts := Function.update data.counts key (current + 1) }
  else { data with ghosts := Function.update data.ghosts key (data.ghosts key + 1) }

def confirmCreation : SandboxCounterData :=
  ((data.gcStalePending now).popPending key).countConfirmed maxPerKey key

def cancelReservation : SandboxCounterData :=
  (data.gcStalePending now).popPending key

/-- What `release` does to the confirmed sandboxes: it consumes a ghost before it
lowers a count. -/
def uncount : SandboxCounterData :=
  if 0 < data.ghosts key then { data with ghosts := Function.update data.ghosts key (data.ghosts key - 1) }
  else if 0 < data.counts key then
    { data with counts := Function.update data.counts key (data.counts key - 1) }
  else data

def release : SandboxCounterData :=
  (data.gcStalePending now).uncount key

/-- `get_total_count`: the data it leaves in the file, and its result. -/
def getTotalCount : SandboxCounterData × ℕ :=
  let data := data.gcStalePending now
  (data, data.counts key + (data.pendingReservations key).length)

end SandboxCounterData

open SandboxCounterData

/-! ### The fleet of sandboxes -/

/-- Where a sandbox is in the protocol. -/
inductive Phase where
  /-- Reserved at `reservedAt` and building; `expired` once an operation has read the
  clock when the reservation had reached its time to live. -/
  | building (reservedAt : ℕ) (expired : Bool)
  /-- Confirmed and not released. -/
  | live
  /-- Cancelled or released. -/
  | done
  deriving DecidableEq

structure Sandbox where
  key : String
  phase : Phase
  deriving DecidableEq

open Sandbox

/-- The counter and all sandboxes of all processes, in the order of their
reservations. -/
structure Fleet where
  data : SandboxCounterData
  sandboxes : List Sandbox

open Fleet

def Fleet.init : Fleet := ⟨.empty, []⟩

variable (p : ℕ → Bool) (n : ℕ) (s : Sandbox)

/-- What a clock reading says about a build. -/
def Sandbox.age : Sandbox :=
  match s.phase with
  | .building reservedAt expired => { s with phase := .building reservedAt (expired || !valid now reservedAt) }
  | _ => s

/-- The operations of the protocol, with the clock readings they take. The sandbox
is named by its position in the fleet. -/
inductive Op where
  /-- `check_and_reserve` for a new sandbox. -/
  | reserve (key : String) (now reservedAt : ℕ)
  /-- `confirm_creation` for a build. -/
  | confirm (i now : ℕ)
  /-- `cancel_reservation` for a build. -/
  | cancel (i now : ℕ)
  /-- `release` for a confirmed sandbox. -/
  | release (i now : ℕ)
  /-- `get_total_count`, which collects stale reservations as well. -/
  | total (key : String) (now : ℕ)

variable (f : Fleet)

/-- One atomic step of one process. -/
def Fleet.step : Op → Option Fleet
  | .reserve key now reservedAt =>
    match f.data.checkAndReserve maxPerKey now reservedAt key with
    | (data, .ok _) => some ⟨data, f.sandboxes.map (.age now) ++ [⟨key, .building reservedAt false⟩]⟩
    | (data, .error _) => some ⟨data, f.sandboxes.map (.age now)⟩
  | .confirm i now =>
    match f.sandboxes[i]? with
    | some ⟨key, .building _ _⟩ =>
      some ⟨f.data.confirmCreation maxPerKey now key, (f.sandboxes.map (.age now)).set i ⟨key, .live⟩⟩
    | _ => none
  | .cancel i now =>
    match f.sandboxes[i]? with
    | some ⟨key, .building _ _⟩ =>
      some ⟨f.data.cancelReservation now key, (f.sandboxes.map (.age now)).set i ⟨key, .done⟩⟩
    | _ => none
  | .release i now =>
    match f.sandboxes[i]? with
    | some ⟨key, .live⟩ =>
      some ⟨f.data.release now key, (f.sandboxes.map (.age now)).set i ⟨key, .done⟩⟩
    | _ => none
  | .total key now => some ⟨(f.data.getTotalCount now key).1, f.sandboxes.map (.age now)⟩

/-- A confirmed and not released sandbox of the key. -/
def Sandbox.isLive : Bool := s = ⟨key, .live⟩

/-- A build of the key whose reservation has not reached its time to live, and was
made at a time that satisfies `p`. -/
def Sandbox.isFresh : Bool :=
  match s.phase with
  | .building reservedAt expired => s.key = key && !expired && p reservedAt
  | _ => false

/-- The number of confirmed and not released sandboxes of the key. -/
def Fleet.live (key : String) : ℕ := f.sandboxes.countP (isLive key)

/-- The number of builds of the key whose own reservation has not yet reached its
time to live. -/
def Fleet.fresh (key : String) : ℕ := f.sandboxes.countP (isFresh key fun _ => true)

/-! ### Which pops are safe -/

/-- What loading the counter at the clock reading `now` does to the fleet. -/
def Fleet.collect : Fleet := ⟨f.data.gcStalePending now, f.sandboxes.map (.age now)⟩

/-- A confirmation or cancellation of the build `i` pops no reservation, or one that
is no newer than the build's own, which has not reached its time to live. -/
def PopsOwn (i now : ℕ) : Prop :=
  match (f.collect now).sandboxes[i]? with
  | some ⟨key, .building reservedAt expired⟩ =>
    match ((f.collect now).data.pendingReservations key).getLast? with
    | some popped => expired = false ∧ popped ≤ reservedAt
    | none => True
  | _ => True

/-- The condition on the steps of a run: every pop is safe. -/
def SafePops : Op → Prop
  | .confirm i now => PopsOwn f i now
  | .cancel i now => PopsOwn f i now
  | _ => True

instance (i now : ℕ) : Decidable (PopsOwn f i now) := by
  unfold PopsOwn
  split
  · split <;> infer_instance
  · infer_instance

instance : DecidableRel SafePops := fun f op =>
  match op with
  | .confirm i now => inferInstanceAs (Decidable (PopsOwn f i now))
  | .cancel i now => inferInstanceAs (Decidable (PopsOwn f i now))
  | .reserve .. | .release .. | .total .. => isTrue trivial

/-! ### The invariant -/

/-- A property of times that every later time inherits. -/
def Upward : Prop := ∀ a b, a ≤ b → p a → p b

/-- The counter accounts for every sandbox: confirmed ones in `counts` and `ghosts`,
and fresh builds by reservations that are as new as they are. -/
structure Inv : Prop where
  /-- Every confirmed sandbox is a count or a ghost. -/
  accounted : ∀ key, f.data.counts key + f.data.ghosts key = f.live key
  /-- There are ghosts only when the counts have reached the limit. -/
  ghosts_full : ∀ key, 0 < f.data.ghosts key → maxPerKey ≤ f.data.counts key
  /-- As many reservations as fresh builds, from every point in time on. -/
  reserved : ∀ key p, Upward p → f.sandboxes.countP (isFresh key p) ≤ (f.data.pendingReservations key).countP p

theorem inv_init (m : ℕ) : Inv m .init :=
  ⟨fun _ => rfl, by simp [init, SandboxCounterData.empty], fun _ _ _ => Nat.le_refl _⟩

theorem upward_valid : Upward (valid n) := by
  intro a b hab ha
  simp only [valid, decide_eq_true_eq] at ha ⊢
  omega

theorem isLive_age : (s.age n).isLive key = s.isLive key := by
  obtain ⟨k, ph⟩ := s
  cases ph <;> simp [age, isLive]

theorem isFresh_age : (s.age n).isFresh key p = s.isFresh key (fun t => p t && valid n t) := by
  obtain ⟨k, ph⟩ := s
  cases ph with
  | building t e => cases e <;> simp [age, isFresh, Bool.and_comm, Bool.and_left_comm]
  | live => rfl
  | done => rfl

variable {f : Fleet} {i reservedAt : ℕ} {ex : Bool} {key : String}

/-- Collecting stale reservations keeps the invariant: a build is fresh no longer than
a reservation as new as its own is valid. -/
theorem Inv.collect {m : ℕ} (h : Inv m f) (now : ℕ) : Inv m (f.collect now) where
  accounted key := by
    have hl : (f.collect now).live key = f.live key := by
      simp only [Fleet.live, Fleet.collect, countP_map]
      exact countP_congr fun s _ => by simp [isLive_age]
    rw [hl]
    exact h.accounted key
  ghosts_full := h.ghosts_full
  reserved key p hp := by
    have hb : Upward fun t => p t && valid now t := by
      intro a b hab ha
      simp only [Bool.and_eq_true] at ha ⊢
      exact ⟨hp a b hab ha.1, upward_valid now a b hab ha.2⟩
    have hf : (f.collect now).sandboxes.countP (isFresh key p) =
        f.sandboxes.countP (isFresh key fun t => p t && valid now t) := by
      simp only [Fleet.collect, countP_map]
      exact countP_congr fun s _ => by simp [isFresh_age]
    rw [hf]
    simp only [Fleet.collect, gcStalePending, countP_filter]
    exact h.reserved key _ hb

/-! ### Counts and ghosts -/

namespace SandboxCounterData

variable (m : ℕ) (k : String) (d : SandboxCounterData)

@[simp] theorem countConfirmed_pending : (d.countConfirmed m k).pendingReservations = d.pendingReservations := by
  simp only [countConfirmed]
  split_ifs <;> rfl

@[simp] theorem uncount_pending : (d.uncount k).pendingReservations = d.pendingReservations := by
  simp only [uncount]
  split_ifs <;> rfl

theorem countConfirmed_total (key' : String) :
    (d.countConfirmed m k).counts key' + (d.countConfirmed m k).ghosts key' =
      d.counts key' + d.ghosts key' + if k = key' then 1 else 0 := by
  simp only [countConfirmed]
  split_ifs with hlt hk hk
  · subst hk
    simp only [update_self]
    omega
  · simp only [update_of_ne (Ne.symm hk), Nat.add_zero]
  · subst hk
    simp only [update_self]
    omega
  · simp only [update_of_ne (Ne.symm hk), Nat.add_zero]

theorem uncount_total (key' : String) (hp : 0 < d.counts k + d.ghosts k) :
    (d.uncount k).counts key' + (d.uncount k).ghosts key' + (if k = key' then 1 else 0) =
      d.counts key' + d.ghosts key' := by
  simp only [uncount]
  by_cases hk : k = key'
  · subst hk
    rw [if_pos rfl]
    split_ifs <;> simp <;> omega
  · split_ifs <;> simp [update_of_ne (Ne.symm hk)]

theorem countConfirmed_full {key' : String} (h : 0 < d.ghosts key' → m ≤ d.counts key')
    (hp : 0 < (d.countConfirmed m k).ghosts key') : m ≤ (d.countConfirmed m k).counts key' := by
  simp only [countConfirmed] at hp ⊢
  split_ifs at hp ⊢ with hlt
  · have := h hp
    by_cases hk : key' = k
    · subst hk
      exact absurd hlt (by omega)
    · simpa only [update_of_ne hk] using this
  · by_cases hk : key' = k
    · subst hk
      exact not_lt.mp hlt
    · exact h (by simpa only [update_of_ne hk] using hp)

theorem uncount_full {key' : String} (h : 0 < d.ghosts key' → m ≤ d.counts key')
    (hp : 0 < (d.uncount k).ghosts key') : m ≤ (d.uncount k).counts key' := by
  simp only [uncount] at hp ⊢
  split_ifs at hp ⊢ with hg hc
  · by_cases hk : key' = k
    · subst hk
      exact h hg
    · exact h (by simpa only [update_of_ne hk] using hp)
  · by_cases hk : key' = k
    · subst hk
      exact absurd hp hg
    · simpa only [update_of_ne hk] using h hp
  · exact h hp

end SandboxCounterData

/-! ### Every operation keeps the invariant -/

variable {maxPerKey : ℕ} {g : Fleet}

theorem countP_set_add {α : Type*} {l : List α} {x : α} (y : α) (q : α → Bool) (hx : l[i]? = some x) :
    (l.set i y).countP q + (if q x then 1 else 0) = l.countP q + (if q y then 1 else 0) := by
  obtain ⟨hlt, rfl⟩ := List.getElem?_eq_some_iff.mp hx
  split_ifs with hq <;> grind

/-- The live sandboxes after sandbox `i` has changed its phase. -/
theorem countP_isLive_set {b : Phase} (hi : g.sandboxes[i]? = some ⟨key, b⟩) (a : Phase) (k' : String) :
    (g.sandboxes.set i ⟨key, a⟩).countP (isLive k') + (if key = k' ∧ b = .live then 1 else 0) =
      g.live k' + (if key = k' ∧ a = .live then 1 else 0) := by
  have hs := countP_set_add (⟨key, a⟩ : Sandbox) (isLive k') hi
  simpa [isLive, live] using hs

section

variable (h : Inv maxPerKey g)
include h

section

variable (hi : g.sandboxes[i]? = some ⟨key, .building reservedAt ex⟩)
  (hpp : ∀ pp ∈ (g.data.pendingReservations key).getLast?, ex = false ∧ pp ≤ reservedAt)
include hi hpp

/-- After a safe pop, the fresh builds other than the one that popped are still
accounted for. -/
theorem Inv.pop {next : Phase} (hn : ∀ t e, next ≠ .building t e) (k' : String) (p : ℕ → Bool)
    (hp : Upward p) : (g.sandboxes.set i ⟨key, next⟩).countP (isFresh k' p) ≤
      ((g.data.popPending key).pendingReservations k').countP p := by
  have hs := countP_set_add (⟨key, next⟩ : Sandbox) (isFresh k' p) hi
  have hg : isFresh k' p ⟨key, next⟩ = false := by
    cases next with
    | building t e => exact absurd rfl (hn t e)
    | live => rfl
    | done => rfl
  have hle := h.reserved k' p hp
  simp only [hg, Bool.false_eq_true, if_false] at hs
  by_cases hk : k' = key
  · subst hk
    simp only [popPending, update_self]
    cases hl : (g.data.pendingReservations k').getLast? with
    | none =>
      rw [getLast?_eq_none_iff.mp hl] at hle ⊢
      simp only [dropLast_nil]
      omega
    | some pp =>
      obtain ⟨rfl, ho⟩ := hpp pp hl
      obtain ⟨r, hr⟩ := getLast?_eq_some_iff.mp hl
      rw [hr] at hle ⊢
      rw [dropLast_concat]
      rw [countP_append, countP_singleton] at hle
      -- If the popped reservation counts, so does the build that popped it.
      cases hc : p pp with
      | true => simp [isFresh, hp _ _ ho hc, hc] at hs hle; omega
      | false => simp [hc] at hle; omega
  · simp only [popPending, update_of_ne hk]
    omega

theorem Inv.confirm : Inv maxPerKey
      ⟨(g.data.popPending key).countConfirmed maxPerKey key, g.sandboxes.set i ⟨key, .live⟩⟩ where
  accounted key' := by
    have hl := countP_isLive_set hi .live key'
    have ha : (g.data.popPending key).counts key' + (g.data.popPending key).ghosts key' = g.live key' :=
      h.accounted key'
    simp only [reduceCtorEq, and_false, and_true, if_false, Nat.add_zero] at hl
    rw [countConfirmed_total, live, hl, ha]
  ghosts_full key' := countConfirmed_full _ _ _ (h.ghosts_full key')
  reserved key' p hp := by
    rw [countConfirmed_pending]
    exact h.pop hi hpp (by simp) key' p hp

theorem Inv.cancel : Inv maxPerKey ⟨g.data.popPending key, g.sandboxes.set i ⟨key, .done⟩⟩ where
  accounted key' := by
    have hl := countP_isLive_set hi .done key'
    simp only [reduceCtorEq, and_false, if_false, Nat.add_zero] at hl
    rw [live, hl]
    exact h.accounted key'
  ghosts_full := h.ghosts_full
  reserved key' p hp := h.pop hi hpp (by simp) key' p hp

end

theorem Inv.release (hi : g.sandboxes[i]? = some ⟨key, .live⟩) :
    Inv maxPerKey ⟨g.data.uncount key, g.sandboxes.set i ⟨key, .done⟩⟩ where
  accounted key' := by
    have hl := countP_isLive_set hi .done key'
    have ha := h.accounted key'
    have hps : 0 < g.data.counts key + g.data.ghosts key := by
      rw [h.accounted key]
      exact countP_pos_iff.mpr ⟨_, mem_of_getElem? hi, by simp [isLive]⟩
    have ht := g.data.uncount_total key key' hps
    simp only [reduceCtorEq, and_false, and_true, if_false] at hl
    dsimp only [live]
    omega
  ghosts_full key' := uncount_full _ _ _ (h.ghosts_full key')
  reserved key' p hp := by
    have hs := countP_set_add (⟨key, .done⟩ : Sandbox) (isFresh key' p) hi
    simp only [isFresh, Bool.false_eq_true, if_false, Nat.add_zero] at hs
    rw [uncount_pending, hs]
    exact h.reserved key' p hp

def Fleet.enter (g : Fleet) (key : String) (reservedAt : ℕ) : Fleet where
  data := { g.data with
    pendingReservations :=
      Function.update g.data.pendingReservations key (g.data.pendingReservations key ++ [reservedAt]) }
  sandboxes := g.sandboxes ++ [⟨key, .building reservedAt false⟩]

/-- A reservation keeps the invariant: the build and its reservation have one time. -/
theorem Inv.enter (key : String) (reservedAt : ℕ) : Inv maxPerKey (g.enter key reservedAt) where
  accounted key' := by
    have hl : (g.enter key reservedAt).live key' = g.live key' := by
      simp [Fleet.live, Fleet.enter, isLive]
    rw [hl]
    exact h.accounted key'
  ghosts_full := h.ghosts_full
  reserved key' p hp := by
    have hle := h.reserved key' p hp
    simp only [Fleet.enter, countP_append, countP_singleton]
    by_cases hk : key' = key
    · subst hk
      simp only [update_self, countP_append, countP_singleton]
      simp only [isFresh, decide_true, Bool.not_false, Bool.and_self, Bool.true_and]
      omega
    · have ho : (⟨key, .building reservedAt false⟩ : Sandbox).isFresh key' p = false := by
        simp [isFresh, Ne.symm hk]
      rw [update_of_ne hk, ho]
      simpa using hle

end

/-! ### Runs -/

/-- A reservation is an admission, or collects only. -/
theorem step_reserve (maxPerKey : ℕ) (f : Fleet) (key : String) (n reservedAt : ℕ) :
    f.step maxPerKey (.reserve key n reservedAt) =
      if maxPerKey ≤ (f.collect n).data.counts key + ((f.collect n).data.pendingReservations key).length
      then some (f.collect n) else some ((f.collect n).enter key reservedAt) := by
  by_cases hle : maxPerKey ≤ (f.data.gcStalePending n).counts key +
      ((f.data.gcStalePending n).pendingReservations key).length
  · simp [step, checkAndReserve, collect, hle]
  · simp [step, checkAndReserve, collect, hle, enter]

/-- A reservation succeeds below the limit only. -/
theorem checkAndReserve_ok_iff (maxPerKey : ℕ) (f : Fleet) (key : String) (n reservedAt : ℕ) :
    (f.data.checkAndReserve maxPerKey n reservedAt key).2 = .ok () ↔
      (f.collect n).data.counts key + ((f.collect n).data.pendingReservations key).length < maxPerKey := by
  simp only [checkAndReserve, collect]
  split_ifs with hle
  · simpa using hle
  · simpa using hle

/-- Loading the counter does not change what sandbox `i` is, up to its age. -/
theorem collect_getElem? (hi : f.sandboxes[i]? = some ⟨key, .building reservedAt ex⟩) :
    (f.collect n).sandboxes[i]? = some ⟨key, .building reservedAt (ex || !valid n reservedAt)⟩ := by
  simp [collect, hi, age]

/-- A safe pop, seen after the load. -/
theorem PopsOwn.spec {n : ℕ} (h : PopsOwn f i n)
    (hi : (f.collect n).sandboxes[i]? = some ⟨key, .building reservedAt ex⟩) :
    ∀ p ∈ ((f.collect n).data.pendingReservations key).getLast?, ex = false ∧ p ≤ reservedAt := by
  intro p hp
  simpa only [PopsOwn, hi, mem_def.mp hp] using h

/-- **A step keeps the invariant** when its pop is safe. -/
theorem inv_step {f' : Fleet} {op : Op} (h : Inv maxPerKey f) (hsf : SafePops f op)
    (hs : f.step maxPerKey op = some f') : Inv maxPerKey f' := by
  cases op with
  | reserve key n reservedAt =>
    rw [step_reserve] at hs
    split_ifs at hs <;> obtain rfl := some.inj hs
    · exact h.collect n
    · exact (h.collect n).enter key reservedAt
  | confirm i n =>
    simp only [step] at hs
    split at hs <;> try contradiction
    next key reservedAt ex hi =>
      obtain rfl := some.inj hs
      have hi' := collect_getElem? n hi
      exact (h.collect n).confirm hi' (PopsOwn.spec hsf hi')
  | cancel i n =>
    simp only [step] at hs
    split at hs <;> try contradiction
    next key reservedAt ex hi =>
      obtain rfl := some.inj hs
      have hi' := collect_getElem? n hi
      exact (h.collect n).cancel hi' (PopsOwn.spec hsf hi')
  | release i n =>
    simp only [step] at hs
    split at hs <;> try contradiction
    next key hi =>
      obtain rfl := some.inj hs
      have hi' : (f.collect n).sandboxes[i]? = some ⟨key, .live⟩ := by simp [collect, hi, age]
      exact (h.collect n).release hi'
  | total key n =>
    obtain rfl := some.inj hs
    exact h.collect n

/-- The invariant in every state that a run with safe pops reaches. -/
theorem inv_of_run (h : RunUnder (step maxPerKey) SafePops .init f) : Inv maxPerKey f :=
  h.invariant (inv_init maxPerKey) inv_step

/-- **Admission safety**: in a run whose confirmations and cancellations pop no
reservation newer than their own, whenever `check_and_reserve` succeeds the
confirmed sandboxes and the fresh builds of its key are at most `max_per_key`. -/
theorem admission_le_max {f f' : Fleet} {key : String} {now reservedAt : ℕ}
    (hrun : RunUnder (step maxPerKey) SafePops .init f)
    (hstep : f.step maxPerKey (.reserve key now reservedAt) = some f')
    (hok : (f.data.checkAndReserve maxPerKey now reservedAt key).2 = .ok ()) :
    f'.live key + f'.fresh key ≤ maxPerKey := by
  have hlt := (checkAndReserve_ok_iff ..).mp hok
  rw [step_reserve, if_neg (by omega)] at hstep
  obtain rfl := some.inj hstep
  have hi := ((inv_of_run hrun).collect now).enter key reservedAt
  set g := f.collect now
  -- Below the limit there are no ghosts, so the counts are the confirmed sandboxes.
  have hg : g.data.ghosts key = 0 := by
    by_contra hne
    have := hi.ghosts_full key (Nat.pos_of_ne_zero hne)
    have hc : (g.enter key reservedAt).data.counts key = g.data.counts key := rfl
    omega
  have hl : g.data.counts key + g.data.ghosts key = (g.enter key reservedAt).live key := hi.accounted key
  have hf : (g.enter key reservedAt).fresh key ≤ (g.data.pendingReservations key).length + 1 := by
    have := hi.reserved key (fun _ => true) (fun _ _ _ _ => rfl)
    simpa [enter, fresh] using this
  omega

/-- Two builds reserve and confirm in time, the newer one first; a third is turned
away, and admitted after a release. -/
theorem admission_le_max_in_time :
    ∃ f f' : Fleet, f.step 2 (.reserve "k" 5 5) = some f' ∧ f'.live "k" + f'.fresh "k" ≤ 2 := by
  obtain ⟨f, hr, f', hs, hok⟩ := exists_run_of_exec (step 2) SafePops .init
    (fun f => ∃ f' ∈ f.step 2 (.reserve "k" 5 5), (f.data.checkAndReserve 2 5 5 "k").2 = .ok ())
    [.reserve "k" 0 0, .reserve "k" 1 1, .confirm 1 2, .confirm 0 3, .reserve "k" 4 4, .release 0 4]
    (by decide)
  exact ⟨f, f', hs, admission_le_max hr hs hok⟩

/-- **A late confirmation pops another build's reservation**: with a limit of two, the
first build confirms when its reservation has been collected, pops the one of the
second build, and a third build is admitted as a third sandbox. -/
theorem admission_exceeds_max : ∃ f : Fleet, RunUnder (step 2) Always .init f ∧
      (f.data.checkAndReserve 2 300000 300000 "k").2 = .ok () ∧
      ∃ f' ∈ f.step 2 (.reserve "k" 300000 300000), f'.live "k" + f'.fresh "k" = 3 :=
  exists_run_of_exec _ _ _ _ [.reserve "k" 0 0, .reserve "k" 300000 300000, .confirm 0 300000] (by decide)

/-! ### The accounts of any sequence of calls -/

/-- The four operations; a reservation is made at a clock reading of its own. -/
inductive CounterOp where
  | checkAndReserve (reservedAt : ℕ)
  | confirmCreation
  | cancelReservation
  | release
  deriving DecidableEq

/-- A call of an operation, with its key and the clock reading of its load. -/
structure CounterCall where
  op : CounterOp
  of : String
  now : ℕ

open CounterCall

/-- What a call leaves in the file. -/
def CounterCall.run (maxPerKey : ℕ) (data : SandboxCounterData) : CounterCall → SandboxCounterData
  | ⟨.checkAndReserve reservedAt, key, now⟩ => (data.checkAndReserve maxPerKey now reservedAt key).1
  | ⟨.confirmCreation, key, now⟩ => data.confirmCreation maxPerKey now key
  | ⟨.cancelReservation, key, now⟩ => data.cancelReservation now key
  | ⟨.release, key, now⟩ => data.release now key

def afterCalls (maxPerKey : ℕ) (calls : List CounterCall) : SandboxCounterData :=
  calls.foldl (run maxPerKey) .empty

def callsOf (op : CounterOp) (key : String) (calls : List CounterCall) : ℕ :=
  calls.countP fun call => call.op = op ∧ call.of = key

/-- A call leaves the counts and ghosts of every other key, and of its reservations those that are
valid. -/
theorem run_other_key (maxPerKey : ℕ) (d : SandboxCounterData) {c : CounterCall} (h : key ≠ c.of) :
    (c.run maxPerKey d).counts key = d.counts key ∧ (c.run maxPerKey d).ghosts key = d.ghosts key ∧
      (c.run maxPerKey d).pendingReservations key = (d.pendingReservations key).filter (valid c.now) := by
  obtain ⟨op, k, now⟩ := c
  cases op with
  | checkAndReserve =>
    simp only [run, checkAndReserve]
    split_ifs <;> simp_all [gcStalePending]
  | confirmCreation =>
    simp only [run, confirmCreation, countConfirmed]
    split_ifs <;> simp_all [gcStalePending, popPending]
  | cancelReservation => simp_all [run, cancelReservation, gcStalePending, popPending]
  | release =>
    simp only [run, SandboxCounterData.release, uncount]
    split_ifs <;> simp_all [gcStalePending]

/-- The accounts of a key: what its calls have confirmed and not released is counted, as ghosts from
the limit on. -/
structure Accounted (maxPerKey : ℕ) (key : String) (calls : List CounterCall)
    (data : SandboxCounterData) : Prop where
  total : data.counts key + data.ghosts key + callsOf .release key calls = callsOf .confirmCreation key calls
  le_max : data.counts key ≤ maxPerKey
  full : 0 < data.ghosts key → data.counts key = maxPerKey

/-- One more call on the key keeps its accounts. -/
theorem Accounted.run {d : SandboxCounterData} {cs : List CounterCall} (h : Accounted maxPerKey key cs d)
    (c : CounterCall) (hle : callsOf .release key (cs ++ [c]) ≤ callsOf .confirmCreation key (cs ++ [c])) :
    Accounted maxPerKey key (cs ++ [c]) (c.run maxPerKey d) := by
  obtain ⟨ht, hm, hf⟩ := h
  by_cases hk : key = c.of
  · obtain ⟨op, k, n⟩ := c
    obtain rfl : key = k := hk
    cases op with
    | checkAndReserve =>
      simp only [CounterCall.run, checkAndReserve]
      constructor <;> split_ifs <;> simp_all [gcStalePending, callsOf]
    | confirmCreation =>
      simp only [CounterCall.run, confirmCreation, countConfirmed]
      constructor <;> split_ifs <;> simp_all [gcStalePending, popPending, callsOf] <;> omega
    | cancelReservation =>
      constructor <;> simp_all [CounterCall.run, cancelReservation, gcStalePending, popPending, callsOf]
    | release =>
      simp only [CounterCall.run, SandboxCounterData.release, uncount]
      constructor <;> split_ifs <;> simp_all [gcStalePending, callsOf] <;> omega
  · obtain ⟨hc, hg, -⟩ := run_other_key maxPerKey d hk
    constructor <;> simp_all [callsOf, Ne.symm hk]

/-- **Counter accounting**: after any calls without a release too many, the counts and ghosts of a
key are its confirmations less its releases, and the counts are within the limit and reach it before
there are ghosts. A call on another key takes only those of the key's reservations that have reached
their time to live. -/
theorem counter_accounts (maxPerKey : ℕ) (calls : List CounterCall) (key : String)
    (h : ∀ before, before <+: calls → callsOf .release key before ≤ callsOf .confirmCreation key before) :
    (afterCalls maxPerKey calls).counts key + (afterCalls maxPerKey calls).ghosts key =
        callsOf .confirmCreation key calls - callsOf .release key calls ∧
      (afterCalls maxPerKey calls).counts key ≤ maxPerKey ∧
      (0 < (afterCalls maxPerKey calls).ghosts key → (afterCalls maxPerKey calls).counts key = maxPerKey) ∧
      ∀ call : CounterCall, key ≠ call.of →
        (afterCalls maxPerKey (calls ++ [call])).counts key = (afterCalls maxPerKey calls).counts key ∧
        (afterCalls maxPerKey (calls ++ [call])).ghosts key = (afterCalls maxPerKey calls).ghosts key ∧
        (afterCalls maxPerKey (calls ++ [call])).pendingReservations key =
          ((afterCalls maxPerKey calls).pendingReservations key).filter (valid call.now) := by
  have hs : ∀ calls call, afterCalls maxPerKey (calls ++ [call]) = call.run maxPerKey (afterCalls maxPerKey calls) :=
    fun calls call => foldl_append
  have ha : Accounted maxPerKey key calls (afterCalls maxPerKey calls) := by
    induction calls using reverseRecOn with
    | nil => exact ⟨rfl, Nat.zero_le _, by simp [afterCalls, SandboxCounterData.empty]⟩
    | append_singleton calls call ih =>
      rw [hs]
      exact (ih fun before hb => h before (hb.trans (prefix_append ..))).run call (h _ (prefix_refl _))
  have ht := ha.total
  exact ⟨by omega, ha.le_max, ha.full, fun call hk => hs calls call ▸ run_other_key maxPerKey _ hk⟩

/-- A second sandbox is confirmed over a limit of one, and the first is released. -/
theorem counter_accounts_over_limit :
    (afterCalls 1 [⟨.confirmCreation, "k", 0⟩, ⟨.confirmCreation, "k", 0⟩, ⟨.release, "k", 0⟩]).counts "k" ≤ 1 :=
  (counter_accounts 1 _ "k" (by
    intro b hb
    rw [← mem_inits] at hb
    revert b
    decide)).2.1

/-- **A call on one key collects the reservations of the others**: a reservation of one key is gone
after a cancellation on another one five minutes later. -/
theorem cancel_collects_other_key : (afterCalls 1 [⟨.checkAndReserve 0, "a", 0⟩]).pendingReservations "a" = [0] ∧
      (afterCalls 1 [⟨.checkAndReserve 0, "a", 0⟩,
        ⟨.cancelReservation, "b", 300000⟩]).pendingReservations "a" = [] := by
  decide

end XiaoO.Backend
