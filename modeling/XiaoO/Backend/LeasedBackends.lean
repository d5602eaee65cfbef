import XiaoO.Backend.RegistryEntries
import XiaoO.Backend.SandboxRelease

/-!
# A backend under a turn

Before a turn of a session, `ensure_session_backend` gives the caller a lease on the
backend of the session and writes to the registry that the session is running. When the
pool is full, `try_evict_if_needed` and `check_and_evict_marked_backends` look there for
backends whose sessions are all idle, and then remove one from memory. The decision and
the removal are two steps, and the removal does not look again.

## The model

The machine of `Processes`, with a record of the leases beside it (`Leases`): those that a
call is about to return, those that were returned and whose session has not been set back
to idle since, and those whose backend was evicted all the same. The record only watches
(`map_world_watch`).

## What is proved

A session takes its backend for a turn after another call has found it idle and before
that call removes it: the backend is evicted under the turn
(`leased_backend_is_evicted`). In every run, of any number of processes and calls, in which

* a backend is evicted only while the registry has it with all its sessions idle,
* no session is set back to idle between the write of `ensure_session_backend` and its
  return,

no leased backend is evicted (`no_lease_broken`). The owners' heartbeats are fresh and new
backends have new ids.
-/

namespace XiaoO.Backend.Processes

open XiaoO.Base List SortedMap Option

variable {ι π : Type}

/-! ### Leases -/

/-- The lease that a request with the initial status `running` is for. -/
def NewBackend.lease? (request : NewBackend) (backendId : String) : Option Lease :=
  if request.initialStatus.any (·.status = "running") then request.sessionId.map (⟨backendId, ·⟩) else none

variable (state : BackendManagerState)

/-- The lease that `ensure_session_backend` will return, when an instruction has decided it. -/
def Instr.promises? (env : Env) : Instr π → Option Lease
  | .leaseBound request => (boundBackend? state request).bind request.lease?
  | .create request =>
    if isBound state request then (boundBackend? state request).bind request.lease?
    else env.built.bind fun _ => request.lease? request.backendId
  | _ => none

/-- The end of `ensure_session_backend`. A new backend that is not counted is returned at once. -/
def Instr.returns : Instr π → Bool
  | .unlock => true
  | .create request => !isBound state request && !isCountedKind request.config.kind
  | _ => false

def Instr.evicts? : Instr π → Option String
  | .evictOwn backendId _ _ _ | .evictMarkedOwn backendId _ =>
    if (state.backends.get? backendId).isSome then some backendId else none
  | .reclaim entry => some entry.backendId
  | _ => none

structure Leases (ι : Type) where
  /-- What the calls are about to return. -/
  promised : ι → Option Lease := fun _ => none
  /-- Returned, and the session was not set to idle since. -/
  returned : List Lease := []
  /-- Returned, and then the backend was evicted. -/
  broken : List Lease := []

section Watch

variable [DecidableEq ι]

/-- An instruction of the call `i` is carried out. -/
def Leases.record (leases : Leases ι) (i : ι) (state : BackendManagerState) (env : Env) (x : Instr π) : Leases ι :=
  let lease? := (leases.promised i).or (x.promises? state env)
  { promised := Function.update leases.promised i (if x.returns state then none else lease?)
    returned := (if x.returns state then lease?.toList else []) ++ leases.returned.filter (!x.idles ·)
    broken := leases.returned.filter (some ·.backendId = x.evicts? state) ++ leases.broken }

/-- A world, with the leases of the run so far. -/
structure Watched (ι π : Type) where
  world : World ι π
  leases : Leases ι := {}

def Watched.leasesAfter (process : ι → π) (w : Watched ι π) : Label ι π → Leases ι
  | .call i env =>
    match w.world.thread i with
    | [] => w.leases
    | x :: _ => w.leases.record i (w.world.shared.memory (process i)) env x
  | .die _ => w.leases

variable [DecidableEq π]

/-- A step of the machine, with the record of the leases. -/
def watch (setup : Setup) (process : ι → π) (w : Watched ι π) (l : Label ι π) : Option (Watched ι π) :=
  (step setup process w.world l).map fun world => ⟨world, w.leasesAfter process l⟩

/-- The record only watches. -/
theorem map_world_watch (su : Setup) (pr : ι → π) (w : Watched ι π) (l : Label ι π) :
    (watch su pr w l).map (·.world) = step su pr w.world l := by
  simp [watch, Function.comp_def]

end Watch

/-! ### Conditions -/

/-- The call that goes on, with its environment. -/
def Label.call? : Label ι π → Option (ι × Env)
  | .call i env => some (i, env)
  | .die _ => none

/-- What is assumed: new ids, and owners with fresh heartbeats. -/
@[mk_iff] structure Assumed (w : Watched ι π) (l : Label ι π) : Prop where
  fresh : Fresh w.world l
  heartbeats : ∀ c ∈ l.call?, ∀ x ∈ (w.world.thread c.1).head?, ∀ entry ∈ x.judges?, ¬ entry.isOwnerStale c.2.nowMs

/-- The condition on the steps of a run. -/
@[mk_iff] structure Careful (process : ι → π) (w : Watched ι π) (l : Label ι π) : Prop extends Assumed w l where
  /-- When a backend is evicted, the registry still has it as idle. -/
  rechecked : ∀ i ∈ l.caller?, ∀ x ∈ (w.world.thread i).head?, ∀ b ∈ x.evicts? (w.world.shared.memory (process i)),
    (w.world.shared.registry.get? b).any (·.isAllSessionsIdle)
  /-- No session is set to idle when its lease is about to be returned. -/
  undisturbed : ∀ i ∈ l.caller?, ∀ x ∈ (w.world.thread i).head?, ∀ k, ∀ lease ∈ w.leases.promised k,
    ∀ y ∈ (w.world.thread k).head?, y.returns (w.world.shared.memory (process k)) → ¬ x.idles lease

section Decidable

variable [Fintype ι] [Fintype π] [DecidableEq π]

instance : DecidableRel (Assumed : Watched ι π → Label ι π → Prop) := fun _ _ =>
    decidable_of_iff _ (assumed_iff ..).symm

instance (process : ι → π) : DecidableRel (Careful process) := fun _ _ => decidable_of_iff _ (careful_iff ..).symm

end Decidable

/-! ### Calls that are about to return a lease -/

/-- What a call that has decided on a lease is still to do: to write to the registry that the
session is busy, and to return. Its process may have died. -/
inductive Underway (lease : Lease) (s : Shared π) : List (Instr π) → Prop where
  | gone : Underway lease s []
  | reasserting (snapshot : SessionStatusSnapshot) (rest : List (Instr π)) (hbusy : snapshot ≠ ⟨"idle", 0⟩) :
      Underway lease s
        (.updateSessionStatus lease.backendId lease.sessionId snapshot.status snapshot.queueDepth :: .unlock :: rest)
  | confirming (request : NewBackend) (instanceId : String) (rest : List (Instr π))
      (hid : request.backendId = lease.backendId) (hbusy : Busy lease.sessionId request.sessionStatuses) :
      Underway lease s (.confirm request instanceId :: .unlock :: rest)
  | registering (entry : BackendRegistryEntry π) (rest : List (Instr π)) (hid : entry.backendId = lease.backendId)
      (hbusy : Busy lease.sessionId entry.sessionStatuses) : Underway lease s (.register entry :: .unlock :: rest)
  | returning (rest : List (Instr π)) (hactive : Active lease s) : Underway lease s (.unlock :: rest)

/-- A lease is returned by an instruction, or the call is still underway. -/
def Decided (lease : Lease) (s : Shared π) (todo : List (Instr π)) (returns : Bool) : Prop :=
  if returns then Active lease s else Underway lease s todo

section Decide

variable {st : Setup} {p : π} {env : Env} {s : Shared π} {x : Instr π} {rs : List (Instr π)}
  {ls : Lease} {r : NewBackend} {b : String}

theorem Underway.others {s' : Shared π} {todo : List (Instr π)} (h : Underway ls s todo)
    (ha : ∀ rs, todo = .unlock :: rs → Active ls s → Active ls s') : Underway ls s' todo := by
  cases h with
  | gone => exact .gone
  | reasserting sn rs hb => exact .reasserting sn rs hb
  | confirming r i rs hid hb => exact .confirming r i rs hid hb
  | registering e rs hid hb => exact .registering e rs hid hb
  | returning rs h => exact .returning rs (ha rs rfl h)

theorem NewBackend.lease?_eq_some (h : r.lease? b = some ls) : ∃ i, r.initialStatus = some i ∧ i ≠ ⟨"idle", 0⟩ ∧
      r.sessionId = some ls.sessionId ∧ b = ls.backendId := by
  rw [NewBackend.lease?] at h
  split_ifs at h with hr
  obtain ⟨sessionId, hs, rfl⟩ := map_eq_some_iff.mp h
  obtain ⟨i, hi, hst⟩ := (any_eq_true _ _).mp hr
  refine ⟨i, hi, ?_, hs, rfl⟩
  rintro rfl
  simp at hst

theorem boundBackend?_eq_some {sta : BackendManagerState} (h : boundBackend? sta r = some b) :
    r.sessionId.bind sta.sessionIndex.get? = some b ∧ kindIn sta b = some r.config.kind := by
  obtain ⟨hs, he⟩ := filter_eq_some_iff.mp h
  obtain ⟨e, he, hsm⟩ := (any_eq_true _ _).mp he
  refine ⟨hs, ?_⟩
  simp [kindIn, he, (of_decide_eq_true hsm).2]

/-- A session that has its backend. -/
theorem underway_reassert (h : r.lease? b = some ls) (ha : ¬ isCountedKind r.config.kind → Active ls s) :
    Underway ls s (reassert r b) := by
  obtain ⟨i, hi, hb, hs, rfl⟩ := NewBackend.lease?_eq_some h
  simp only [reassert, hs, hi]
  split_ifs with hk
  · exact .reasserting i [] hb
  · exact .returning [] (ha hk)

theorem busy_sessionStatuses (h : r.lease? b = some ls) : Busy ls.sessionId r.sessionStatuses := by
  obtain ⟨i, hi, hb, hs, -⟩ := NewBackend.lease?_eq_some h
  refine ⟨i, ?_, hb⟩
  simp [NewBackend.sessionStatuses, BackendRegistryEntry.new, hs, hi, get?_insert]

/-- A session that has its backend: what is decided about it in the state `t`. -/
theorem decided_bound (h : (boundBackend? (s.memory p) r).bind r.lease? = some ls) {t : Shared π}
    (hm : t.memory = s.memory) :
    ∃ b, boundBackend? (s.memory p) r = some b ∧ (t.memory p).sessionIndex.get? ls.sessionId = some ls.backendId ∧
      ∃ k, kindIn (t.memory p) ls.backendId = some k ∧
        ((¬ isCountedKind k → Active ls t) → Underway ls t (reassert r b)) := by
  obtain ⟨b, hb, hl⟩ := bind_eq_some_iff.mp h
  obtain ⟨i, -, -, hs, rfl⟩ := NewBackend.lease?_eq_some hl
  obtain ⟨hi, hk⟩ := boundBackend?_eq_some hb
  refine ⟨_, hb, ?_, r.config.kind, ?_, underway_reassert hl⟩
  · rw [hm]
    simpa [hs] using hi
  · rw [hm]
    exact hk

variable [DecidableEq π]

theorem Underway.exec (h : Underway ls s (x :: rs)) :
    Decided ls (exec st p env s x).1 ((exec st p env s x).2.todo rs) (x.returns (s.memory p)) := by
  cases h with
  | reasserting sn rs hb =>
    refine .returning rs fun e he => ?_
    simp only [Processes.exec, get?_modify, if_true] at he
    obtain ⟨o, -, rfl⟩ := map_eq_some_iff.mp he
    exact ⟨sn, by simp [BackendRegistryEntry.updateSessionStatus, get?_insert], hb⟩
  | confirming r i rs hid hb => exact .registering _ rs hid hb
  | registering e rs hid hb =>
    refine .returning rs fun e' he => ?_
    simp only [Processes.exec, get?_insert, if_pos hid.symm, some.injEq] at he
    exact he ▸ hb
  | returning rs ha => exact ha

theorem insertBackend_lease (h : r.lease? r.backendId = some ls) (i : String) :
    (((s.insertBackend p r i).memory p).sessionIndex.get? ls.sessionId = some ls.backendId) ∧
      kindIn ((s.insertBackend p r i).memory p) ls.backendId = some r.config.kind := by
  obtain ⟨it, -, -, hs, hid⟩ := NewBackend.lease?_eq_some h
  constructor
  · simp [Shared.insertBackend, Shared.remember, BackendManagerState.bind, hs, get?_insert, hid]
  · simp [kindIn, Shared.insertBackend, Shared.remember, BackendManagerState.bind, get?_insert, hid]

/-- **A lease is decided on**: the session is bound to the backend, and the call returns it or is
underway. A backend that is not counted has no entry in the registry. -/
theorem decided_exec (su : Setup) (re : List (Instr π)) (h : x.promises? (s.memory p) env = some ls) :
    ((exec su p env s x).1.memory p).sessionIndex.get? ls.sessionId = some ls.backendId ∧
      ∃ k, kindIn ((exec su p env s x).1.memory p) ls.backendId = some k ∧
        ((¬ isCountedKind k → Active ls (exec su p env s x).1) →
          Decided ls (exec su p env s x).1 ((exec su p env s x).2.todo re) (x.returns (s.memory p))) := by
  cases x with
  | leaseBound =>
    obtain ⟨b, hb, hd⟩ := decided_bound h (t := s.lock p true) rfl
    simp only [exec, hb]
    exact hd
  | create r =>
    obtain ⟨c, hcn⟩ := cancel_eq s r env.nowMs
    rw [Instr.promises?] at h
    split_ifs at h with hbn
    · obtain ⟨b, hb, hd⟩ := decided_bound h (t := (s.cancel r env.nowMs).lock p true) (by rw [hcn]; rfl)
      simp only [exec, hb, hbn, if_true, Instr.returns, Bool.not_true, Bool.false_and]
      exact hd
    · obtain ⟨i, hbl, hl⟩ := bind_eq_some_iff.mp h
      obtain ⟨hi, hk⟩ := insertBackend_lease (s := s) (p := p) hl i
      obtain ⟨-, -, -, -, hid⟩ := NewBackend.lease?_eq_some hl
      by_cases hc : isCountedKind r.config.kind
      · simp only [exec, hbn, hbl, hc, if_true, Bool.false_eq_true, if_false, Instr.returns, Bool.not_true,
          Bool.and_false]
        refine ⟨hi, _, hk, fun _ => ?_⟩
        exact .confirming r i re hid (busy_sessionStatuses hl)
      · simp only [exec, hbn, hbl, hc, Bool.false_eq_true, if_false, Instr.returns]
        refine ⟨hi, _, hk, fun ha => ha hc⟩
  | _ => cases h

end Decide

/-! ### Runs -/

/-- No lease is broken, as the sessions that have one are not idle in the registry. -/
structure Protected (w : Watched ι π) : Prop where
  sane : Sane w.world
  promised : ∀ i lease, w.leases.promised i = some lease →
    Kept lease w.world ∧ Underway lease w.world.shared (w.world.thread i)
  returned : ∀ lease ∈ w.leases.returned, Kept lease w.world ∧ Active lease w.world.shared
  unbroken : w.leases.broken = []

theorem protected_start (su : Setup) (os : ι → Operation) : Protected (⟨start su os, {}⟩ : Watched ι π) :=
  ⟨sane_start su os, nofun, forall_mem_nil _, rfl⟩

section Runs

variable [DecidableEq π] {su : Setup} {pr : ι → π} {w w' : Watched ι π} {l : Label ι π}

/-- The lease that a call was about to return, or has just decided on. -/
theorem Protected.decided {i : ι} {e : Env} {x : Instr π} {r f : List (Instr π)} {wr : World ι π}
    {ls : Lease} (h : Protected w) (htd : w.world.thread i = x :: r) (ht : Turned (pr i) e w.world x wr f)
    (hs : wr.shared = (exec su (pr i) e w.world.shared x).1)
    (hl : (w.leases.promised i).or (x.promises? (w.world.shared.memory (pr i)) e) = some ls) :
    Kept ls wr ∧ Decided ls wr.shared ((exec su (pr i) e w.world.shared x).2.todo r)
      (x.returns (w.world.shared.memory (pr i))) := by
  cases hp : w.leases.promised i with
  | some =>
    rw [hp, some_or] at hl
    obtain ⟨hkp, hu⟩ := h.promised i ls (hp.trans hl)
    refine ⟨hkp.turn ht, ?_⟩
    rw [hs]
    exact (htd ▸ hu).exec
  | none =>
    rw [hp, none_or] at hl
    have hsn := h.sane.turn ht
    obtain ⟨hi, k, hk, hd⟩ := decided_exec su r hl
    rw [← hs] at hi hk hd
    exact ⟨hsn.bound (pr i) _ _ hi, hd fun hc => (hsn.uncounted (pr i) _ k hk hc).2.active⟩

variable [DecidableEq ι]

theorem Protected.call {i : ι} {e : Env} (h : Protected w) (hP : Careful pr w (.call i e))
    (hs : watch su pr w (.call i e) = some w') : Protected w' := by
  obtain ⟨wr, hw, rfl⟩ := map_eq_some_iff.mp hs
  obtain ⟨x, r, htd, rfl⟩ := step_call_eq_some hw
  have hx : x ∈ (w.world.thread i).head? := by simp [htd]
  have ht := turned_call su pr e h.sane htd (hP.fresh i rfl x hx)
    (hP.heartbeats (i, e) rfl x hx)
  simp only [Watched.leasesAfter, htd]
  refine ⟨h.sane.turn ht, fun k ls hl => ?_, fun ls hl => ?_, ?_⟩
  · rcases eq_or_ne k i with rfl | hk
    · simp only [Leases.record, Function.update_self] at hl
      split_ifs at hl with hr
      obtain ⟨hkp, hu⟩ := h.decided htd ht rfl hl
      refine ⟨hkp, ?_⟩
      simpa [Decided, hr] using hu
    · simp only [Leases.record, Function.update_of_ne hk] at hl
      obtain ⟨hkp, hu⟩ := h.promised k ls hl
      refine ⟨hkp.turn ht, ?_⟩
      rw [Threads.put_thread_of_ne _ _ _ hk]
      refine hu.others fun r hun ha => ha.turn ht hkp ?_
      exact hP.undisturbed i rfl x hx k ls hl .unlock (by simp [hun]) rfl
  · obtain hn | ho := mem_append.mp hl
    · split_ifs at hn with hr
      · obtain ⟨hkp, ha⟩ := h.decided htd ht rfl (mem_toList.mp hn)
        exact ⟨hkp, by simpa [Decided, hr] using ha⟩
      · cases hn
    · obtain ⟨hm, hi⟩ := mem_filter.mp ho
      obtain ⟨hkp, ha⟩ := h.returned ls hm
      exact ⟨hkp.turn ht, ha.turn ht hkp (by simpa using hi)⟩
  · refine append_eq_nil_iff.mpr ⟨filter_eq_nil_iff.mpr fun ls hm he => ?_, h.unbroken⟩
    have hid := hP.rechecked i rfl x hx ls.backendId (of_decide_eq_true he).symm
    exact (h.returned ls hm).2.not_isAllSessionsIdle hid

theorem Protected.step (h : Protected w) (hP : Careful pr w l) (hs : watch su pr w l = some w') : Protected w' := by
  cases l with
  | call => exact h.call hP hs
  | die p =>
    obtain ⟨wr, hw, rfl⟩ := map_eq_some_iff.mp hs
    obtain rfl := some.inj hw
    have ht := turned_die pr w.world p {}
    refine ⟨h.sane.turn ht, fun k ls hl => ?_, fun ls hl => ?_, h.unbroken⟩
    · obtain ⟨hk, hu⟩ := h.promised k ls hl
      refine ⟨hk.turn ht, ?_⟩
      dsimp only
      split_ifs
      · exact .gone
      · exact hu.others fun _ _ ha => ha
    · obtain ⟨hk, ha⟩ := h.returned ls hl
      exact ⟨hk.turn ht, ha⟩

/-- **A leased backend is not evicted**, in every run of any number of processes whose steps are
all careful. -/
theorem no_lease_broken (setup : Setup) (process : ι → π) (operations : ι → Operation) {w : Watched ι π}
    (hrun : RunUnder (watch setup process) (Careful process) ⟨start setup operations, {}⟩ w) :
    w.leases.broken = [] := by
  refine (hrun.invariant (I := Protected) ?_ ?_).unbroken
  · exact protected_start setup operations
  · exact fun h hP hs => h.step hP hs

end Runs

/-! ### One place, and two sessions of one process -/

/-- A session has a backend for a turn and is idle after it. Another session wants a backend,
while the first one starts its next turn. -/
def nextTurn : Fin 4 → Operation
  | 0 => .ensureSessionBackend { backendId := "b0", sessionId := some "s0", initialStatus := some ⟨"running", 0⟩ } 1
  | 1 => .updateSessionStatus "b0" "s0" "idle" 0
  | 2 => .ensureSessionBackend { backendId := "b1", sessionId := some "s1", initialStatus := some ⟨"running", 0⟩ } 1
  | 3 => .ensureSessionBackend { backendId := "b2", sessionId := some "s0", initialStatus := some ⟨"running", 0⟩ } 1

/-- A call goes on, and the provider builds what it is asked for. -/
def proceed (i : Fin 4) : Label (Fin 4) Unit := .call i { nowMs := 1, built := some ("i" ++ toString i.val) }

/-- The call for the second session has found the backend idle. Then the first session gets its
backend for a turn, and the registry says so. The backend is evicted. -/
theorem leased_backend_is_evicted :
    ∃ w : Watched (Fin 4) Unit, RunUnder (watch onePlace fun _ => ()) Assumed ⟨start onePlace nextTurn, {}⟩ w ∧
      w.leases.broken = [⟨"b0", "s0"⟩] ∧
      (w.world.shared.registry.get? "b0").map (·.sessionStatuses.get? "s0") = some (some ⟨"running", 0⟩) ∧
      ((w.world.shared.memory ()).backends.get? "b0").isNone :=
  exists_run_of_exec _ _ _ _
    (replicate 6 (proceed 0) ++ [proceed 1] ++ replicate 5 (proceed 2) ++ replicate 3 (proceed 3) ++
      [proceed 2]) (by decide)

/-- The first session is idle when its backend is evicted; the second one has a lease. -/
theorem no_lease_broken_of_idle : ∃ w : Watched (Fin 4) Unit,
      RunUnder (watch onePlace fun _ => ()) (Careful fun _ => ()) ⟨start onePlace nextTurn, {}⟩ w ∧
      (w.leases.returned = [⟨"b1", "s1"⟩] ∧ ((w.world.shared.memory ()).backends.get? "b0").isNone) ∧
      w.leases.broken = [] :=
  (exists_run_of_exec _ _ _ _ (replicate 6 (proceed 0) ++ [proceed 1] ++ replicate 14 (proceed 2)) (by decide)).imp
    fun w ⟨hr, hw⟩ => ⟨hr, hw, no_lease_broken onePlace _ nextTurn hr⟩

end XiaoO.Backend.Processes
