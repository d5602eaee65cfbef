import XiaoO.Gateway.Supervisor
import Mathlib.Data.Fintype.Basic

/-!
# Saves of clones that are out of date

Every operation of a supervisor changes the session under its mutex, clones it, and
saves the clone after it has let go of the mutex. The order of the saves is therefore
not the order of the changes, and a save replaces whatever others wrote to the store in
the meantime.

## What is proved

* `store_eq_session_of_run` — **convergence**: if no save is out of order, the store holds
  the session once all calls have returned. Without the condition a change is lost
  (`save_order_loses_lane_state`).
* `checkpoint_kept_of_run` — **evictions**: the stored record keeps the checkpoint that an
  eviction wrote until a lease restores from it, if the eviction finds nothing to be saved
  and nothing is saved before the lease. A turn that starts meanwhile loses it
  (`turn_start_loses_checkpoint`).
-/

namespace XiaoO.Gateway

open XiaoO.Base XiaoO.Subagent XiaoO.Backend

variable {ι : Type} [DecidableEq ι]

/-! ### The store converges to the session -/

/-- The clone that a call is about to save. -/
def Call.saving (call : Call) : Option SessionRecord :=
  match call.todo with
  | .save record :: _ => some record
  | _ => none

theorem saving_eq_some {c : Call} {r : SessionRecord} : c.saving = some r ↔ c.todo.head? = some (.save r) := by
  rw [Call.saving]
  split
  · next ht => simp [ht]
  · next hne =>
    constructor
    · intro h
      cases h
    · intro h
      obtain ⟨rs, ht⟩ := List.head?_eq_some_iff.mp h
      exact absurd ht (hne r rs)

variable (w : World ι)

/-- The latest change of the session has still to be saved. -/
def Unsaved : Prop := ∃ k, (w.thread k).saving = some w.shared.session

/-- A step **in order**: what is saved is the session as it is, or the latest change is
still to be saved by another call; and no agent ends that has a lane but is unknown to the
coordinator. -/
@[mk_iff] structure InOrder (l : ι × Env) : Prop where
  save : ∀ record ∈ (w.thread l.1).saving, record = w.shared.session ∨ Unsaved w
  known : ∀ x ∈ (w.thread l.1).todo.head?, refused w.shared.session x = false

instance [Fintype ι] (w : World ι) : Decidable (Unsaved w) :=
  inferInstanceAs (Decidable (∃ k, (w.thread k).saving = some w.shared.session))

instance [Fintype ι] : DecidableRel (InOrder : World ι → ι × Env → Prop) := fun _ _ =>
  decidable_of_iff _ (inOrder_iff ..).symm

/-- The store holds the session, or will. -/
structure Converging : Prop where
  stored : w.shared.store = some w.shared.session ∨ Unsaved w
  supervised : ∀ k checkpoint, .evict checkpoint ∉ (w.thread k).todo

omit [DecidableEq ι] in
theorem Converging.start {s : SessionRecord} {os : ι → Operation}
    (h : ∀ i c, os i ≠ .evict c) : Converging (start s os) := by
  refine ⟨.inl rfl, fun k c hm => ?_⟩
  cases hop : os k with
  | evict c => exact h k c hop
  | _ => simp [Gateway.start, hop, Operation.program] at hm

theorem Converging.step {w v : World ι} {l : ι × Env} (h : Converging w) (hP : InOrder w l)
    (hst : Gateway.step w l = some v) : Converging v := by
  obtain ⟨i, e⟩ := l
  obtain ⟨x, r, t, next, ht, he, rfl⟩ := step_eq_some.mp hst
  obtain ⟨-, hsa, -⟩ := exec_spec he
  have hkn : refused w.shared.session x = false := hP.known x (by simp [ht])
  constructor
  · rcases hsa with hsm | hh | hrf
    · rcases exec_store he with ⟨record, rfl, hs, -⟩ | ⟨c, rfl, -⟩ | ⟨hwr, hs, -⟩
      · -- a save: of the session, or of an older clone while the session is still to be saved
        have hsv : (w.thread i).saving = some record := saving_eq_some.mpr (by simp [ht])
        by_cases hr : record = w.shared.session
        · exact .inl (by simp [hs, hsm, hr])
        · obtain ⟨k, hk⟩ := (hP.save record hsv).resolve_left hr
          have hki : k ≠ i := by
            rintro rfl
            exact hr (Option.some.inj (hsv.symm.trans hk))
          exact .inr ⟨k, by simpa [Threads.put_thread_of_ne _ _ _ hki, hsm] using hk⟩
      · exact absurd (ht ▸ List.mem_cons_self) (h.supervised i c)
      · refine h.stored.imp (fun hw => by simpa [hs, hsm] using hw) ?_
        rintro ⟨k, hk⟩
        have hki : k ≠ i := by
          rintro rfl
          rw [saving_eq_some, ht] at hk
          cases hk
          cases hwr
        exact ⟨k, by simpa [Threads.put_thread_of_ne _ _ _ hki, hsm] using hk⟩
    · exact .inr ⟨i, saving_eq_some.mpr (by simpa using head?_after hh)⟩
    · rw [hkn] at hrf
      cases hrf
  · intro k c hm
    rcases writesStore_mem_put ht he hm rfl with ⟨heq, -⟩ | ho
    · cases heq
    · exact h.supervised k c ho

/-- **The store converges to the session**: in a run in order, of any calls that are not
evictions, the store holds the session once all calls have returned. -/
theorem store_eq_session_of_run {session : SessionRecord} {operations : ι → Operation} {w : World ι}
    (hops : ∀ i checkpoint, operations i ≠ .evict checkpoint)
    (hrun : RunUnder Gateway.step InOrder (start session operations) w) (hdone : ∀ i, (w.thread i).todo = []) :
    w.shared.store = some w.shared.session := by
  have hi : Converging w := hrun.invariant (.start hops) fun h hP hs => h.step hP hs
  refine hi.stored.resolve_right ?_
  rintro ⟨k, hk⟩
  rw [saving_eq_some, hdone k] at hk
  cases hk

/-- Two lanes persist their states: the root lane and the lane of the subagent. -/
def persistBoth : Bool → Operation
  | true => .persistLaneState "root" { loopState := some "root waits" } none
  | false => .persistLaneState "scout" { loopState := some "scout found it" } none

theorem store_eq_session_of_run_two_lanes : ∃ w : World Bool,
    RunUnder Gateway.step InOrder (start delegatingSession persistBoth) w ∧ (∀ i, (w.thread i).todo = []) ∧
      w.shared.store = some w.shared.session :=
  (exists_run_of_exec _ _ _ _ [(true, {}), (false, {}), (true, {}), (false, {})] (by decide)).imp
    fun w ⟨hr, hd⟩ => ⟨hr, hd, store_eq_session_of_run (by rintro (_ | _) c ⟨⟩) hr hd⟩

/-- **A change is lost from the store**: the subagent's lane persists after the root lane
but its save lands first, and the root lane's older clone replaces it. -/
theorem save_order_loses_lane_state : ∃ w : World Bool,
    RunUnder Gateway.step Always (start delegatingSession persistBoth) w ∧ (∀ i, (w.thread i).todo = []) ∧
      w.shared.session.lane? "scout" = some { loopState := some "scout found it" } ∧
      (w.shared.store.bind fun record => record.lane? "scout") = some {} ∧
      w.shared.store ≠ some w.shared.session :=
  exists_run_of_exec _ _ _ _ [(true, {}), (false, {}), (false, {}), (true, {})] (by decide)

/-! ### The checkpoint of an eviction -/

def Instr.isSave : Instr → Bool
  | .save _ => true
  | _ => false

def Instr.isEvict : Instr → Bool
  | .evict _ => true
  | _ => false

/-- The record carries the checkpoint that is owed, if one is. -/
def Carries (owed : Option BackendCheckpointRef) (record : SessionRecord) : Prop :=
  owed = none ∨ record.pausedBackendCheckpoint = owed
  deriving Decidable

theorem Carries.of_owed {s t : Shared} {record : SessionRecord} (h : Carries s.owed record)
    (ho : t.owed = s.owed ∨ t.owed = none) : Carries t.owed record := by
  rcases ho with ho | ho
  · rwa [ho]
  · exact .inl ho

/-- A step **apart from evictions**: the session is evicted only when the last checkpoint has
been restored from and no call has a clone to save; and while a checkpoint is owed, the
session is cloned only if it carries that checkpoint itself. -/
@[mk_iff] structure Apart (l : ι × Env) : Prop where
  evict : (w.thread l.1).todo.head?.any Instr.isEvict = true →
    w.shared.owed = none ∧ ∀ k, (w.thread k).todo.any Instr.isSave = false
  clone : (w.thread l.1).todo.head?.any Instr.clones = true → Carries w.shared.owed w.shared.session

instance [Fintype ι] : DecidableRel (Apart : World ι → ι × Env → Prop) := fun _ _ =>
  decidable_of_iff _ (apart_iff ..).symm

/-- The stored record carries what is owed, and so does every clone that is still to be
saved. -/
structure Kept : Prop where
  stored : ∃ record, w.shared.store = some record ∧ Carries w.shared.owed record
  saved : ∀ k record, .save record ∈ (w.thread k).todo → Carries w.shared.owed record

omit [DecidableEq ι] in
theorem Kept.start (s : SessionRecord) (os : ι → Operation) : Kept (start s os) :=
  ⟨⟨s, rfl, .inl rfl⟩, fun _ _ _ => .inl rfl⟩

theorem Kept.step {w v : World ι} {l : ι × Env} (h : Kept w) (hP : Apart w l) (hsp : Gateway.step w l = some v) :
    Kept v := by
  obtain ⟨i, e⟩ := l
  obtain ⟨x, r, t, next, ht, he, rfl⟩ := step_eq_some.mp hsp
  have hk := (exec_spec he).1
  have hcl : x.clones = true → Carries w.shared.owed t.session := by
    intro hx
    refine (hP.clone (by simp [ht, hx])).imp_right fun hc => ?_
    rw [hk.checkpoint, hc]
  -- what is still to be saved carries what was owed before the step
  have hsv : ∀ k record, .save record ∈ ((w.put i t ((w.thread i).after r next)).thread k).todo →
      Carries w.shared.owed record := by
    intro k record hm
    rcases writesStore_mem_put ht he hm rfl with ⟨heq, hx⟩ | hol
    · cases heq
      exact hcl hx
    · exact h.saved k record hol
  obtain ⟨s, hst, hc⟩ := h.stored
  rcases exec_store he with ⟨record, rfl, hs, ho⟩ | ⟨c, rfl, hp, hs, ho⟩ | ⟨-, hs, ho⟩
  · refine ⟨⟨record, hs, ?_⟩, fun k record hm => (hsv k record hm).of_owed (.inl ho)⟩
    exact (h.saved i record (ht ▸ List.mem_cons_self)).of_owed (.inl ho)
  · obtain ⟨hn, hu⟩ := hP.evict (by simp [ht, Instr.isEvict])
    refine ⟨⟨_, by simpa [hst] using hs, ?_⟩, fun k record hm => ?_⟩
    · right
      simp [ho, hst, hn, SessionRecord.markPausedDueToEviction]
    · -- nothing was to be saved, and an eviction has nothing to save
      rcases writesStore_mem_put ht he hm rfl with ⟨-, hx⟩ | hol
      · cases hx
      · have := List.any_eq_false.mp (hu k) _ hol
        exact absurd rfl this
  · exact ⟨⟨s, hs.trans hst, hc.of_owed ho⟩, fun k record hm => (hsv k record hm).of_owed ho⟩

/-- **An eviction checkpoint is kept**: in a run apart from evictions, the stored record keeps
the checkpoint that an eviction wrote until a lease has restored the backend from it. -/
theorem checkpoint_kept_of_run {session : SessionRecord} {operations : ι → Operation} {w : World ι}
    {checkpoint : BackendCheckpointRef} (hrun : RunUnder Gateway.step Apart (start session operations) w)
    (howed : w.shared.owed = some checkpoint) :
    ∃ record, w.shared.store = some record ∧ record.pausedBackendCheckpoint = some checkpoint := by
  have hi : Kept w := hrun.invariant (.start session operations) fun h hP hst => h.step hP hst
  obtain ⟨record, hs, hc⟩ := hi.stored
  refine ⟨record, hs, ?_⟩
  rw [← howed]
  exact hc.resolve_left (by simp [howed])

/-- A checkpoint of the session's sandbox. -/
def evictionCheckpoint : BackendCheckpointRef where
  checkpointId := "bcp_1"
  provider := "e2b"
  sourceBackendId := some "be_1"
  providerSnapshotId := some "snap_1"

/-- A turn starts while the session's backend is evicted. -/
def turnAndEviction : Bool → Operation
  | true => .prepareRootTurn { conversationId := "c", senderId := "user", descriptor := { agentId := "root" } }
  | false => .evict (some evictionCheckpoint)

theorem checkpoint_kept_of_run_after_turn : ∃ w : World Bool,
    RunUnder Gateway.step Apart (start delegatingSession turnAndEviction) w ∧
      w.shared.owed = some evictionCheckpoint ∧
      ∃ record, w.shared.store = some record ∧ record.pausedBackendCheckpoint = some evictionCheckpoint :=
  (exists_run_of_exec _ _ _ _ [(true, {}), (true, {}), (false, {})] (by decide)).imp
    fun w ⟨hr, ho⟩ => ⟨hr, ho, checkpoint_kept_of_run hr ho⟩

/-- **An eviction checkpoint is lost**: the eviction writes its checkpoint between the
critical section of `prepare_root_turn` and the save of the clone. -/
theorem turn_start_loses_checkpoint : ∃ w : World Bool,
    RunUnder Gateway.step Always (start delegatingSession turnAndEviction) w ∧
      w.shared.owed = some evictionCheckpoint ∧
      ∀ record ∈ w.shared.store, record.pausedBackendCheckpoint = none :=
  exists_run_of_exec _ _ _ _
    [(true, {}), (false, {}), (true, {})] (by decide)

end XiaoO.Gateway
