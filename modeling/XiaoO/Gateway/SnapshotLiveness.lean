import XiaoO.Base.Runs
import XiaoO.Gateway.RuntimeCheckpoint

/-!
# Snapshots under checkpoints stay live

A clean backend is checkpointed by reusing the checkpoint of its tracker, and a
backend that is checked out starts with the checkpoint it came from; so several stored
checkpoints and trackers name one snapshot.

## What is proved

Deleting a snapshot clears one checkpoint and at most one tracker, and the others are
left naming a snapshot that is gone (`deleted_snapshot_is_still_named`). If a snapshot
is deleted only when no other checkpoint or tracker names it, every name is live,
always (`snapshots_live_of_run`).

The invariant of a run is that all names are live; within an operation, that all names
are live which the stored checkpoints, the trackers or the operation itself hold
(`Holding`). Every operation but the deletion preserves it, by the rules for programs
on a part of the state.
-/

namespace XiaoO.Gateway.Runtimes

open XiaoO.Base XiaoO.Backend SortedMap Preserves RuntimeCheckpointStore

/-! ### The property and its condition -/

variable (service : Service)

/-- **The property**: every stored checkpoint and every tracker that names a snapshot names
one that was made and not deleted. -/
structure SnapshotsLive : Prop where
  stored : ∀ checkpointId checkpoint backendCheckpoint s,
    service.runtimeCheckpoints.load checkpointId = some checkpoint →
    checkpoint.backendCheckpoint = some backendCheckpoint → backendCheckpoint.providerSnapshotId = some s →
    service.backendManager.snapshots.Live s
  tracked : ∀ backendId entry checkpoint s, service.backendManager.backends.get? backendId = some entry →
    entry.dirtyTracker.checkpoint = some checkpoint → checkpoint.providerSnapshotId = some s →
    service.backendManager.snapshots.Live s

/-- The ids that the provider gives to snapshots when backends are evicted. -/
def Candidate.snapshotIds : Candidate → List String
  | .own _ _ (some env) _ _ => env.snapshotIds
  | _ => []

/-- The ids that the provider gives to the snapshots of an operation. -/
def Operation.snapshotIds : Operation → List String
  | .checkpoint _ env => env.backend.snapshotIds
  | .pause _ env _ => env.backend.snapshotIds
  | .checkout _ env => env.attempts.flatMap (·.eviction.candidates.flatMap (·.snapshotIds))
  | _ => []

/-- The provider hands out new ids. -/
@[mk_iff] structure Fresh (operation : Operation) : Prop where
  nodup : operation.snapshotIds.Nodup
  new : ∀ s ∈ operation.snapshotIds, s ∉ service.backendManager.snapshots.created

instance : DecidableRel Fresh := fun _ _ => decidable_of_iff _ (fresh_iff ..).symm

/-- No other stored checkpoint names the snapshot of a checkpoint, and no tracker but the one
that is cleared with it. -/
def SoleReference (checkpointId : String) : Prop :=
  ∀ checkpoint ∈ service.runtimeCheckpoints.load checkpointId,
    ∀ backendCheckpoint ∈ checkpoint.backendCheckpoint, ∀ s ∈ backendCheckpoint.providerSnapshotId,
      (∀ stored ∈ service.runtimeCheckpoints.checkpoints.entries, ∀ other ∈ stored.2.backendCheckpoint,
        other.providerSnapshotId = some s → stored.1 = checkpointId) ∧
      ∀ backend ∈ service.backendManager.backends.entries, ∀ tracked ∈ backend.2.dirtyTracker.checkpoint,
        tracked.providerSnapshotId = some s →
          backendCheckpoint.sourceBackendId = some backend.1 ∧ tracked.checkpointId = backendCheckpoint.checkpointId
  deriving Decidable

/-- The checkpoint whose snapshot an operation deletes, if the provider does so. -/
def Operation.deletes? : Operation → Option String
  | .deleteSnapshot checkpointId (.ok true) _ => some checkpointId
  | _ => none

/-- The provider hands out new ids, and a snapshot is deleted only under its sole
reference. -/
@[mk_iff] structure Unshared (operation : Operation) : Prop where
  fresh : Fresh service operation
  sole : ∀ checkpointId ∈ operation.deletes?, SoleReference service checkpointId

instance : DecidableRel Unshared := fun _ _ => decidable_of_iff _ (unshared_iff ..).symm

/-! ### The references of a service -/

/-- The snapshots that a checkpoint names, if there is one. -/
def named (checkpoint : Option BackendCheckpointRef) : Set String := {s | ∃ c ∈ checkpoint, s ∈ c.snapshots}

def RuntimeCheckpointStore.snapshots (store : RuntimeCheckpointStore) : Set String :=
  {s | ∃ checkpointId checkpoint, store.load checkpointId = some checkpoint ∧ s ∈ named checkpoint.backendCheckpoint}

/-- All snapshots are live that the stored checkpoints, the trackers and the running
operation name. -/
def Holding (deleted : List String) (held : Set String) (service : Service) : Prop :=
  AllLive deleted (service.runtimeCheckpoints.snapshots ∪ held) service.backendManager

variable {deleted : List String} {held : Set String} {service : Service} {ε ε' α : Type}

theorem Holding.anti {held' : Set String} (h : Holding deleted held service) (hs : held' ⊆ held) :
    Holding deleted held' service :=
  AllLive.anti h (Set.union_subset_union_right _ hs)

/-- The frame of a program on the backends: the stored checkpoints. -/
theorem triple_framed {f : ε → ε'} {m : Prog BackendManager ε α} {P E : BackendManager → Prop}
    {Q : α → BackendManager → Prop} (st : RuntimeCheckpointStore) (h : Triple P m Q E) :
    Triple (fun s => s.runtimeCheckpoints = st ∧ P s.backendManager) (manager f m)
      (fun a s => s.runtimeCheckpoints = st ∧ Q a s.backendManager)
      (fun s => s.runtimeCheckpoints = st ∧ E s.backendManager) :=
  triple_within h (fun _ _ => rfl) fun _ _ hF => hF

theorem triple_manager {f : ε → ε'} {m : Prog BackendManager ε α} {b a' : Set String} {af : α → Set String}
    (h : ∀ held, Triple (AllLive deleted (held ∪ b)) m (fun a => AllLive deleted (held ∪ af a))
      (AllLive deleted (held ∪ a'))) :
    Triple (Holding deleted b) (manager f m) (fun a => Holding deleted (af a)) (Holding deleted a') := by
  intro service hb
  refine (triple_framed service.runtimeCheckpoints (h _)).conseq (fun _ h => h) ?_ ?_ service ⟨rfl, hb⟩
  · rintro a s ⟨hF, hl⟩
    rw [Holding, hF]
    exact hl
  · rintro s ⟨hF, hl⟩
    rw [Holding, hF]
    exact hl

theorem preserves_manager {f : ε → ε'} {m : Prog BackendManager ε α}
    (h : ∀ held, Preserves (AllLive deleted held) m) :
    Preserves (Holding deleted held) (manager f m) :=
  triple_manager fun s => h (s ∪ held)

/-! ### What the operations do with references -/

theorem preserves_checkpoints {f : RuntimeCheckpointStore → RuntimeCheckpointStore}
    (hf : ∀ s, (f s).checkpoints = s.checkpoints) : Preserves (Holding deleted held) (checkpoints f) := by
  refine preserves_modify fun service h => ?_
  rw [Holding, snapshots] at h ⊢
  simpa only [load, hf] using h

theorem preserves_saveSession (s : SessionRecord) : Preserves (Holding deleted held) (saveSession s) :=
  preserves_modify fun _ h => h

theorem preserves_getOrCreateSessionHandle (s : SessionRecord) :
    Preserves (Holding deleted held) (getOrCreateSessionHandle s) := by
  refine preserves_modify fun service h => ?_
  cases service.sessionsHandler.get? s.sessionId with
  | some | none => exact h

theorem preserves_idleSessionSnapshot {P : Service → Prop} (i : String) : Preserves P (idleSessionSnapshot i) := by
  refine preserves_get_bind fun service _ => ?_
  cases service.sessionsHandler.get? i with
  | some d =>
    refine preserves_unless fun _ => ?_
    cases d.actor with
    | some => exact preserves_pure _
    | none => exact preserves_throw _
  | none =>
    cases service.sessionStore.get? i with
    | none => exact preserves_throw _
    | some => exact preserves_unless fun _ => preserves_pure _

theorem triple_manager_checkpointBackend {f : BackendError → ε'} {r : BackendCheckpointRequest}
    {e : CheckpointEnv} (hf : ∀ s ∈ e.snapshotIds, s ∉ deleted) :
    Triple (Holding deleted held) (manager f (checkpointBackend r e))
      (fun rs => Holding deleted (held ∪ rs.checkpoint.snapshots)) (Holding deleted held) := by
  refine triple_manager fun st => (triple_checkpointBackend hf).imp fun _ _ h => ?_
  rwa [← Set.union_assoc]

variable {r : RuntimeCheckpointRequest} {checkpoint : RuntimeCheckpoint} {env : CheckoutEnv}
  {checkpointId : String} {o : Operation}

theorem triple_checkpointSessionBackend {c : String} {ss : SessionRecord}
    {env : CheckpointEnv} (hf : ∀ s ∈ env.snapshotIds, s ∉ deleted) :
    Triple (Holding deleted ∅) (checkpointSessionBackend c ss r env)
      (fun checkpoint => Holding deleted (named checkpoint)) (Holding deleted ∅) := by
  rw [checkpointSessionBackend]
  cases ss.backendInstance with
  | none => exact triple_pure fun _ h => h.anti (by simp [named])
  | some =>
    refine triple_bind (triple_manager_checkpointBackend hf) fun rs => triple_pure fun _ h => h.anti ?_
    simp [named]

theorem Holding.save (h : Holding deleted (named checkpoint.backendCheckpoint) service) :
    Holding deleted ∅ { service with runtimeCheckpoints := service.runtimeCheckpoints.save checkpoint } := by
  refine AllLive.anti h ?_
  rintro s (⟨checkpointId, st, hl, hs⟩ | ⟨⟨⟩⟩)
  rw [RuntimeCheckpointStore.load, RuntimeCheckpointStore.save, get?_insert] at hl
  split_ifs at hl with hid
  · cases hl
    exact .inr hs
  · exact .inl ⟨checkpointId, st, hl, hs⟩

theorem preserves_checkpointRuntime {env : RuntimeCheckpointEnv} (hf : ∀ s ∈ env.backend.snapshotIds, s ∉ deleted) :
    Preserves (Holding deleted ∅) (checkpointRuntime r env) := by
  refine (preserves_idleSessionSnapshot _).bind fun ss => ?_
  refine triple_bind (triple_checkpointSessionBackend hf) fun b => ?_
  refine triple_get_bind fun service h => ?_
  refine triple_bind (triple_modify ?_) fun _ => triple_pure fun _ h => h
  rintro _ rfl
  exact Holding.save h

theorem preserves_pauseRuntime {env : RuntimeCheckpointEnv}
    {rf : Option String} (hf : ∀ s ∈ env.backend.snapshotIds, s ∉ deleted) :
    Preserves (Holding deleted ∅) (pauseRuntime r env rf) := by
  refine (preserves_idleSessionSnapshot _).bind fun ss => ?_
  refine preserves_unless fun _ => ?_
  refine preserves_unless fun _ => ?_
  refine triple_bind (triple_checkpointSessionBackend hf) fun b => ?_
  refine triple_bind ((preserves_manager fun _ => preserves_releaseSession).imp_error
    fun _ h => h.anti (Set.empty_subset _)) fun _ => ?_
  refine triple_get_bind fun service h => ?_
  refine triple_bind (Q := fun _ => Holding deleted ∅) (triple_modify ?_) fun _ => ?_
  · rintro _ rfl
    exact Holding.save h
  refine bind (preserves_checkpoints ?_) fun _ => (preserves_saveSession _).bind fun _ => ?_
  · exact fun _ => rfl
  refine bind (preserves_modify ?_) fun _ => preserves_pure _
  exact fun _ h => h

theorem preserves_createCheckpointForEviction {b : String} {env : Option CheckpointEnv}
    (hf : ∀ e ∈ env, ∀ s ∈ e.snapshotIds, s ∉ deleted) :
    Preserves (Holding deleted held) (createCheckpointForEviction b env) := by
  cases env with
  | none => exact preserves_pure _
  | some env =>
    refine bind (attempt ?_) fun rs => ?_
    · refine (triple_manager_checkpointBackend (hf env rfl)).imp fun _ _ h => ?_
      exact h.anti Set.subset_union_left
    · cases rs with
      | error | ok => exact preserves_pure _

theorem preserves_evictFirst {cs : List Candidate} (hf : ∀ cn ∈ cs, ∀ s ∈ cn.snapshotIds, s ∉ deleted) :
    Preserves (Holding deleted held) (evictFirst cs) := by
  induction cs with
  | nil => exact preserves_throw _
  | cons cn re ih =>
    cases cn with
    | own b ss env =>
      have ho : ∀ e ∈ env, ∀ s ∈ e.snapshotIds, s ∉ deleted := by
        rintro e rfl
        exact hf _ List.mem_cons_self
      refine (preserves_createCheckpointForEviction ho).bind fun checkpoint => ?_
      refine (preserves_manager fun _ => preserves_evictBackendById).attempt.bind fun rs => ?_
      split
      · refine bind (preserves_modify ?_) fun _ => preserves_pure _
        exact fun _ h => h
      · exact ih fun c hc => hf c (List.mem_cons_of_mem _ hc)
      · exact preserves_throw _
    | orphan | remote => exact preserves_pure _

theorem preserves_tryEvictIfNeeded {v : EvictionView} (hf : ∀ c ∈ v.candidates, ∀ s ∈ c.snapshotIds, s ∉ deleted) :
    Preserves (Holding deleted held) (tryEvictIfNeeded v) := by
  rw [tryEvictIfNeeded]
  cases v.refused with
  | some => exact preserves_throw _
  | none =>
    refine preserves_ite (fun _ => preserves_pure _) fun _ => preserves_unless fun _ => ?_
    exact preserves_evictFirst hf

theorem preserves_manager_checkout {f : BackendError → ε'} {rq : BackendCheckoutRequest}
    (hh : rq.checkpoint.snapshots ⊆ held) : Preserves (Holding deleted held) (manager f (checkoutBackend rq env)) :=
  triple_manager fun _ => preserves_checkoutBackend (hh.trans Set.subset_union_right)

theorem preserves_checkoutBackendWithEviction {i : String} {checkpoint : BackendCheckpointRef}
    {ats : List CheckoutAttempt} (hh : checkpoint.snapshots ⊆ held)
    (hf : ∀ att ∈ ats, ∀ c ∈ att.eviction.candidates, ∀ s ∈ c.snapshotIds, s ∉ deleted) :
    Preserves (Holding deleted held) (checkoutBackendWithEviction i checkpoint ats) := by
  induction ats with
  | nil => exact preserves_throw _
  | cons att re ih =>
    have ih := ih fun a ha => hf a (List.mem_cons_of_mem _ ha)
    refine (preserves_manager_checkout hh).attempt.bind fun rs => ?_
    split
    · exact preserves_manager fun _ => preserves_leaseBoundSession
    · refine (preserves_tryEvictIfNeeded (hf att List.mem_cons_self)).attempt.bind fun e => ?_
      split
      · exact ih
      · exact ih
      · exact preserves_throw _
    · exact preserves_throw _

theorem triple_loadCheckpoint {P : Service → Prop} {m : SessionServiceError} :
    Triple P (loadCheckpoint checkpointId m)
      (fun checkpoint service => service.runtimeCheckpoints.load checkpointId = some checkpoint ∧ P service) P := by
  refine triple_get_bind fun service h => ?_
  cases hl : service.runtimeCheckpoints.load checkpointId with
  | none => exact triple_throw fun _ hs => hs ▸ h
  | some => exact triple_pure fun _ hs => hs ▸ ⟨hl, h⟩

/-- An operation may hold what a stored checkpoint names, for as long as it wants. -/
theorem Preserves.of_loaded {m : Served α} (h : Preserves (Holding deleted (named checkpoint.backendCheckpoint)) m) :
    Triple (fun service => service.runtimeCheckpoints.load checkpointId = some checkpoint ∧
      Holding deleted ∅ service) m
      (fun _ => Holding deleted ∅) (Holding deleted ∅) := by
  refine h.conseq ?_ (fun _ _ h => h.anti (Set.empty_subset _)) fun _ h => h.anti (Set.empty_subset _)
  rintro service ⟨hl, hh⟩
  refine AllLive.anti hh ?_
  rintro s (hs | hs)
  · exact .inl hs
  · exact .inl ⟨checkpointId, checkpoint, hl, hs⟩

theorem preserves_checkedOut {ch : BackendCheckpointRef → Served BackendInstance}
    (h : ∀ c, c.snapshots ⊆ named checkpoint.backendCheckpoint →
      Preserves (Holding deleted (named checkpoint.backendCheckpoint)) (ch c)) :
    Preserves (Holding deleted (named checkpoint.backendCheckpoint)) (checkedOut checkpoint ch) := by
  rw [checkedOut]
  cases hc : checkpoint.backendCheckpoint with
  | none => exact preserves_pure _
  | some c =>
    rw [hc] at h
    exact (h c fun s hs => ⟨c, rfl, hs⟩).bind fun _ => preserves_pure _

theorem preserves_checkoutRuntime {rq : RuntimeCheckoutRequest} {env : RuntimeCheckoutEnv}
    (hf : ∀ a ∈ env.attempts, ∀ cn ∈ a.eviction.candidates, ∀ s ∈ cn.snapshotIds, s ∉ deleted) :
    Preserves (Holding deleted ∅) (checkoutRuntime rq env) := by
  refine triple_bind triple_loadCheckpoint fun checkpoint => ?_
  refine Preserves.of_loaded ?_
  refine (preserves_idleSessionSnapshot _).bind fun _ => preserves_get_bind fun service _ => ?_
  refine preserves_unless fun _ => ?_
  refine Preserves.bind (preserves_checkedOut fun c hc => ?_) fun b => ?_
  · exact preserves_checkoutBackendWithEviction hc hf
  refine (preserves_saveSession _).bind fun _ => Preserves.bind (preserves_checkpoints ?_) fun _ => ?_
  · exact fun _ => rfl
  exact (preserves_getOrCreateSessionHandle _).bind fun _ => preserves_pure _

theorem preserves_resumeBackend {ri : String} {checkpoint : BackendCheckpointRef}
    (hh : checkpoint.snapshots ⊆ held) :
    Preserves (Holding deleted held) (resumeBackend ri checkpoint env) := by
  refine bind (preserves_manager_checkout ?_) fun _ => ?_
  · exact hh
  · exact preserves_manager fun _ => preserves_leaseBoundSession

theorem preserves_resumeRuntime {ri : String} {ns : ℕ} :
    Preserves (Holding deleted ∅) (resumeRuntime ri env ns) := by
  refine preserves_get_bind fun service _ => ?_
  cases service.sessionStore.get? ri with
  | none => exact preserves_throw _
  | some =>
    refine preserves_unless fun _ => ?_
    refine preserves_unless fun _ => preserves_get_bind fun service _ => ?_
    cases service.runtimeCheckpoints.pausedCheckpointForRuntime ri with
    | none => exact preserves_throw _
    | some =>
      refine triple_bind triple_loadCheckpoint fun checkpoint => Preserves.of_loaded ?_
      refine Preserves.bind (preserves_checkedOut fun c hc => preserves_resumeBackend hc) fun b => ?_
      refine (preserves_saveSession _).bind fun _ => bind (preserves_checkpoints ?_) fun _ => ?_
      · exact fun _ => rfl
      refine bind (preserves_checkpoints ?_) fun _ => ?_
      · exact fun _ => rfl
      exact (preserves_getOrCreateSessionHandle _).bind fun _ => preserves_pure _

/-- The names that are left when the snapshot of one checkpoint is cleared. -/
theorem mem_snapshots_clearBackendSnapshot {st : RuntimeCheckpointStore} {s : String}
    (h : s ∈ (st.clearBackendSnapshot checkpointId).snapshots) :
    ∃ oi ot, oi ≠ checkpointId ∧ st.load oi = some ot ∧ s ∈ named ot.backendCheckpoint := by
  obtain ⟨oi, ot, hl, c, hc, hs⟩ := h
  rw [load, clearBackendSnapshot, get?_modify] at hl
  split_ifs at hl with hid
  · obtain ⟨sr, _, rfl⟩ := Option.map_eq_some_iff.mp hl
    obtain ⟨_, _, rfl⟩ := Option.map_eq_some_iff.mp hc
    cases hs
  · exact ⟨oi, ot, hid, hl, c, hc, hs⟩

theorem triple_manager_delete {c : BackendCheckpointRef}
    {f : BackendError → SessionServiceError} {a : Except BackendError Bool} (h : Holding deleted ∅ service)
    (hsl : a = .ok true → SoleReference service checkpointId)
    (hl : service.runtimeCheckpoints.load checkpointId = some checkpoint)
      (hc : checkpoint.backendCheckpoint = some c) :
    Triple (· = service) (manager f (Backend.deleteCheckpointSnapshot c a))
      (fun _ s => s.runtimeCheckpoints = service.runtimeCheckpoints ∧ AllLive s.backendManager.snapshots.deleted
          (service.runtimeCheckpoints.clearBackendSnapshot checkpointId).snapshots s.backendManager)
      (Holding deleted ∅) := by
  have hca : Triple
      (fun m => AllLive deleted (service.runtimeCheckpoints.snapshots ∪ ∅) m ∧ (a = .ok true → OnlyCleared c m))
      (Backend.deleteCheckpointSnapshot c a)
      (fun _ m => AllLive m.snapshots.deleted
        (service.runtimeCheckpoints.clearBackendSnapshot checkpointId).snapshots m)
      (AllLive deleted (service.runtimeCheckpoints.snapshots ∪ ∅)) := by
    refine triple_deleteCheckpointSnapshot ?_ ?_ ?_
    · exact fun s hs => .inl ⟨checkpointId, checkpoint, hl, c, hc, hs⟩
    · intro s hs
      obtain ⟨oi, ot, _, ho, hn⟩ := mem_snapshots_clearBackendSnapshot hs
      exact .inl ⟨oi, ot, ho, hn⟩
    · intro ha s hs hcl
      obtain ⟨oi, ot, hne, ho, c', hc', hs'⟩ := mem_snapshots_clearBackendSnapshot hcl
      exact hne ((hsl ha checkpoint hl c hc s hs).1 (oi, ot) (mem_entries.mpr ho) c' hc' hs')
  refine (triple_framed service.runtimeCheckpoints hca).conseq ?_ (fun _ _ h => h) ?_
  · rintro _ rfl
    refine ⟨rfl, h, fun ha => ?_⟩
    rintro b t ⟨e, he, ht⟩ ⟨s, hs, hs'⟩
    exact (hsl ha checkpoint hl c hc s hs).2 (b, e) (mem_entries.mpr he) t ht hs'
  · rintro s ⟨hst, hlv⟩
    rw [Holding, hst]
    exact hlv

/-- A snapshot under its sole reference can be deleted. -/
theorem triple_deleteSnapshot {a : Except BackendError Bool} {ns : ℕ}
    (h : Holding deleted ∅ service) (hsl : a = .ok true → SoleReference service checkpointId) :
    Triple (· = service) (deleteCheckpointSnapshot checkpointId a ns)
      (fun _ service => Holding service.backendManager.snapshots.deleted ∅ service) (Holding deleted ∅) := by
  have hd : service.backendManager.snapshots.deleted = deleted := h.deleted_eq
  refine triple_bind (triple_loadCheckpoint.imp_error fun _ hs => hs ▸ h) fun checkpoint => ?_
  cases hb : checkpoint.backendCheckpoint with
  | none =>
    refine triple_pure ?_
    rintro _ ⟨_, rfl⟩
    exact hd ▸ h
  | some =>
    rintro _ ⟨hld, rfl⟩
    refine triple_bind (triple_manager_delete h hsl hld hb) (fun _ => ?_) _ rfl
    refine triple_bind (triple_modify ?_) fun _ => triple_pure fun _ h => h
    rintro s ⟨hst, hl⟩
    rw [Holding, hst, Set.union_empty]
    exact hl

/-! ### Every run -/

/-- The invariant: every name is live. -/
def Sound (service : Service) : Prop := Holding service.backendManager.snapshots.deleted ∅ service

theorem Holding.sound (h : Holding deleted ∅ service) : Sound service := by
  have hd : service.backendManager.snapshots.deleted = deleted := h.deleted_eq
  rwa [Sound, hd]

theorem sound_start (ss : SortedMap String SessionRecord) : Sound (start ss) := by
  refine ⟨rfl, ?_, ?_, ?_⟩
  · rintro s ⟨⟩
  · rintro s (⟨_, _, ⟨⟩, _⟩ | ⟨⟨⟩⟩)
  · rintro b checkpoint ⟨e, ⟨⟩, _⟩

theorem preserves_program (hf : ∀ s ∈ o.snapshotIds, s ∉ deleted)
    (hd : ∀ checkpointId a ns, o ≠ .deleteSnapshot checkpointId a ns) : Preserves (Holding deleted ∅) o.program := by
  cases o with
  | checkpoint => exact (preserves_checkpointRuntime hf).bind fun _ => preserves_pure _
  | pause => exact (preserves_pauseRuntime hf).bind fun _ => preserves_pure _
  | checkout =>
    refine (preserves_checkoutRuntime fun att ha c hc s hs => hf s ?_).bind fun _ => preserves_pure _
    exact List.mem_flatMap.mpr ⟨att, ha, List.mem_flatMap.mpr ⟨c, hc, hs⟩⟩
  | resume => exact preserves_resumeRuntime.bind fun _ => preserves_pure _
  | deleteSnapshot checkpointId a ns => exact absurd rfl (hd checkpointId a ns)
  | turn ss =>
    refine (preserves_saveSession ss).bind fun _ => preserves_modify ?_
    exact fun _ h => h
  | write =>
    refine preserves_manager fun held => preserves_locked fun ht => .inl ?_
    rcases tracks_modifyEntry ht with ⟨_, ho⟩ | ⟨e, he, _, hch⟩
    · exact ⟨_, ho⟩
    · exact ⟨_, e, he, hch⟩
  | ensure => exact preserves_manager fun _ => preserves_createSessionBackend

theorem Sound.step {next : Service} (h : Sound service) (hP : Unshared service o)
    (hst : step service o = some next) : Sound next := by
  cases hst
  have hf : ∀ s ∈ o.snapshotIds, s ∉ service.backendManager.snapshots.deleted :=
    fun s hs hd => hP.fresh.new s hs (h.created s hd)
  by_cases hd : ∃ checkpointId a ns, o = .deleteSnapshot checkpointId a ns
  · obtain ⟨checkpointId, a, ns, rfl⟩ := hd
    have hsl : a = .ok true → SoleReference service checkpointId := by
      rintro rfl
      exact hP.sole checkpointId rfl
    have hdl : Triple (· = service) (deleteCheckpointSnapshot checkpointId a ns) (fun _ => Sound) Sound :=
      (triple_deleteSnapshot h hsl).imp_error fun _ hs => hs.sound
    exact (triple_bind hdl fun _ => preserves_pure _).exec rfl
  · refine ((preserves_program hf ?_).exec h).sound
    exact fun checkpointId a ns heq => hd ⟨checkpointId, a, ns, heq⟩

/-- **Every name is live**: in every run in which a snapshot is deleted only under its sole
reference, every stored checkpoint and every tracker that names a snapshot names one
that was made and not deleted. -/
theorem snapshots_live_of_run {sessions : SortedMap String SessionRecord}
    (h : RunUnder step Unshared (start sessions) service) : SnapshotsLive service := by
  have hsn : Sound service := h.invariant (sound_start sessions) fun hs hP hst => hs.step hP hst
  refine ⟨?_, ?_⟩
  · intro checkpointId checkpoint c s hl hc hs
    exact hsn.held_live s (.inl ⟨checkpointId, checkpoint, hl, c, hc, hs⟩)
  · intro b e checkpoint s he hch hs
    exact hsn.tracked_live ⟨e, he, hch⟩ s hs

/-- A store with one session, which has an e2b backend. -/
def oneSession : SortedMap String SessionRecord :=
  SortedMap.empty.insert "r"
    { sessionId := "r"
      runtime := { agentId := "root" }
      backendInstance := some { backendId := "bkd_0", instanceId := "sandbox_0", sessionId := "r" } }

/-- The session gets its backend. -/
def backendComes : Operation := .ensure "r" "bkd_0"
  { backendInstance := { backendId := "bkd_0", instanceId := "sandbox_0", sessionId := "r" }
    config := ⟨"e2b", "null"⟩
    sessionIds := ["r"] }

/-- A checkpoint of the session, with the snapshot that the provider would make. -/
def checkpointTaken (uuid snapshotId : String) : Operation :=
  .checkpoint { runtimeId := "r" } { backend := { uuid, snapshot := .ok ⟨snapshotId, []⟩ }, uuid }

/-- A checkpoint, a write, another checkpoint and a checkout of it; then the snapshot of the
first is deleted. -/
theorem snapshots_live_of_run_two_snapshots :
    ∃ service, RunUnder step Unshared (start oneSession) service ∧ SnapshotsLive service ∧
      service.backendManager.snapshots.deleted = ["snap_1"] ∧
      (service.runtimeCheckpoints.load "rtcp_2").any (fun checkpoint =>
        checkpoint.backendCheckpoint.any (·.providerSnapshotId = some "snap_2")) := by
  obtain ⟨service, hr, hd, hs⟩ := exists_run_of_exec step Unshared (start oneSession)
    (fun service => service.backendManager.snapshots.deleted = ["snap_1"] ∧
      (service.runtimeCheckpoints.load "rtcp_2").any (fun checkpoint =>
        checkpoint.backendCheckpoint.any (·.providerSnapshotId = some "snap_2")))
    [backendComes, checkpointTaken "1" "snap_1", .write "bkd_0", checkpointTaken "2" "snap_2",
      .checkout { checkpointId := "rtcp_2" }
        { attempts := [{ checkout := { uuid := "1", built := .ok ("sandbox_1", "") } }] },
      .deleteSnapshot "rtcp_1" (.ok true) 0]
    (by decide)
  exact ⟨service, hr, snapshots_live_of_run hr, hd, hs⟩

/-- Two checkpoints of a clean backend share a snapshot; after it is deleted for the first,
the second still names it. -/
theorem deleted_snapshot_is_still_named :
    ∃ service, RunUnder step Fresh (start oneSession) service ∧ ¬ SnapshotsLive service := by
  obtain ⟨service, hr, hn⟩ := exists_run_of_exec step Fresh (start oneSession)
    (fun service => ∃ checkpoint ∈ service.runtimeCheckpoints.load "rtcp_2",
      ∃ c ∈ checkpoint.backendCheckpoint, c.providerSnapshotId = some "snap_1" ∧
        ¬ service.backendManager.snapshots.Live "snap_1")
    [backendComes, checkpointTaken "1" "snap_1", checkpointTaken "2" "snap_2", .deleteSnapshot "rtcp_1" (.ok true) 0]
    (by decide)
  obtain ⟨checkpoint, hld, c, hc, hs, hd⟩ := hn
  exact ⟨service, hr, fun hl => hd (hl.stored "rtcp_2" checkpoint c "snap_1" hld hc hs)⟩

end XiaoO.Gateway.Runtimes
