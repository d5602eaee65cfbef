import XiaoO.Base.Hoare
import XiaoO.Base.SortedMap
import XiaoO.Base.Text
import Mathlib.Data.String.Basic

/-!
# Checkpoints of backends

The checkpoints that a backend manager makes of its backends
(`shared/src/backend/backend_manager.rs`), the tracker that every backend carries
(`dirty_write.rs`) and the calls of the snapshot provider (`e2b/provider.rs`).

## The model

A tracker holds the checkpoint that the contents of its backend come from and whether
anything was written since. Checkpointing a backend that is clean gives the
checkpoint of its tracker again; otherwise a snapshot is made. A checkpoint is a
*reference*: nothing counts how many checkpoints name one snapshot.

The functions of the manager are programs over `BackendManager`, which besides the
manager's own maps records the snapshots that the provider has made and deleted.
What comes from outside is an argument: the clock, the new ids, the answers of the
provider and of the sandbox counter. A request that the provider refuses changes
nothing there, and the ids it hands out carry no blanks around them.

JSON values are their texts. The lineage and expiry of a backend, the hash of its
configuration, `BackendInfo` and what a checkout passes on to the provider besides
the snapshot are left out.

## What is proved

How every function treats references, as a triple: if all snapshots that the trackers
and any other holders name are live, they still are afterwards
(`triple_checkpointBackend`, `preserves_checkoutBackend` and their siblings). Deleting a
snapshot is the exception: it leaves only those references live that name another one
(`triple_deleteCheckpointSnapshot`).
-/

namespace XiaoO.Backend

open XiaoO.Base SortedMap

/-! ### Data -/

structure BackendCheckpointRef where
  checkpointId : String
  provider : String
  sourceBackendId : Option String := none
  providerSnapshotId : Option String := none
  providerSnapshotNames : List String := []
  workspaceRoot : String := ""
  name : Option String := none
  metadata : String := "null"
  createdAtMs : ℕ := 0
  providerOptions : String := "null"
  deriving DecidableEq

structure BackendInstance where
  backendId : String
  instanceId : String
  sessionId : String
  /-- The remaining fields. -/
  description : String := ""
  deriving DecidableEq

structure BackendDirtyTracker where
  dirty : Bool := false
  checkpoint : Option BackendCheckpointRef := none
  deriving DecidableEq

namespace BackendDirtyTracker

def markDirty (tracker : BackendDirtyTracker) : BackendDirtyTracker := { tracker with dirty := true }

def setCheckpoint (_ : BackendDirtyTracker) (checkpoint : BackendCheckpointRef) : BackendDirtyTracker :=
  ⟨false, some checkpoint⟩

def clearCheckpointIfMatches (tracker : BackendDirtyTracker) (checkpointId : String) : BackendDirtyTracker :=
  if tracker.checkpoint.any (·.checkpointId = checkpointId) then ⟨true, none⟩ else tracker

end BackendDirtyTracker

structure GatewayBackendConfig where
  kind : String
  options : String := "null"
  deriving DecidableEq

structure BackendInstanceEntry where
  backendInstance : BackendInstance
  config : GatewayBackendConfig
  workspaceRoot : String := ""
  sessionIds : List String := []
  dirtyTracker : BackendDirtyTracker := {}
  deriving DecidableEq

inductive BackendError where
  | invalidRequest (message : String)
  | conflict (message : String)
  | notFound (backendId : String)
  | unsupportedBackend (kind : String)
  | resourceLimitExceeded (message : String)
  | needsEviction
  | buildFailed (message : String)
  | operation (message : String)
  deriving DecidableEq

def BackendError.display : BackendError → String
  | .invalidRequest message => "invalid managed backend request: " ++ message
  | .conflict message => "managed backend conflict: " ++ message
  | .notFound backendId => "managed backend not found: " ++ backendId
  | .unsupportedBackend kind => "unsupported backend kind: " ++ kind
  | .resourceLimitExceeded message => "managed backend resource limit exceeded: " ++ message
  | .needsEviction => "managed backend needs eviction before creation"
  | .buildFailed message => "managed backend build failed: " ++ message
  | .operation message => "managed backend operation failed: " ++ message

/-- The snapshots at the provider: the ids handed out, and those deleted for good. -/
structure Snapshots where
  created : List String := []
  deleted : List String := []

/-- A snapshot that was made and not deleted. -/
def Snapshots.Live (snapshots : Snapshots) (s : String) : Prop := s ∈ snapshots.created ∧ s ∉ snapshots.deleted
  deriving Decidable

/-- `BackendManagerState`: what the lock of a manager guards. -/
structure BackendManagerState where
  backends : SortedMap String BackendInstanceEntry := .empty
  sessionIndex : SortedMap String String := .empty

/-- A manager, and the provider's snapshots. -/
structure BackendManager extends BackendManagerState where
  snapshots : Snapshots := {}

abbrev Managed := Prog BackendManager BackendError

/-! ### Under the lock -/

namespace BackendManagerState

variable (state : BackendManagerState) (backendId : String)

/-- Change the entry of a backend, if there is one. -/
def modifyEntry (f : BackendInstanceEntry → BackendInstanceEntry) : BackendManagerState :=
  { state with backends := state.backends.modify backendId f }

def track (f : BackendDirtyTracker → BackendDirtyTracker) : BackendManagerState :=
  state.modifyEntry backendId fun entry => { entry with dirtyTracker := f entry.dirtyTracker }

/-- Add a backend, bound to a session if one is given. -/
def bind (sessionId : Option String) (entry : BackendInstanceEntry) : BackendManagerState where
  backends := state.backends.insert backendId entry
  sessionIndex := match sessionId with
    | none => state.sessionIndex
    | some sessionId => state.sessionIndex.insert sessionId backendId

/-- The locked part of `evict_backend_by_id`: the backend that it removes. -/
def evict : Option BackendInstanceEntry × BackendManagerState :=
  match state.backends.get? backendId with
  | none => (none, state)
  | some entry => (some entry,
    { backends := state.backends.erase backendId
      sessionIndex := entry.sessionIds.foldl (·.erase ·) state.sessionIndex })

/-- The locked part of `release_session`: the backend that is left without a session. -/
def releaseSession (sessionId : String) : Option (String × BackendInstanceEntry) × BackendManagerState :=
  match state.sessionIndex.get? sessionId with
  | none => (none, state)
  | some backendId =>
    let sessionIndex := state.sessionIndex.erase sessionId
    match state.backends.get? backendId with
    | none => (none, { state with sessionIndex })
    | some entry =>
      let entry := { entry with sessionIds := entry.sessionIds.filter (· ≠ sessionId) }
      if entry.sessionIds.isEmpty then (some (backendId, entry), ⟨state.backends.erase backendId, sessionIndex⟩)
      else (none, ⟨state.backends.insert backendId entry, sessionIndex⟩)

end BackendManagerState

variable (state : BackendManagerState) (backendId : String) (checkpoint : BackendCheckpointRef) {ε : Type}

/-- Run a part of a function under the lock. -/
def locked {α : Type} (f : BackendManagerState → α × BackendManagerState) : Prog BackendManager ε α :=
  modifyGet fun manager =>
    ((f manager.toBackendManagerState).1,
      { manager with toBackendManagerState := (f manager.toBackendManagerState).2 })

def lockedModify (f : BackendManagerState → BackendManagerState) : Prog BackendManager ε Unit :=
  locked fun state => ((), f state)

/-! ### The provider -/

structure E2bSnapshotResult where
  snapshotId : String
  names : List String := []

/-- `e2b::create_snapshot`, with the provider's answer. -/
def createSnapshot : Except BackendError E2bSnapshotResult → Managed E2bSnapshotResult
  | .error error => throw error
  | .ok result => do
    modify fun manager =>
      { manager with snapshots.created := result.snapshotId :: manager.snapshots.created }
    return result

/-- `e2b::delete_snapshot`, with the provider's answer: `false` if it knows no such
snapshot. -/
def deleteSnapshot (snapshotId : String) (answer : Except BackendError Bool) : Managed Bool :=
  if isBlank snapshotId then throw (.invalidRequest "e2b snapshot id cannot be empty")
  else match answer with
    | .error error => throw error
    | .ok false => return false
    | .ok true => do
      modify fun manager => { manager with snapshots.deleted := snapshotId :: manager.snapshots.deleted }
      return true

/-! ### Checkpoints -/

def entry (backendId : String) : Managed BackendInstanceEntry := do
  match (← get).backends.get? backendId with
  | some entry => return entry
  | none => throw (.notFound backendId)

structure BackendCheckpointRequest where
  backendId : Option String := none
  sessionId : Option String := none
  name : Option String := none
  metadata : String := "null"

structure BackendCheckpointResult where
  checkpoint : BackendCheckpointRef
  reused : Bool

def resolveCheckpointBackendId (backendId sessionId : Option String) : Except BackendError String := do
  let byBackend := backendId.filter (!isBlank ·)
  let bySession ← match sessionId.filter (!isBlank ·) with
    | none => pure none
    | some sessionId => match state.sessionIndex.get? sessionId with
      | none => throw (.notFound ("session:" ++ sessionId))
      | some backendId => pure (some backendId)
  match byBackend, bySession with
  | some backendId, some sessionBackendId =>
    if backendId ≠ sessionBackendId then
      throw (.conflict ("backend_id " ++ backendId ++ " does not match session_id backend " ++ sessionBackendId))
    else return backendId
  | some backendId, none => return backendId
  | none, some backendId => return backendId
  | none, none => throw (.invalidRequest "checkpoint requires backend_id or session_id")

/-- What `checkpoint_backend` gets from outside. -/
structure CheckpointEnv where
  nowMs : ℕ := 0
  uuid : String := ""
  snapshot : Except BackendError E2bSnapshotResult := .error .needsEviction

/-- The id of the snapshot, if the provider makes one. -/
def CheckpointEnv.snapshotIds (env : CheckpointEnv) : List String :=
  match env.snapshot with
  | .error _ => []
  | .ok result => [result.snapshotId]

/-- The snapshot that `checkpoint_backend` has made: backends of other kinds than e2b
have none. -/
def snapshotBackend (kind : String) (answer : Except BackendError E2bSnapshotResult) :
    Managed (Option String × List String) :=
  if kind = "e2b" then do
    let snapshot ← createSnapshot answer
    return (some snapshot.snapshotId, snapshot.names)
  else return (none, [])

def checkpointBackend (request : BackendCheckpointRequest) (env : CheckpointEnv) :
    Managed BackendCheckpointResult := do
  let backendId ← (resolveCheckpointBackendId (← get).toBackendManagerState request.backendId
    request.sessionId : Managed String)
  let source ← entry backendId
  match source.dirtyTracker with
  | ⟨false, some checkpoint⟩ => return { checkpoint, reused := true }
  | _ =>
    let (providerSnapshotId, providerSnapshotNames) ← snapshotBackend source.config.kind env.snapshot
    let checkpoint : BackendCheckpointRef :=
      { checkpointId := "bcp_" ++ env.uuid
        provider := source.config.kind
        sourceBackendId := some backendId
        providerSnapshotId
        providerSnapshotNames
        workspaceRoot := source.workspaceRoot
        name := request.name
        metadata := request.metadata
        createdAtMs := env.nowMs
        providerOptions := source.config.options }
    -- the backend is looked up again: the lock was released for the provider
    let _ ← entry backendId
    lockedModify (·.track backendId (·.setCheckpoint checkpoint))
    return { checkpoint, reused := false }

structure BackendCheckpointSnapshotDeleteResult where
  checkpointId : String
  provider : String
  providerSnapshotId : Option String
  providerSnapshotNames : List String
  deleted : Bool

/-- `delete_checkpoint_snapshot` of the manager. Of all trackers that may name the
snapshot, only that of the backend the checkpoint was made of is cleared, if it holds
this checkpoint. -/
def deleteCheckpointSnapshot (answer : Except BackendError Bool) :
    Managed BackendCheckpointSnapshotDeleteResult := do
  let result (deleted : Bool) : BackendCheckpointSnapshotDeleteResult :=
    { checkpointId := checkpoint.checkpointId
      provider := checkpoint.provider
      providerSnapshotId := checkpoint.providerSnapshotId
      providerSnapshotNames := checkpoint.providerSnapshotNames
      deleted }
  match checkpoint.providerSnapshotId with
  | none => return result false
  | some snapshotId =>
    if checkpoint.provider ≠ "e2b" then throw (.unsupportedBackend (checkpoint.provider ++ ":delete_snapshot"))
    let deleted ← deleteSnapshot snapshotId answer
    match checkpoint.sourceBackendId with
    | none => pure ()
    | some sourceBackendId =>
      lockedModify (·.track sourceBackendId (·.clearCheckpointIfMatches checkpoint.checkpointId))
    return result deleted

/-! ### Backends come and go -/

/-- `requested_backend_id`, with the id made for a request without one. -/
def requestedBackendId (backendId : Option String) (newBackendId : String) : Except BackendError String :=
  match backendId with
  | some backendId =>
    if isBlank backendId then .error (.invalidRequest "backend_id cannot be empty") else .ok backendId
  | none => .ok newBackendId

structure BackendCheckoutRequest where
  checkpoint : BackendCheckpointRef
  backendId : Option String := none
  sessionId : Option String := none

/-- What `checkout_backend` gets from outside: the new id, whether the sandbox counter
gives a place (`needs_eviction` if the limit is reached), and the sandbox that the
provider builds. -/
structure CheckoutEnv where
  uuid : String := ""
  reserved : Except BackendError Unit := .ok ()
  built : Except BackendError (String × String) := .error .needsEviction

/-- Why a checkout cannot have the ids it asks for. -/
def checkoutConflict (sessionId : Option String) : Except BackendError Unit :=
  if (state.backends.get? backendId).isSome then
    throw (.conflict ("backend_id " ++ backendId ++ " already exists"))
  else match sessionId with
    | none => return
    | some sessionId => match state.sessionIndex.get? sessionId with
      | none => return
      | some existing =>
        throw (.conflict ("session_id " ++ sessionId ++ " is already bound to backend_id " ++ existing))

/-- `checkout_backend`. The new backend starts clean, with the checkpoint it is made
from in its tracker. -/
def checkoutBackend (request : BackendCheckoutRequest) (env : CheckoutEnv) : Managed BackendInstance := do
  let unsupported := BackendError.unsupportedBackend (request.checkpoint.provider ++ ":checkout")
  if request.checkpoint.providerSnapshotId = none then throw unsupported
  if request.checkpoint.provider ≠ "e2b" then throw unsupported
  let backendId ← (requestedBackendId request.backendId ("bkd_" ++ env.uuid) : Managed String)
  (checkoutConflict (← get).toBackendManagerState backendId request.sessionId : Managed Unit)
  (env.reserved : Managed Unit)
  let (instanceId, description) ← (env.built : Managed (String × String))
  -- checked again: the lock was released for the provider
  (checkoutConflict (← get).toBackendManagerState backendId request.sessionId : Managed Unit)
  let entry : BackendInstanceEntry :=
    { backendInstance := { backendId, instanceId, sessionId := request.sessionId.getD backendId, description }
      config := ⟨"e2b", request.checkpoint.providerOptions⟩
      workspaceRoot := request.checkpoint.workspaceRoot
      sessionIds := request.sessionId.toList
      dirtyTracker := ({} : BackendDirtyTracker).setCheckpoint request.checkpoint }
  lockedModify (·.bind backendId request.sessionId entry)
  return entry.backendInstance

/-- The end of `ensure_session_backend`, for a session without a backend: a new backend
with nothing in its tracker. -/
def createSessionBackend (sessionId backendId : String) (entry : BackendInstanceEntry) : Managed Unit := do
  match (← get).sessionIndex.get? sessionId with
  | some _ => return
  | none => lockedModify (·.bind backendId (some sessionId) { entry with dirtyTracker := {} })

def leaseBoundSession (sessionId : String) : Managed BackendInstance := do
  match (← get).sessionIndex.get? sessionId with
  | none => throw (.notFound ("session:" ++ sessionId))
  | some backendId => return (← entry backendId).backendInstance

/-- The end of `finalize_removal`: the provider deletes the backend, or says why not. -/
def deleteBackendInstance (error : String → ε) : Option String → Prog BackendManager ε Unit
  | none => return
  | some message => throw (error message)

def releaseSession (sessionId : String) (refused : Option String) : Prog BackendManager String Unit := do
  match ← locked (·.releaseSession sessionId) with
  | none => return
  | some _ => deleteBackendInstance id refused

def evictBackendById (refused : Option String) : Managed Unit := do
  match ← locked (·.evict backendId) with
  | none => throw (.notFound backendId)
  | some _ => deleteBackendInstance .operation refused

/-! ### References -/

/-- The snapshots that a checkpoint names: one or none. -/
def BackendCheckpointRef.snapshots : Set String :=
  {s | checkpoint.providerSnapshotId = some s}

def BackendManagerState.Tracks : Prop :=
  ∃ entry, state.backends.get? backendId = some entry ∧ entry.dirtyTracker.checkpoint = some checkpoint

/-- All snapshots that are held elsewhere or named by a tracker are live, `deleted`
being those deleted so far. -/
structure AllLive (deleted : List String) (held : Set String) (manager : BackendManager) : Prop where
  deleted_eq : manager.snapshots.deleted = deleted
  created : ∀ s ∈ deleted, s ∈ manager.snapshots.created
  held_live : ∀ s ∈ held, manager.snapshots.Live s
  tracked_live : ∀ {backendId checkpoint}, manager.Tracks backendId checkpoint →
    ∀ s ∈ checkpoint.snapshots, manager.snapshots.Live s

variable {s : BackendManagerState} {manager manager' : BackendManager} {deleted : List String}
    {held held' : Set String}
  {backendId backendId' : String} {checkpoint : BackendCheckpointRef}

theorem AllLive.anti (h : AllLive deleted held manager) (hsb : held' ⊆ held) : AllLive deleted held' manager :=
  ⟨h.deleted_eq, h.created, fun s hs => h.held_live s (hsb hs), h.tracked_live⟩

/-- A change that moves references about, and brings in none that is not held. -/
theorem AllLive.of_tracks (h : AllLive deleted held manager) (hsn : manager'.snapshots = manager.snapshots)
    (ht : ∀ {backendId checkpoint}, manager'.Tracks backendId checkpoint →
      (∃ backendId', manager.Tracks backendId' checkpoint) ∨ checkpoint.snapshots ⊆ held) :
    AllLive deleted held manager' := by
  refine ⟨hsn ▸ h.deleted_eq, hsn ▸ h.created, hsn ▸ h.held_live, ?_⟩
  intro backendId checkpoint htr s hs
  rw [hsn]
  rcases ht htr with ⟨_, ho⟩ | hh
  · exact h.tracked_live ho s hs
  · exact h.held_live s (hh hs)

theorem tracks_modifyEntry {f : BackendInstanceEntry → BackendInstanceEntry}
    (h : (s.modifyEntry backendId f).Tracks backendId' checkpoint) :
    backendId' ≠ backendId ∧ s.Tracks backendId' checkpoint ∨
      ∃ e, s.backends.get? backendId = some e ∧ backendId' = backendId ∧
        (f e).dirtyTracker.checkpoint = some checkpoint := by
  obtain ⟨e, he, hc⟩ := h
  rw [BackendManagerState.modifyEntry, get?_modify] at he
  split_ifs at he with hid
  · obtain ⟨o, ho, rfl⟩ := Option.map_eq_some_iff.mp he
    exact .inr ⟨o, hid ▸ ho, hid, hc⟩
  · exact .inl ⟨hid, e, he, hc⟩

variable {e : BackendInstanceEntry}

theorem tracks_insert {si : SortedMap String String}
    (h : BackendManagerState.Tracks ⟨s.backends.insert backendId e, si⟩ backendId' checkpoint) :
    e.dirtyTracker.checkpoint = some checkpoint ∨ s.Tracks backendId' checkpoint := by
  obtain ⟨f, hf, hc⟩ := h
  rw [get?_insert] at hf
  split_ifs at hf with hid
  · cases hf
    exact .inl hc
  · exact .inr ⟨f, hf, hc⟩

theorem tracks_erase {si : SortedMap String String}
    (h : BackendManagerState.Tracks ⟨s.backends.erase backendId, si⟩ backendId' checkpoint) :
    s.Tracks backendId' checkpoint := by
  obtain ⟨f, hf, hc⟩ := h
  rw [get?_erase] at hf
  split_ifs at hf with hid
  exact ⟨f, hf, hc⟩

theorem tracks_evict (h : (s.evict backendId).2.Tracks backendId' checkpoint) : s.Tracks backendId' checkpoint := by
  rw [BackendManagerState.evict] at h
  split at h
  · exact h
  · exact tracks_erase h

variable {i : String}

theorem tracks_releaseSession (h : (s.releaseSession i).2.Tracks backendId' checkpoint) :
    ∃ backendId, s.Tracks backendId checkpoint := by
  rw [BackendManagerState.releaseSession] at h
  split at h
  · exact ⟨_, h⟩
  · next backendId _ =>
    dsimp only at h
    split at h
    · exact ⟨_, h⟩
    · next e he =>
      split_ifs at h
      · exact ⟨_, tracks_erase h⟩
      · rcases tracks_insert h with hc | ho
        · exact ⟨backendId, e, he, hc⟩
        · exact ⟨_, ho⟩

/-! ### What the functions do with references -/

section Triples

variable {P : BackendManager → Prop}

theorem triple_entry : Triple P (entry backendId)
    (fun entry manager => manager.backends.get? backendId = some entry ∧ P manager) P := by
  refine triple_get_bind fun manager hP => ?_
  cases he : manager.backends.get? backendId with
  | none => exact triple_throw fun _ h => h ▸ hP
  | some => exact triple_pure fun _ h => h ▸ ⟨he, hP⟩

/-- What is done under the lock may move references about, and bring in those that are
held. -/
theorem preserves_locked {ε α : Type} {f : BackendManagerState → α × BackendManagerState}
    (hf : ∀ {s backendId checkpoint}, (f s).2.Tracks backendId checkpoint →
      (∃ backendId', s.Tracks backendId' checkpoint) ∨ checkpoint.snapshots ⊆ held) :
    Preserves (AllLive deleted held) (locked f : Prog BackendManager ε α) :=
  triple_modifyGet fun _ h => h.of_tracks rfl hf

theorem triple_createSnapshot {a : Except BackendError E2bSnapshotResult}
    (hf : ∀ r, a = .ok r → r.snapshotId ∉ deleted) : Triple (AllLive deleted held) (createSnapshot a)
      (fun r => AllLive deleted (insert r.snapshotId held)) (AllLive deleted held) := by
  cases a with
  | error => exact triple_throw fun _ h => h
  | ok r =>
    refine triple_bind (triple_modify fun manager h => ?_) fun _ => triple_pure fun _ h => h
    have hl : ∀ s, manager.snapshots.Live s → Snapshots.Live
        { manager.snapshots with created := r.snapshotId :: manager.snapshots.created } s :=
      fun s hs => ⟨List.mem_cons_of_mem _ hs.1, hs.2⟩
    refine ⟨h.deleted_eq, fun s hs => List.mem_cons_of_mem _ (h.created s hs), ?_, fun ht s hs => ?_⟩
    · rintro s (rfl | hs)
      · exact ⟨List.mem_cons_self, h.deleted_eq ▸ hf r rfl⟩
      · exact hl s (h.held_live s hs)
    · exact hl s (h.tracked_live ht s hs)

theorem triple_snapshotBackend {k : String} {a : Except BackendError E2bSnapshotResult}
    (hf : ∀ r, a = .ok r → r.snapshotId ∉ deleted) : Triple (AllLive deleted held) (snapshotBackend k a)
      (fun sn => AllLive deleted (held ∪ {s | sn.1 = some s})) (AllLive deleted held) := by
  refine triple_ite (fun _ => ?_) fun _ => ?_
  · refine triple_bind (triple_createSnapshot hf) fun r => triple_pure fun manager h => h.anti ?_
    rintro s (hs | hs)
    · exact .inr hs
    · cases hs
      exact .inl rfl
  · exact triple_pure fun manager h => h.anti (by simp)

/-- A checkpoint, new or reused, names a live snapshot if it names any. -/
theorem triple_checkpointBackend {request : BackendCheckpointRequest} {env : CheckpointEnv}
    (hf : ∀ s ∈ env.snapshotIds, s ∉ deleted) : Triple (AllLive deleted held) (checkpointBackend request env)
      (fun result => AllLive deleted (held ∪ result.checkpoint.snapshots)) (AllLive deleted held) := by
  have hf : ∀ result, env.snapshot = .ok result → result.snapshotId ∉ deleted :=
    fun result hr => hf _ (by simp [CheckpointEnv.snapshotIds, hr])
  refine triple_get_bind fun manager h => ?_
  refine triple_bind (triple_lift (Q := fun _ => AllLive deleted held) ?_ ?_) fun backendId => ?_
  · exact fun _ _ _ hs => hs ▸ h
  · exact fun _ hs => hs ▸ h
  refine triple_bind triple_entry fun source => ?_
  split
  · next checkpoint htr =>
    refine triple_pure fun manager h => ?_
    obtain ⟨hsr, hl⟩ := h
    refine ⟨hl.deleted_eq, hl.created, ?_, hl.tracked_live⟩
    rintro s (hs | hs)
    · exact hl.held_live s hs
    · exact hl.tracked_live ⟨source, hsr, by rw [htr]⟩ s hs
  · refine triple_bind ((triple_snapshotBackend hf).conseq (fun _ h => h.2) (fun _ _ h => h) fun _ h => h)
      fun snapshot => ?_
    refine triple_bind (triple_entry.conseq (fun _ h => h) (fun _ _ h => h.2) fun _ h =>
      h.anti Set.subset_union_left)
      fun _ => ?_
    refine triple_bind ((preserves_locked fun ht => ?_).imp_error fun _ h => h.anti Set.subset_union_left)
      fun _ => triple_pure fun _ h => h
    rcases tracks_modifyEntry ht with ⟨_, ho⟩ | ⟨_, _, _, hst⟩
    · exact .inl ⟨_, ho⟩
    · cases hst
      exact .inr Set.subset_union_right

/-- A new backend may name a snapshot that is held. -/
theorem preserves_bind {ε : Type} {i : Option String}
    (he : ∀ {checkpoint}, e.dirtyTracker.checkpoint = some checkpoint → checkpoint.snapshots ⊆ held) :
    Preserves (AllLive deleted held) (lockedModify (·.bind backendId i e) : Prog BackendManager ε Unit) := by
  refine preserves_locked fun ht => ?_
  rcases tracks_insert ht with hn | ho
  · exact .inr (he hn)
  · exact .inl ⟨_, ho⟩

/-- A checkout of a held checkpoint adds a reference to its snapshot. -/
theorem preserves_checkoutBackend {r : BackendCheckoutRequest} {e : CheckoutEnv}
    (hh : r.checkpoint.snapshots ⊆ held) :
    Preserves (AllLive deleted held) (checkoutBackend r e) := by
  refine preserves_unless fun _ => ?_
  refine preserves_unless fun _ => ?_
  refine (preserves_lift _).bind fun backendId => preserves_get_bind fun _ _ => ?_
  refine (preserves_lift _).bind fun _ => (preserves_lift _).bind fun _ => (preserves_lift _).bind fun b => ?_
  refine preserves_get_bind fun _ _ => (preserves_lift _).bind fun _ => ?_
  refine Preserves.bind (preserves_bind ?_) fun _ => preserves_pure _
  rintro checkpoint hs
  cases hs
  exact hh

theorem preserves_createSessionBackend : Preserves (AllLive deleted held) (createSessionBackend i backendId e) := by
  refine preserves_get_bind fun manager _ => ?_
  cases manager.sessionIndex.get? i with
  | some => exact preserves_pure _
  | none =>
    refine preserves_bind ?_
    rintro checkpoint ⟨⟩

theorem preserves_leaseBoundSession {sessionId : String} : Preserves P (leaseBoundSession sessionId) := by
  refine preserves_get_bind fun manager _ => ?_
  cases manager.sessionIndex.get? sessionId with
  | none => exact preserves_throw _
  | some => exact triple_bind triple_entry fun _ => triple_pure fun _ h => h.2

theorem preserves_deleteBackendInstance {ε : Type} (error : String → ε) (r : Option String) :
    Preserves P (deleteBackendInstance error r) := by
  cases r with
  | none => exact preserves_pure _
  | some => exact preserves_throw _

theorem preserves_releaseSession {r : Option String} : Preserves (AllLive deleted held) (releaseSession i r) := by
  refine (preserves_locked fun ht => .inl (tracks_releaseSession ht)).bind fun rm => ?_
  cases rm with
  | none => exact preserves_pure _
  | some => exact preserves_deleteBackendInstance id r

theorem preserves_evictBackendById {r : Option String} :
    Preserves (AllLive deleted held) (evictBackendById backendId r) := by
  refine (preserves_locked fun ht => .inl ⟨_, tracks_evict ht⟩).bind fun rm => ?_
  cases rm with
  | none => exact preserves_throw _
  | some => exact preserves_deleteBackendInstance BackendError.operation r

/-- The tracker that deleting the snapshot of a checkpoint clears. -/
def Cleared (checkpoint : BackendCheckpointRef) (backendId : String) (tracked : BackendCheckpointRef) : Prop :=
  checkpoint.sourceBackendId = some backendId ∧ tracked.checkpointId = checkpoint.checkpointId

/-- Between the deletion and the clearing: all references are live but for those of the
tracker that is to be cleared. -/
structure LiveButCleared (checkpoint : BackendCheckpointRef) (held : Set String)
    (manager : BackendManager) : Prop where
  created : ∀ s ∈ manager.snapshots.deleted, s ∈ manager.snapshots.created
  held_live : ∀ s ∈ held, manager.snapshots.Live s
  tracked_live : ∀ {backendId tracked}, manager.Tracks backendId tracked → ¬ Cleared checkpoint backendId tracked →
    ∀ s ∈ tracked.snapshots, manager.snapshots.Live s

theorem AllLive.butCleared (h : AllLive deleted held manager) : LiveButCleared checkpoint held manager :=
  ⟨h.deleted_eq ▸ h.created, h.held_live, fun ht _ => h.tracked_live ht⟩

theorem LiveButCleared.allLive (h : LiveButCleared checkpoint held manager)
    (hn : ∀ {backendId tracked}, manager.Tracks backendId tracked → ¬ Cleared checkpoint backendId tracked) :
    AllLive manager.snapshots.deleted held manager :=
  ⟨rfl, h.created, h.held_live, fun ht => h.tracked_live ht (hn ht)⟩

theorem checkpoint_clearCheckpointIfMatches {t : BackendDirtyTracker} {checkpointId : String}
    (h : (t.clearCheckpointIfMatches checkpointId).checkpoint = some checkpoint) :
    t.checkpoint = some checkpoint ∧ checkpoint.checkpointId ≠ checkpointId := by
  rw [BackendDirtyTracker.clearCheckpointIfMatches] at h
  split_ifs at h with hm
  exact ⟨h, fun hid => hm (by simp [h, hid])⟩

theorem LiveButCleared.clear (h : LiveButCleared checkpoint held manager)
    (hs : checkpoint.sourceBackendId = some backendId) : AllLive manager.snapshots.deleted held
      { manager with
        toBackendManagerState := manager.track backendId (·.clearCheckpointIfMatches checkpoint.checkpointId) } := by
  refine ⟨rfl, h.created, h.held_live, fun ht => ?_⟩
  rcases tracks_modifyEntry ht with ⟨hne, ho⟩ | ⟨e, he, _, hch⟩
  · refine h.tracked_live ho fun hc => hne ?_
    exact Option.some.inj (hc.1.symm.trans hs)
  · obtain ⟨ho, hne⟩ := checkpoint_clearCheckpointIfMatches hch
    exact h.tracked_live ⟨e, he, ho⟩ fun hc => hne hc.2

/-- What has to hold of the trackers before the snapshot of a checkpoint is deleted: the
one that is cleared is the only one to name it. -/
def OnlyCleared (checkpoint : BackendCheckpointRef) (manager : BackendManager) : Prop :=
  ∀ backendId tracked, manager.Tracks backendId tracked →
    (∃ s ∈ checkpoint.snapshots, s ∈ tracked.snapshots) → Cleared checkpoint backendId tracked

theorem triple_deleteSnapshot {s : String} {a : Except BackendError Bool} (hs : s ∈ checkpoint.snapshots)
    (hh : s ∈ held) (ho : held' ⊆ held) (hu : a = .ok true → s ∉ held') :
    Triple (fun manager => AllLive deleted held manager ∧ (a = .ok true → OnlyCleared checkpoint manager))
      (deleteSnapshot s a) (fun _ => LiveButCleared checkpoint held') (AllLive deleted held) := by
  refine triple_ite (fun _ => triple_throw fun _ h => h.1) fun _ => ?_
  rcases a with error | _ | _
  · exact triple_throw fun _ h => h.1
  · exact triple_pure fun _ h => (h.1.anti ho).butCleared
  · refine triple_bind (triple_modify fun manager h => ?_) fun _ => triple_pure fun _ h => h
    obtain ⟨h, hon⟩ := h
    -- the other snapshots stay live
    have hl : ∀ s', s' ≠ s → manager.snapshots.Live s' →
        Snapshots.Live { manager.snapshots with deleted := s :: manager.snapshots.deleted } s' :=
      fun s' hne hs' => ⟨hs'.1, by simpa [hne] using hs'.2⟩
    refine ⟨?_, fun s' hs' => hl s' ?_ (h.held_live s' (ho hs')), fun ht hc s' hs' => ?_⟩
    · intro s' hs'
      rcases List.mem_cons.mp hs' with rfl | hs'
      · exact (h.held_live s' hh).1
      · exact h.created s' (h.deleted_eq ▸ hs')
    · rintro rfl
      exact hu rfl hs'
    · refine hl s' ?_ (h.tracked_live ht s' hs')
      rintro rfl
      exact hc (hon rfl _ _ ht ⟨s', hs, hs'⟩)

/-- Deleting the snapshot of a checkpoint keeps all other references live, if no tracker
but the one that is cleared names it. -/
theorem triple_deleteCheckpointSnapshot {a : Except BackendError Bool} (hh : checkpoint.snapshots ⊆ held)
    (ho : held' ⊆ held) (hu : a = .ok true → ∀ s ∈ checkpoint.snapshots, s ∉ held') :
    Triple (fun manager => AllLive deleted held manager ∧ (a = .ok true → OnlyCleared checkpoint manager))
      (deleteCheckpointSnapshot checkpoint a)
      (fun _ manager => AllLive manager.snapshots.deleted held' manager) (AllLive deleted held) := by
  rw [deleteCheckpointSnapshot]
  cases hs : checkpoint.providerSnapshotId with
  | none =>
    refine triple_pure fun manager h => ?_
    exact h.1.deleted_eq.symm ▸ h.1.anti ho
  | some s =>
    refine triple_ite (fun _ => triple_throw fun _ h => h.1) fun _ => ?_
    refine triple_bind (triple_deleteSnapshot hs (hh hs) ho ?_) fun _ => ?_
    · exact fun ha => hu ha s hs
    cases hsr : checkpoint.sourceBackendId with
    | none =>
      refine triple_pure fun _ h => ?_
      exact h.allLive fun _ hc => nomatch hsr.symm.trans hc.1
    | some =>
      refine triple_bind (triple_modifyGet fun manager h => ?_) fun _ => triple_pure fun _ h => h
      exact h.clear hsr

end Triples

end XiaoO.Backend
