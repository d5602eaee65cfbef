import XiaoO.Gateway.SessionRecord

/-!
# Checkpoints of runtimes

A runtime is a session with its backend. The session service
(`shared/src/gateway/session_service_impl.rs`) checkpoints, pauses, resumes and checks
out runtimes and deletes the snapshots of checkpoints; the checkpoints are kept by
`InMemoryRuntimeCheckpointStore` (`shared/src/runtime_checkpoint.rs`).

## The model

The operations of the service are programs over `Service`. They run one after the
other; between them, turns may leave sessions, handles and backends in any state
(`Operation.turn`, `Operation.write`, `Operation.ensure`). A service starts with the
sessions of its store and nothing else.

What comes from outside is an argument: the clock, new ids, the answers of the provider
and the sandbox counter, and what the shared registry shows when a checkout has to
evict a backend. Session hooks are left out.
-/

namespace XiaoO.Gateway.Runtimes

open XiaoO.Base XiaoO.Backend

/-! ### The store of checkpoints -/

structure RuntimeCheckpoint where
  checkpointId : String
  runtimeId : String
  parentCheckpointId : Option String
  createdAtMs : ℕ
  metadata : String
  name : Option String
  session : SessionRecord
  backendCheckpoint : Option BackendCheckpointRef

/-- `RuntimeCheckpointStoreState`. -/
structure RuntimeCheckpointStore where
  checkpoints : SortedMap String RuntimeCheckpoint := .empty
  runtimeHeads : SortedMap String String := .empty
  pausedRuntimeHeads : SortedMap String String := .empty

variable (store : RuntimeCheckpointStore) (runtimeId checkpointId : String)

namespace RuntimeCheckpointStore

def latestForRuntime : Option String :=
  store.runtimeHeads.get? runtimeId

def save (checkpoint : RuntimeCheckpoint) : RuntimeCheckpointStore :=
  { store with
    runtimeHeads := store.runtimeHeads.insert checkpoint.runtimeId checkpoint.checkpointId
    checkpoints := store.checkpoints.insert checkpoint.checkpointId checkpoint }

def load : Option RuntimeCheckpoint :=
  store.checkpoints.get? checkpointId

def registerRuntimeHead : RuntimeCheckpointStore :=
  { store with runtimeHeads := store.runtimeHeads.insert runtimeId checkpointId }

def registerPausedRuntime : RuntimeCheckpointStore :=
  { store with pausedRuntimeHeads := store.pausedRuntimeHeads.insert runtimeId checkpointId }

def pausedCheckpointForRuntime : Option String :=
  store.pausedRuntimeHeads.get? runtimeId

def clearPausedRuntime : RuntimeCheckpointStore :=
  { store with pausedRuntimeHeads := store.pausedRuntimeHeads.erase runtimeId }

/-- `clear_backend_snapshot`: the names of the snapshot in one checkpoint. -/
def clearBackendSnapshot : RuntimeCheckpointStore :=
  { store with
    checkpoints := store.checkpoints.modify checkpointId fun checkpoint =>
      { checkpoint with
        backendCheckpoint := checkpoint.backendCheckpoint.map fun backendCheckpoint =>
          { backendCheckpoint with providerSnapshotId := none, providerSnapshotNames := [] } } }

end RuntimeCheckpointStore

/-! ### The service -/

inductive SessionPhase where
  | idle
  | running
  | paused
  | closing
  | closed
  deriving DecidableEq

/-- `SessionHandle`: its status, and the record that its actor answers with, if the actor
is there to answer. -/
structure SessionHandle where
  phase : SessionPhase := .idle
  queueDepth : ℕ := 0
  actor : Option SessionRecord

/-- `SessionServiceError`, as far as the operations return it. -/
inductive SessionServiceError where
  | sessionNotFound (sessionId : String)
  | sessionBusy (sessionId message : String)
  | sessionClosed (sessionId : String)
  | runtimeBuild (message : String)
  | runtimeShutdown (message : String)
  | unsupportedCapability (capability : String)

/-- What the operations read and change. -/
structure Service where
  sessionStore : SortedMap String SessionRecord := .empty
  sessionsHandler : SortedMap String SessionHandle := .empty
  backendManager : BackendManager := {}
  runtimeCheckpoints : RuntimeCheckpointStore := {}

abbrev Served := Prog Service SessionServiceError

def manager {ε ε' α : Type} (f : ε → ε') (m : Prog BackendManager ε α) : Prog Service ε' α :=
  Prog.within (·.backendManager) (fun service backendManager => { service with backendManager }) f m

def checkpoints (f : RuntimeCheckpointStore → RuntimeCheckpointStore) : Served Unit :=
  modify fun service => { service with runtimeCheckpoints := f service.runtimeCheckpoints }

variable (session : SessionRecord)

/-- `session_store.save`. -/
def saveSession : Served Unit :=
  modify fun service => { service with sessionStore := service.sessionStore.insert session.sessionId session }

def getOrCreateSessionHandle : Served Unit :=
  modify fun service => match service.sessionsHandler.get? session.sessionId with
    | some _ => service
    | none => { service with
      sessionsHandler := service.sessionsHandler.insert session.sessionId { actor := some session } }

def idleSessionSnapshot (sessionId : String) : Served SessionRecord := do
  let service ← get
  let busy := SessionServiceError.sessionBusy sessionId "runtime must be idle before checkpoint or checkout"
  match service.sessionsHandler.get? sessionId with
  | some handle =>
    if handle.phase ≠ .idle ∨ 0 < handle.queueDepth then throw busy
    else match handle.actor with
      | some session => return session
      | none => throw (.sessionClosed sessionId)
  | none => match service.sessionStore.get? sessionId with
    | none => throw (.sessionNotFound sessionId)
    | some session => if session.status = .running then throw busy else return session

def mapBackendError (context sessionId : String) : BackendError → SessionServiceError
  | .resourceLimitExceeded message => .sessionBusy sessionId message
  | error => .runtimeBuild (context ++ ": " ++ error.display)

structure RuntimeRecord where
  runtimeId : String
  conversationId : String
  senderId : String
  status : SessionLifecycleStatus
  createdAtMs : ℕ
  updatedAtMs : ℕ

def RuntimeRecord.fromSession : RuntimeRecord :=
  ⟨session.sessionId, session.conversationId, session.senderId, session.status, session.createdAtMs,
    session.updatedAtMs⟩

/-! ### Checkpoint and pause -/

/-- `RuntimeCheckpointRequest` and `RuntimePauseRequest`. -/
structure RuntimeCheckpointRequest where
  runtimeId : String
  metadata : String := "null"
  name : Option String := none

/-- What a checkpoint gets from outside. -/
structure RuntimeCheckpointEnv where
  backend : CheckpointEnv := {}
  uuid : String := ""
  nowMs : ℕ := 0

structure RuntimeCheckpointResult where
  checkpointId : String
  runtime : RuntimeRecord
  parentCheckpointId : Option String
  createdAtMs : ℕ
  metadata : String
  name : Option String

/-- The checkpoint of the backend of a session, if the session has a backend. -/
def checkpointSessionBackend (context : String) (session : SessionRecord) (request : RuntimeCheckpointRequest)
    (env : CheckpointEnv) : Served (Option BackendCheckpointRef) :=
  match session.backendInstance with
  | none => return none
  | some parentBackend => do
    let result ← manager (fun error => .runtimeBuild (context ++ ": " ++ error.display)) (checkpointBackend
      { backendId := some parentBackend.backendId
        sessionId := some request.runtimeId
        name := request.name
        metadata := request.metadata } env)
    return some result.checkpoint

/-- `checkpoint_runtime_internal`. -/
def checkpointRuntime (request : RuntimeCheckpointRequest) (env : RuntimeCheckpointEnv) :
    Served RuntimeCheckpointResult := do
  let session ← idleSessionSnapshot request.runtimeId
  let backendCheckpoint ←
    checkpointSessionBackend "failed to checkpoint runtime backend" session request env.backend
  let parentCheckpointId := (← get).runtimeCheckpoints.latestForRuntime request.runtimeId
  let checkpointId := "rtcp_" ++ env.uuid
  checkpoints (·.save
    { checkpointId
      runtimeId := request.runtimeId
      parentCheckpointId
      createdAtMs := env.nowMs
      metadata := request.metadata
      name := request.name
      session
      backendCheckpoint })
  return { checkpointId, runtime := .fromSession session, parentCheckpointId, createdAtMs := env.nowMs,
           metadata := request.metadata, name := request.name }

structure RuntimePauseResult where
  runtime : RuntimeRecord
  checkpointId : String
  createdAtMs : ℕ
  metadata : String
  name : Option String

/-- `pause_runtime_internal`. The provider may refuse to delete the sandbox. -/
def pauseRuntime (request : RuntimeCheckpointRequest) (env : RuntimeCheckpointEnv) (refused : Option String) :
    Served RuntimePauseResult := do
  let session ← idleSessionSnapshot request.runtimeId
  if session.status = .closed then throw (.sessionClosed request.runtimeId)
  if session.status = .paused then throw (.sessionBusy request.runtimeId "runtime is already paused")
  let backendCheckpoint ←
    checkpointSessionBackend "failed to checkpoint runtime backend before pause" session request env.backend
  manager (fun error => .runtimeShutdown ("failed to release runtime backend during pause: " ++ error))
    (releaseSession request.runtimeId refused)
  let checkpointId := "rtcp_" ++ env.uuid
  let parentCheckpointId := (← get).runtimeCheckpoints.latestForRuntime request.runtimeId
  let paused := { session with
    status := .paused
    backendInstance := none
    lastError := none
    updatedAtMs := env.nowMs }
  checkpoints (·.save
    { checkpointId
      runtimeId := request.runtimeId
      parentCheckpointId
      createdAtMs := env.nowMs
      metadata := request.metadata
      name := request.name
      session := paused
      backendCheckpoint })
  checkpoints (·.registerPausedRuntime request.runtimeId checkpointId)
  saveSession paused
  modify fun service => { service with sessionsHandler := service.sessionsHandler.erase request.runtimeId }
  return { runtime := .fromSession paused, checkpointId, createdAtMs := env.nowMs, metadata := request.metadata,
           name := request.name }

/-! ### Checkout and resume -/

/-- An evictable entry of the shared registry, as `try_evict_if_needed` finds it. -/
inductive Candidate where
  /-- A backend of this process: what its checkpoint gets from outside, if one is made
  before eviction, and why the provider refuses to delete the sandbox, if it does. -/
  | own (backendId : String) (sessionIds : List String) (checkpoint : Option CheckpointEnv) (refused : Option String)
      (nowMs : ℕ)
  /-- A backend of a process that is presumed dead: it is reclaimed. -/
  | orphan
  /-- A backend of another process: it is marked for eviction. -/
  | remote (backendId : String)

/-- What `try_evict_if_needed` sees: a failing counter or registry, the count, a mark
that is set already, and the evictable entries, oldest first. -/
structure EvictionView where
  refused : Option BackendError := none
  belowLimit : Bool := false
  alreadyMarked : Bool := false
  candidates : List Candidate := []

/-- `create_checkpoint_for_eviction`, if the limits ask for it. -/
def createCheckpointForEviction (backendId : String) :
    Option CheckpointEnv → Prog Service BackendError (Option BackendCheckpointRef)
  | none => return none
  | some env => do
    match ← Prog.attempt (manager id (checkpointBackend
      { backendId := some backendId
        name := some ("eviction-" ++ backendId)
        metadata := "\x7b\"reason\":\"eviction\"\x7d" } env)) with
    | .ok result => return some result.checkpoint
    | .error _ => return none

def batchMarkPausedDueToEviction (sessionIds : List String) (checkpoint : Option BackendCheckpointRef) (nowMs : ℕ) :
    Prog Service BackendError Unit :=
  modify fun service => { service with
    sessionStore := sessionIds.foldl
      (fun store sessionId => store.modify sessionId (·.markPausedDueToEviction checkpoint nowMs))
        service.sessionStore }

/-- The loop of `try_evict_if_needed` over the evictable entries. -/
def evictFirst : List Candidate → Prog Service BackendError (Option String)
  | [] => throw .needsEviction
  | .own backendId sessionIds env refused nowMs :: rest => do
    let checkpoint ← createCheckpointForEviction backendId env
    match ← Prog.attempt (manager id (evictBackendById backendId refused)) with
    | .ok () =>
      batchMarkPausedDueToEviction sessionIds checkpoint nowMs
      return none
    | .error (.notFound _) => evictFirst rest
    | .error error => throw error
  | .orphan :: _ => return none
  | .remote backendId :: _ => return some backendId

def tryEvictIfNeeded (view : EvictionView) : Prog Service BackendError (Option String) :=
  match view.refused with
  | some error => throw error
  | none =>
    if view.belowLimit then return none
    else if view.alreadyMarked then throw .needsEviction
    else evictFirst view.candidates

/-- One attempt to check out a backend, and the eviction after it. -/
structure CheckoutAttempt where
  checkout : CheckoutEnv
  eviction : EvictionView := {}

/-- `checkout_backend_with_eviction`, for a runtime checkout. There is one attempt for
each of `max_eviction_attempts`. -/
def checkoutBackendWithEviction (sessionId : String) (checkpoint : BackendCheckpointRef) :
    List CheckoutAttempt → Served BackendInstance
  | [] => throw (.sessionBusy sessionId
      "checkout runtime backend failed: sandbox limit reached and no idle sandbox to evict")
  | attempt :: rest => do
    match ← Prog.attempt (manager id
      (checkoutBackend { checkpoint, sessionId := some sessionId } attempt.checkout)) with
    | .ok _ =>
      manager (fun error => .runtimeBuild ("failed to lease checked out backend: " ++ error.display))
        (leaseBoundSession sessionId)
    | .error .needsEviction =>
      match ← Prog.attempt (tryEvictIfNeeded attempt.eviction) with
      | .ok _ => checkoutBackendWithEviction sessionId checkpoint rest
      | .error .needsEviction => checkoutBackendWithEviction sessionId checkpoint rest
      | .error error => throw (mapBackendError "checkout runtime backend eviction" sessionId error)
    | .error error => throw (mapBackendError "checkout runtime backend" sessionId error)

def loadCheckpoint (missing : SessionServiceError) : Served RuntimeCheckpoint := do
  match (← get).runtimeCheckpoints.load checkpointId with
  | some checkpoint => return checkpoint
  | none => throw missing

/-- The backend checked out of a runtime checkpoint, if it has a backend checkpoint. -/
def checkedOut (checkpoint : RuntimeCheckpoint) (checkout : BackendCheckpointRef → Served BackendInstance) :
    Served (Option BackendInstance) :=
  match checkpoint.backendCheckpoint with
  | none => return none
  | some backendCheckpoint => do
    let backendInstance ← checkout backendCheckpoint
    return some backendInstance

structure RuntimeCheckoutRequest where
  checkpointId : String
  conversationId : Option String := none
  senderId : Option String := none

/-- What a checkout gets from outside. -/
structure RuntimeCheckoutEnv where
  uuid : String := ""
  attempts : List CheckoutAttempt := []
  nowMs : ℕ := 0

structure RuntimeCheckoutResult where
  checkpointId : String
  sourceRuntimeId : String
  runtime : RuntimeRecord

/-- `checkout_runtime_internal`. -/
def checkoutRuntime (request : RuntimeCheckoutRequest) (env : RuntimeCheckoutEnv) :
    Served RuntimeCheckoutResult := do
  let checkpoint ← loadCheckpoint request.checkpointId (.sessionNotFound ("checkpoint:" ++ request.checkpointId))
  let _ ← idleSessionSnapshot checkpoint.runtimeId
  let childRuntimeId := checkpoint.runtimeId ++ ":checkout:" ++ env.uuid
  if ((← get).sessionStore.get? childRuntimeId).isSome then
    throw (.sessionBusy childRuntimeId "generated runtime already exists")
  let backendInstance ← checkedOut checkpoint fun backendCheckpoint =>
    checkoutBackendWithEviction childRuntimeId backendCheckpoint env.attempts
  let child := { checkpoint.session with
    sessionId := childRuntimeId
    parentRuntimeId := some checkpoint.runtimeId
    forkedFromCheckpointId := some checkpoint.checkpointId
    conversationId := request.conversationId.getD checkpoint.session.conversationId
    senderId := request.senderId.getD checkpoint.session.senderId
    status := .idle
    backendInstance
    lastError := none
    createdAtMs := env.nowMs
    updatedAtMs := env.nowMs }
  saveSession child
  checkpoints (·.registerRuntimeHead child.sessionId checkpoint.checkpointId)
  getOrCreateSessionHandle child
  return { checkpointId := checkpoint.checkpointId, sourceRuntimeId := checkpoint.runtimeId,
           runtime := .fromSession child }

/-- The backend of a runtime that is resumed. There is no eviction here: a full pool is an
error. -/
def resumeBackend (checkpoint : BackendCheckpointRef) (env : CheckoutEnv) : Served BackendInstance := do
  let _ ← manager (mapBackendError "failed to resume runtime backend" runtimeId)
    (checkoutBackend { checkpoint, sessionId := some runtimeId } env)
  manager (fun error => .runtimeBuild ("failed to lease resumed backend: " ++ error.display))
    (leaseBoundSession runtimeId)

/-- `resume_runtime_internal`. -/
def resumeRuntime (env : CheckoutEnv) (nowMs : ℕ) : Served RuntimeRecord := do
  match (← get).sessionStore.get? runtimeId with
  | none => throw (.sessionNotFound runtimeId)
  | some session =>
    if session.status = .closed then throw (.sessionClosed runtimeId)
    if session.status ≠ .paused then throw (.sessionBusy runtimeId "runtime is not paused")
    match (← get).runtimeCheckpoints.pausedCheckpointForRuntime runtimeId with
    | none => throw (.runtimeBuild ("paused runtime " ++ runtimeId ++ " has no checkpoint"))
    | some checkpointId =>
      let checkpoint ← loadCheckpoint checkpointId
        (.runtimeBuild ("paused runtime checkpoint not found: " ++ checkpointId))
      let backendInstance ← checkedOut checkpoint (resumeBackend runtimeId · env)
      let session := { session with status := .idle, backendInstance, lastError := none, updatedAtMs := nowMs }
      saveSession session
      checkpoints (·.clearPausedRuntime runtimeId)
      checkpoints (·.registerRuntimeHead session.sessionId checkpointId)
      getOrCreateSessionHandle session
      return .fromSession session

/-! ### Deleting a snapshot -/

structure RuntimeCheckpointSnapshotDeleteResult where
  checkpointId : String
  runtimeId : String
  provider : Option String
  providerSnapshotId : Option String
  providerSnapshotNames : List String
  deletedProviderSnapshot : Bool
  deletedAtMs : ℕ

/-- How a refusal of the manager is reported. -/
def deleteError : BackendError → SessionServiceError
  | .unsupportedBackend kind => .unsupportedCapability ("delete_checkpoint_snapshot:" ++ kind)
  | error => .runtimeBuild ("failed to delete checkpoint backend snapshot: " ++ error.display)

/-- `delete_checkpoint_snapshot_internal`. -/
def deleteCheckpointSnapshot (checkpointId : String) (answer : Except BackendError Bool) (nowMs : ℕ) :
    Served RuntimeCheckpointSnapshotDeleteResult := do
  let checkpoint ← loadCheckpoint checkpointId (.sessionNotFound ("checkpoint:" ++ checkpointId))
  match checkpoint.backendCheckpoint with
  | none =>
    return { checkpointId := checkpoint.checkpointId, runtimeId := checkpoint.runtimeId, provider := none,
             providerSnapshotId := none, providerSnapshotNames := [], deletedProviderSnapshot := false,
             deletedAtMs := nowMs }
  | some backendCheckpoint =>
    let delete ← manager deleteError (Backend.deleteCheckpointSnapshot backendCheckpoint answer)
    checkpoints (·.clearBackendSnapshot checkpointId)
    return { checkpointId, runtimeId := checkpoint.runtimeId, provider := some backendCheckpoint.provider,
             providerSnapshotId := backendCheckpoint.providerSnapshotId,
             providerSnapshotNames := backendCheckpoint.providerSnapshotNames,
             deletedProviderSnapshot := delete.deleted, deletedAtMs := nowMs }

/-! ### Runs -/

inductive Operation where
  | checkpoint (request : RuntimeCheckpointRequest) (env : RuntimeCheckpointEnv)
  | checkout (request : RuntimeCheckoutRequest) (env : RuntimeCheckoutEnv)
  | deleteSnapshot (checkpointId : String) (answer : Except BackendError Bool) (nowMs : ℕ)
  | pause (request : RuntimeCheckpointRequest) (env : RuntimeCheckpointEnv) (refused : Option String)
  | resume (runtimeId : String) (env : CheckoutEnv) (nowMs : ℕ)
  /-- A turn or another call leaves a session in some state. -/
  | turn (session : SessionRecord) (handle : Option SessionHandle)
  /-- A backend is written to. -/
  | write (backendId : String)
  /-- A session without a backend gets one. -/
  | ensure (sessionId backendId : String) (entry : BackendInstanceEntry)

def Operation.program : Operation → Served Unit
  | .checkpoint request env => do let _ ← checkpointRuntime request env
  | .checkout request env => do let _ ← checkoutRuntime request env
  | .deleteSnapshot checkpointId answer nowMs => do let _ ← deleteCheckpointSnapshot checkpointId answer nowMs
  | .pause request env refused => do let _ ← pauseRuntime request env refused
  | .resume runtimeId env nowMs => do let _ ← resumeRuntime runtimeId env nowMs
  | .turn session handle => do
    saveSession session
    modify fun service => { service with
      sessionsHandler := match handle with
        | none => service.sessionsHandler.erase session.sessionId
        | some handle => service.sessionsHandler.insert session.sessionId handle }
  | .write backendId => manager id (lockedModify (·.track backendId (·.markDirty)))
  | .ensure sessionId backendId entry =>
    manager (mapBackendError "failed to lease session backend" sessionId)
      (createSessionBackend sessionId backendId entry)

def start (sessions : SortedMap String SessionRecord) : Service := { sessionStore := sessions }

def step (service : Service) (operation : Operation) : Option Service := some (operation.program.exec service).2

end XiaoO.Gateway.Runtimes
