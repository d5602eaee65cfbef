import XiaoO.Backend.Checkpoint
import XiaoO.Subagent.Coordinator

/-!
# The record of a session

`SessionRecord` (`shared/src/gateway/session_record.rs`) is what a session
supervisor holds in memory, under its mutex, and what it saves to the session store.
The changes below are the bodies of the critical sections of
`session_supervisor.rs`, `session_backend.rs` and `session_store.rs`: each is a pure
function of the record, the time it reads and its arguments.

Snapshots that no modelled function looks into (loop states, memories, tool
manifests, model configurations) are their serialised texts. The fields that no
modelled function reads or writes (the roles, the bootstrap binding, the creation
times of lanes) are left out.
-/

namespace XiaoO.Gateway

open XiaoO.Base XiaoO.Subagent XiaoO.Backend

/-! ### The record -/

inductive SessionLifecycleStatus where
  | idle
  | running
  | paused
  | failed
  | closed
  deriving DecidableEq

inductive GatewayEntryKind where
  | channel
  | tui
  | httpApi
  | scheduledJob
  | cli
  | mcp
  deriving DecidableEq

structure GatewayEntryContext where
  kind : Option GatewayEntryKind := none
  instanceId : Option String := none
  runtimeProfileId : Option String := none
  buildTags : List String := []
  deriving DecidableEq

/-- The parts of `SessionRuntimeSnapshot` that a resolved runtime's descriptor
provides. -/
structure RuntimeDescriptor where
  agentId : AgentId
  model : String := ""
  llm : Option String := none
  systemPrompt : String := ""
  featureFlags : String := ""
  tokenBudget : String := ""
  workspaceRoot : String := ""
  maxTurns : Option ℕ := none
  deriving DecidableEq

structure SessionRuntimeSnapshot extends RuntimeDescriptor where
  toolManifest : Option String := none
  deriving DecidableEq

/-- What a lane carries from turn to turn: its loop state, memory and tool
manifest. -/
structure LaneState where
  loopState : Option String := none
  memorySnapshot : Option String := none
  toolManifest : Option String := none
  deriving DecidableEq

structure SessionAgentRecord extends LaneState where
  lastError : Option String := none
  updatedAtMs : ℕ := 0
  deriving DecidableEq

structure SessionRecord where
  sessionId : String
  conversationId : String := ""
  senderId : String := ""
  entry : GatewayEntryContext := {}
  channel : Option String := none
  channelInstanceId : Option String := none
  status : SessionLifecycleStatus := .idle
  runtime : SessionRuntimeSnapshot
  backendInstance : Option BackendInstance := none
  pausedBackendCheckpoint : Option BackendCheckpointRef := none
  loopState : Option String := none
  memorySnapshot : Option String := none
  agents : SortedMap AgentId SessionAgentRecord := .empty
  subagentState : SubagentSessionState := {}
  lastError : Option String := none
  parentRuntimeId : Option String := none
  forkedFromCheckpointId : Option String := none
  createdAtMs : ℕ := 0
  updatedAtMs : ℕ := 0
  deriving DecidableEq

/-! ### Turns and lanes -/

/-- What a root turn brings: the parts of `AppTurnRequest` that are copied to the
session, and the descriptor of the resolved runtime. -/
structure RootTurn where
  conversationId : String := ""
  senderId : String := ""
  entry : GatewayEntryContext := {}
  channel : Option String := none
  channelInstanceId : Option String := none
  descriptor : RuntimeDescriptor
  deriving DecidableEq

variable (session : SessionRecord) (agentId : AgentId) {s t : SessionRecord}

namespace SessionRecord

/-- The critical section of `prepare_root_turn`. -/
def prepareRootTurn (turn : RootTurn) (nowMs : ℕ) : SessionRecord :=
  { session with
    conversationId := turn.conversationId
    senderId := turn.senderId
    entry := turn.entry
    channel := turn.channel
    channelInstanceId := turn.channelInstanceId
    runtime := { session.runtime with toRuntimeDescriptor := turn.descriptor }
    updatedAtMs := nowMs }

/-- The critical section of `set_session_status`. -/
def setStatus (status : SessionLifecycleStatus) (lastError : Option String) (nowMs : ℕ) : SessionRecord :=
  { session with status, lastError, updatedAtMs := nowMs }

/-- The critical section of `force_close`. -/
def close (nowMs : ℕ) : SessionRecord :=
  { session with status := .closed, updatedAtMs := nowMs }

/-- The state of a lane: the session's own for the root agent, the lane record's for
every other agent. -/
def lane? : Option LaneState :=
  if agentId = session.runtime.agentId then
    some ⟨session.loopState, session.memorySnapshot, session.runtime.toolManifest⟩
  else (session.agents.get? agentId).map (·.toLaneState)

/-- The critical section of `persist_lane_state`; nothing is changed if the lane is
missing. -/
def persistLaneState (lane : LaneState) (lastError : Option String) (nowMs : ℕ) : Option SessionRecord :=
  if agentId = session.runtime.agentId then
    some { session with
      loopState := lane.loopState
      memorySnapshot := lane.memorySnapshot
      runtime := { session.runtime with toolManifest := lane.toolManifest }
      lastError
      updatedAtMs := nowMs }
  else (session.agents.get? agentId).map fun _ => { session with
    agents := session.agents.modify agentId fun _ => { lane with lastError, updatedAtMs := nowMs }
    updatedAtMs := nowMs }

/-- `sync_session_backend_instance` and the time of the change; nothing if the session
has the leased instance already. -/
def syncBackendInstance (leased : BackendInstance) (nowMs : ℕ) : Option SessionRecord :=
  if session.backendInstance = some leased then none
  else some { session with backendInstance := some leased, updatedAtMs := nowMs }

/-! ### Subagents -/

/-- The critical section of `join_subagent`. -/
def joinSubagent (request : JoinSubagentRequest) (nowMs : ℕ) (joinId : String) :
    Except SubagentControlError (SessionRecord × JoinDecision) := do
  let (subagentState, decision) ← join session.subagentState request nowMs joinId
  return ({ session with subagentState, updatedAtMs := nowMs }, decision)

/-- The critical section of `mark_subagent_terminal`. The record of the lane is changed
before the coordinator is asked, and stays changed when the coordinator refuses. -/
def markSubagentTerminal (terminal : SubagentTerminalSnapshot)
    (lastError : Option String) : SessionRecord × Except SubagentControlError (List HostAction) :=
  match session.agents.get? agentId with
  | none => (session, .error (.agentNotFound agentId))
  | some _ =>
    let session := { session with
      agents := session.agents.modify agentId fun record =>
        { record with lastError, updatedAtMs := terminal.completedAtMs } }
    match onTerminal session.subagentState agentId terminal with
    | .error error => (session, .error error)
    | .ok (subagentState, actions) =>
      ({ session with subagentState, updatedAtMs := terminal.completedAtMs }, .ok actions)

theorem joinSubagent_ok {rq : JoinSubagentRequest} {nowMs : ℕ} {j : String}
    {d : JoinDecision} (h : s.joinSubagent rq nowMs j = .ok (t, d)) :
    ∃ subagentState, join s.subagentState rq nowMs j = .ok (subagentState, d) ∧
      t = { s with subagentState, updatedAtMs := nowMs } := by
  rw [joinSubagent] at h
  cases hj : join s.subagentState rq nowMs j with
  | error => simp [hj, bind, Except.bind] at h
  | ok r =>
    simp only [hj, bind, Except.bind, pure, Except.pure, Except.ok.injEq, Prod.mk.injEq] at h
    obtain ⟨rfl, rfl⟩ := h
    exact ⟨r.1, rfl, rfl⟩

/-- The end of an agent is refused if the agent has no lane, with no change, or if the
coordinator does not know it. -/
theorem markSubagentTerminal_error {a : AgentId} {tr : SubagentTerminalSnapshot}
    {l : Option String} {error : SubagentControlError} (h : s.markSubagentTerminal a tr l = (t, .error error)) :
    s.agents.get? a = none ∧ t = s ∨ (s.agents.get? a).isSome ∧ s.subagentState.agents.get? a = none ∧
        t.subagentState = s.subagentState := by
  rw [markSubagentTerminal] at h
  split at h
  · next hl =>
    cases h
    exact .inl ⟨hl, rfl⟩
  · next hl =>
    dsimp only at h
    split at h
    · next hr =>
      cases h
      refine .inr ⟨by simp [hl], ?_, rfl⟩
      rw [onTerminal] at hr
      split at hr
      · assumption
      · cases hr
    · cases h

theorem markSubagentTerminal_ok {agentId : AgentId} {terminal : SubagentTerminalSnapshot}
    {l : Option String} {acs : List HostAction} (h : s.markSubagentTerminal agentId terminal l = (t, .ok acs)) :
    t.subagentState = recordTerminal s.subagentState agentId terminal ∧
      ∃ x, acs = .enqueueMailboxItem x :: wakeActions s.subagentState agentId terminal := by
  rw [markSubagentTerminal] at h
  split at h
  · cases h
  · dsimp only at h
    split at h
    · cases h
    · next he =>
      cases h
      exact onTerminal_ok he

/-- The critical section of the host action `EnqueueMailboxItem`. -/
def enqueueMailboxItem (item : SubagentMailboxItem) (nowMs : ℕ) : SessionRecord :=
  { session with
    subagentState := { session.subagentState with mailbox := session.subagentState.mailbox ++ [item] }
    updatedAtMs := nowMs }

/-! ### Eviction -/

/-- What `batch_mark_paused_due_to_eviction` makes of a stored record. -/
def markPausedDueToEviction (checkpoint : Option BackendCheckpointRef) (nowMs : ℕ) : SessionRecord :=
  { session with
    status := .paused
    backendInstance := none
    pausedBackendCheckpoint := checkpoint
    lastError := none
    updatedAtMs := nowMs }

/-- `is_local_mcp` of `lease_session_backend`, for the kind of the configured backend. -/
def isLocalMcp (operationBackend : Option String) : Bool :=
  session.entry.kind = some .mcp && operationBackend.getD "local" = "local"

end SessionRecord

end XiaoO.Gateway
