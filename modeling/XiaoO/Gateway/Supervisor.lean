import XiaoO.Base.Threads
import XiaoO.Gateway.SessionRecord

/-!
# The session supervisor

`SessionSupervisor` (`shared/src/gateway/session_supervisor.rs`) keeps one session in
memory under a mutex, the waiters of pending joins under a second one, and saves clones
of the session to the session store. Its operations are asynchronous: between two
critical sections, and between a critical section and the save of its clone, any other
operation may run.

## The model

A call is the list of the instructions it has still to carry out. An instruction is
one critical section of the session mutex (`SessionInstr`), one critical section of the
mutex of the pending joins (`JoinInstr`), one access to the session store, or a step
that changes nothing shared (`FlowInstr`); it is atomic, and may put further instructions
in front of the rest of the call. An error ends the call, but the error of a lane
(`run_lane_until_terminal`) goes to the close gate of its task (`spawn_subagent_task`),
for which the lane leaves a frame in its list. Everything that comes from outside (the
clock, fresh ids, what resolvers, backends and models answer, cancellation) is the
input `Env` of a step, so a run of `step` is one interleaving of the calls in one
environment.

A save replaces the store's record of the session: no operation changes the id of the
session. Two fields of `Shared` are not state of the program but its history: `sent`,
the snapshots sent to the waiter of a join, and `owed`, the checkpoint that an eviction
wrote to the store and no lease has restored from yet.

Reports to the backend registry and events to sinks are left out, and so is spawning: a
lane is a call that may start at any time.
-/

namespace XiaoO.Gateway

open XiaoO.Base XiaoO.Subagent XiaoO.Backend List Option Function

/-! ### Calls -/

/-- `SubagentControlError`, or the text of a `SessionServiceError`. -/
inductive CallError where
  | control (error : SubagentControlError)
  | service (message : String)

def coreRun (message : String) : CallError := .service ("core runtime execution failed: " ++ message)

/-- The three loads at the start of a lane. -/
inductive LaneField where
  | loopState
  | memorySnapshot
  | toolManifest
  deriving DecidableEq

/-- The message of `load_lane_loop_state`, `load_lane_memory_snapshot` and
`load_lane_tool_manifest` for an agent without a lane. -/
def LaneField.missing (field : LaneField) (agentId : AgentId) : String :=
  let name := match field with
    | .loopState => "lane state"
    | .memorySnapshot => "memory state"
    | .toolManifest => "tool manifest state"
  "missing " ++ name ++ " for agent '" ++ agentId ++ "'"

/-- A critical section of the session mutex. -/
inductive SessionInstr where
  | ensureSessionMatch (sessionId : String)
  | readSessionId
  | join (request : JoinSubagentRequest)
  | markTerminal (agentId : AgentId) (terminal : SubagentTerminalSnapshot) (lastError : Option String)
  | enqueueMailboxItem (item : SubagentMailboxItem)
  | persist (agentId : AgentId) (lane : LaneState) (lastError : Option String)
  | setStatus (status : SessionLifecycleStatus) (lastError : Option String)
  | prepareRootTurn (turn : RootTurn)
  | close
  | loadLane (field : LaneField) (agentId : AgentId)
  | leaseSnapshot
  | syncBackend (leased : BackendInstance)
  deriving DecidableEq

/-- A critical section of the mutex of the pending joins. -/
inductive JoinInstr where
  | register (joinId : String)
  | wake (joinId : String) (terminal : SubagentTerminalSnapshot)
  | takeReceiver (joinId : String)
  | remove (joinId : String)
  deriving DecidableEq

/-- A step that changes nothing that is shared: the control flow of a lane, and the wait
of `force_close`. -/
inductive FlowInstr where
  /-- The task of a lane starts. -/
  | laneStart (agentId : AgentId)
  /-- The head of the loop of `run_lane_until_terminal`. -/
  | laneLoop (agentId : AgentId)
  /-- `SessionWorker::run`. -/
  | worker (agentId : AgentId)
  /-- A lane gives up. -/
  | fail (message : String)
  /-- A lane waits for the joins it is suspended on. -/
  | awaitJoins (agentId : AgentId) (lane : LaneState) (joinIds : List String)
  /-- The frame of `run_lane_until_terminal` in its task. -/
  | laneFrame (agentId : AgentId)
  /-- The close gate, with the result of the lane. -/
  | gate (agentId : AgentId) (result : Except String SubagentTerminalSnapshot)
  /-- `drain_lane_tasks`, which ends when the lanes have ended or at its deadline. -/
  | drainLanes
  deriving DecidableEq

inductive Instr where
  | session (instr : SessionInstr)
  | joins (instr : JoinInstr)
  | flow (instr : FlowInstr)
  /-- `session_store.save`. -/
  | save (record : SessionRecord)
  /-- `batch_mark_paused_due_to_eviction`, for this session. -/
  | evict (checkpoint : Option BackendCheckpointRef)
  /-- `lease_backend_for_lane` reads the store. -/
  | leaseLoad (snapshot : SessionRecord)
  /-- `lease_session_backend`. -/
  | leaseSession (snapshot : SessionRecord)
  /-- `force_close` cancels the close token. -/
  | cancelClose
  deriving DecidableEq

def hostInstr : HostAction → Instr
  | .suspendWaiter joinId _ _ => .joins (.register joinId)
  | .wakeWaiter joinId _ terminal => .joins (.wake joinId terminal)
  | .enqueueMailboxItem item => .session (.enqueueMailboxItem item)

/-- A call: what it has still to do, the decision it got on its join, and its error. -/
structure Call where
  todo : List Instr
  answer : Option JoinSubagentResult := none
  error : Option CallError := none

/-- What follows an instruction: instructions before the rest of the call, with a
decision on a join or without; other instructions in place of the rest; or an
error. -/
inductive Next where
  | goOn (push : List Instr)
  | decide (result : JoinSubagentResult) (push : List Instr)
  | leave (todo : List Instr)
  | fail (error : CallError)

/-- The frame that catches the error of a lane. -/
def frame? (todo : List Instr) : Option AgentId :=
  todo.findSome? fun
    | .flow (.laneFrame agentId) => some agentId
    | _ => none

def Call.after (call : Call) (rest : List Instr) : Next → Call
  | .goOn push => { call with todo := push ++ rest }
  | .decide result push => { call with todo := push ++ rest, answer := some result }
  | .leave todo => { call with todo }
  | .fail (.control error) => { call with todo := [], error := some (.control error) }
  | .fail (.service message) =>
    match frame? rest with
    | some agentId => { call with todo := [.flow (.gate agentId (.error message))] }
    | none => { call with todo := [], error := some (.service message) }

/-! ### The environment -/

/-- What the worker of a lane answers: an error, the end of the lane, or the joins (or
the unexpected tool) that it is suspended on. -/
inductive WorkerAnswer where
  | failed (message : String)
  | complete (lane : LaneState) (terminal : SubagentTerminalSnapshot)
  | suspended (lane : LaneState) (joinIds : Except String (List String))

/-- What a step depends on besides the state. -/
structure Env where
  nowMs : ℕ := 0
  /-- A new id for a join. -/
  joinId : String := ""
  /-- The error of the runtime resolver. -/
  failure : Option String := none
  /-- `lease_bound_session` finds a backend of the session. -/
  bound : Bool := true
  /-- The kind of the configured backend. -/
  operationBackend : Option String := none
  /-- What the backend manager leases. -/
  lease : Except String BackendInstance := .error ""
  worker : WorkerAnswer := .failed ""
  /-- The turn is cancelled. -/
  cancelled : Bool := false
  /-- The loop state with the results of the joins. -/
  resumed : String := ""

/-! ### The session mutex -/

/-- A critical section that changes the session and saves a clone of it. -/
def committed (session : SessionRecord) (push : List Instr) : SessionRecord × Next :=
  (session, .goOn (.save session :: push))

variable (env : Env)

/-- The critical sections of the session mutex. A join waits for an id that no join
has: ids are unique. -/
def onSession (session : SessionRecord) : SessionInstr → Option (SessionRecord × Next)
  | .ensureSessionMatch sessionId =>
    if session.sessionId = sessionId then some (session, .goOn [])
    else some (session, .fail (.control (.sessionMismatch session.sessionId sessionId)))
  | .readSessionId => some (session, .goOn [.session (.ensureSessionMatch session.sessionId)])
  | .join request =>
    if (session.subagentState.joins.get? env.joinId).isSome then none
    else match session.joinSubagent request env.nowMs env.joinId with
      | .error error => some (session, .fail (.control error))
      | .ok (session, decision) => some (session, .decide decision.result
          (.save session :: .session (.ensureSessionMatch request.sessionId) :: decision.actions.map hostInstr))
  | .markTerminal agentId terminal lastError =>
    match session.markSubagentTerminal agentId terminal lastError with
    | (session, .error error) => some (session, .fail (.control error))
    | (session, .ok actions) => some (committed session (.session .readSessionId :: actions.map hostInstr))
  | .enqueueMailboxItem item => some (committed (session.enqueueMailboxItem item env.nowMs) [])
  | .persist agentId lane lastError =>
    match session.persistLaneState agentId lane lastError env.nowMs with
    | none => some (session, .fail (coreRun (LaneField.loopState.missing agentId)))
    | some session => some (committed session [])
  | .setStatus status lastError => some (committed (session.setStatus status lastError env.nowMs) [])
  | .prepareRootTurn turn => some (committed (session.prepareRootTurn turn env.nowMs) [])
  | .close => some (committed (session.close env.nowMs) [])
  | .loadLane field agentId =>
    if (session.lane? agentId).isSome then some (session, .goOn [])
    else some (session, .fail (coreRun (field.missing agentId)))
  | .leaseSnapshot =>
    -- a session that believes in a backend it has lost asks the store
    if session.backendInstance.isSome && !env.bound then some (session, .goOn [.leaseLoad session])
    else some (session, .goOn [.leaseSession session])
  | .syncBackend leased =>
    match session.syncBackendInstance leased env.nowMs with
    | none => some (session, .goOn [])
    | some session => some (committed session [])

/-! ### The mutex of the pending joins -/

/-- `PendingJoinWaiter`: whether the sender and the receiver of the channel are still
there. -/
structure PendingJoinWaiter where
  sender : Bool
  receiver : Bool
  deriving DecidableEq

/-- The pending joins, and the snapshots sent to their waiters. -/
structure Waiters where
  pendingJoins : String → Option PendingJoinWaiter
  sent : String → List SubagentTerminalSnapshot

variable (waiters : Waiters)

/-- The critical sections of the mutex of the pending joins: `register_pending_join`,
`wake_waiter`, `take_join_receiver`, `remove_pending_join`. -/
def onJoins : JoinInstr → Waiters × Next
  | .register joinId =>
    match waiters.pendingJoins joinId with
    | some _ => (waiters, .fail (.control (.invalidState ("duplicate pending join registration: " ++ joinId))))
    | none => ({ waiters with
        pendingJoins := update waiters.pendingJoins joinId (some ⟨true, true⟩) }, .goOn [])
  | .wake joinId terminal =>
    match waiters.pendingJoins joinId with
    -- the waiter is taken to have given up: the wake is dropped
    | none => (waiters, .goOn [])
    | some waiter =>
      if waiter.sender then
        ({ pendingJoins := update waiters.pendingJoins joinId (some { waiter with sender := false })
           sent := update waiters.sent joinId (waiters.sent joinId ++ [terminal]) }, .goOn [])
      else (waiters, .fail (.control (.invalidState ("pending join sender already consumed: " ++ joinId))))
  | .takeReceiver joinId =>
    match waiters.pendingJoins joinId with
    | none => (waiters, .fail (coreRun ("missing pending join registration: " ++ joinId)))
    | some waiter =>
      if waiter.receiver then
        ({ waiters with
          pendingJoins := update waiters.pendingJoins joinId (some { waiter with receiver := false }) },
          .goOn [])
      else (waiters, .fail (coreRun ("pending join receiver already taken: " ++ joinId)))
  | .remove joinId =>
    ({ waiters with pendingJoins := update waiters.pendingJoins joinId none }, .goOn [])

/-- The channel of a join is settled: a snapshot was sent, or the sender is gone. -/
def Waiters.settled (joinId : String) : Bool :=
  waiters.sent joinId ≠ [] || waiters.pendingJoins joinId = none

/-! ### The flow of a lane -/

/-- What the answer of the worker leads to in `run_lane_until_terminal`. -/
def afterWorker (agentId : AgentId) : WorkerAnswer → Next
  | .failed message => .fail (.service message)
  | .complete lane terminal => .goOn [.session (.persist agentId lane none), .session (.persist agentId lane none),
      .flow (.gate agentId (.ok terminal))]
  | .suspended lane (.error message) => .goOn [.session (.persist agentId lane none), .flow (.fail message)]
  | .suspended lane (.ok joinIds) => .goOn (.session (.persist agentId lane none) ::
      (joinIds.map fun joinId => .joins (.takeReceiver joinId)) ++ [.flow (.awaitJoins agentId lane joinIds)])

/-- The close gate of `spawn_subagent_task`. -/
def closeGate (closeCancelled : Bool) (agentId : AgentId) (result : Except String SubagentTerminalSnapshot) : Next :=
  if closeCancelled then .leave []
  else match result with
    | .ok terminal => .leave [.session (.markTerminal agentId terminal none)]
    | .error message => .leave [.session (.markTerminal agentId
        { status := .failed, reply := none, error := some message, completedAtMs := env.nowMs } (some message))]

/-- The steps that change nothing that is shared. -/
def onFlow (closeCancelled : Bool) : FlowInstr → Option Next
  | .laneStart agentId =>
    if closeCancelled then some (.goOn [])
    else some (.goOn [.session (.loadLane .loopState agentId), .session (.loadLane .memorySnapshot agentId),
      .session (.loadLane .toolManifest agentId), .flow (.laneLoop agentId), .flow (.laneFrame agentId)])
  | .laneLoop agentId =>
    match env.failure with
    | some message => some (.fail (.service message))
    | none => some (.goOn [.session .leaseSnapshot, .flow (.worker agentId)])
  | .worker agentId => some (afterWorker agentId env.worker)
  | .fail message => some (.fail (coreRun message))
  | .awaitJoins agentId lane joinIds =>
    if env.cancelled || joinIds.all waiters.settled then
      some (.goOn ((joinIds.map fun joinId => .joins (.remove joinId)) ++
        [.session (.persist agentId { lane with loopState := some env.resumed } none), .flow (.laneLoop agentId)]))
    else none
  | .laneFrame _ => some (.goOn [])
  | .gate agentId result => some (closeGate env closeCancelled agentId result)
  | .drainLanes => some (.goOn [])

/-! ### Instructions -/

/-- What the calls of a supervisor share. -/
structure Shared where
  session : SessionRecord
  store : Option SessionRecord
  waiters : Waiters
  closeCancelled : Bool := false
  owed : Option BackendCheckpointRef := none

/-- The checkpoint that `lease_session_backend` restores a session from. -/
def restoredFrom (snapshot : SessionRecord) : Option BackendCheckpointRef :=
  if snapshot.status = .paused then snapshot.pausedBackendCheckpoint else none

/-- `lease_session_backend`: a paused session is restored from its checkpoint, and is
refused without one unless it is a local MCP session. -/
def leaseSession (owed : Option BackendCheckpointRef) (snapshot : SessionRecord) :
    Option BackendCheckpointRef × Next :=
  if snapshot.status = .paused && snapshot.pausedBackendCheckpoint.isNone &&
      !snapshot.isLocalMcp env.operationBackend then
    (owed, .fail (.service ("session busy: " ++ snapshot.sessionId ++
      ": session is paused and has no eviction checkpoint to resume from")))
  else match env.lease with
    | .error message => (owed, .fail (.service message))
    | .ok leased => (if owed = restoredFrom snapshot then none else owed, .goOn [.session (.syncBackend leased)])

/-- **One instruction** of a call; nothing if it has to wait. -/
def exec (shared : Shared) : Instr → Option (Shared × Next)
  | .session instr => (onSession env shared.session instr).map fun r => ({ shared with session := r.1 }, r.2)
  | .joins instr => let r := onJoins shared.waiters instr; some ({ shared with waiters := r.1 }, r.2)
  | .flow instr => (onFlow env shared.waiters shared.closeCancelled instr).map fun next => (shared, next)
  | .save record => some ({ shared with store := some record }, .goOn [])
  | .evict checkpoint =>
    match shared.store with
    | none => some (shared, .goOn [])
    | some record => some ({ shared with
        store := some (record.markPausedDueToEviction checkpoint env.nowMs)
        owed := checkpoint.or shared.owed }, .goOn [])
  | .leaseLoad snapshot => some (shared, .goOn [.leaseSession (shared.store.getD snapshot)])
  | .leaseSession snapshot =>
    let r := leaseSession env shared.owed snapshot
    some ({ shared with owed := r.1 }, r.2)
  | .cancelClose => some ({ shared with closeCancelled := true }, .goOn [])

/-! ### The machine -/

/-- The operations of a supervisor, a running lane, and the eviction of the session's
backend. -/
inductive Operation where
  | joinSubagent (request : JoinSubagentRequest)
  | markSubagentTerminal (agentId : AgentId) (terminal : SubagentTerminalSnapshot) (lastError : Option String)
  | persistLaneState (agentId : AgentId) (lane : LaneState) (lastError : Option String)
  | setSessionStatus (status : SessionLifecycleStatus) (lastError : Option String)
  | prepareRootTurn (turn : RootTurn)
  | leaseBackendForLane
  | lane (agentId : AgentId)
  | forceClose
  | evict (checkpoint : Option BackendCheckpointRef)

def Operation.program : Operation → List Instr
  | .joinSubagent request => [.session (.ensureSessionMatch request.sessionId), .session (.join request)]
  | .markSubagentTerminal agentId terminal lastError => [.session (.markTerminal agentId terminal lastError)]
  | .persistLaneState agentId state lastError => [.session (.persist agentId state lastError)]
  | .setSessionStatus status lastError => [.session (.setStatus status lastError)]
  | .prepareRootTurn turn => [.session (.prepareRootTurn turn)]
  | .leaseBackendForLane => [.session .leaseSnapshot]
  | .lane agentId => [.flow (.laneStart agentId)]
  | .forceClose => [.cancelClose, .flow .drainLanes, .session .close]
  | .evict checkpoint => [.evict checkpoint]

/-- A call carries out its next instruction. -/
def act (shared : Shared) (call : Call) : Option (Shared × Call) :=
  match call.todo with
  | [] => none
  | instr :: rest => (exec env shared instr).map fun r => (r.1, call.after rest r.2)

/-- A supervisor with its calls. -/
abbrev World (ι : Type) := Threads ι Shared Call

variable {ι : Type} [DecidableEq ι]

/-- A step: one call carries out an instruction in an environment. -/
def step : World ι → ι × Env → Option (World ι) := Threads.step act

/-- A supervisor that has just been made for a stored session, and the calls it gets. -/
def start (session : SessionRecord) (operations : ι → Operation) : World ι where
  shared := { session, store := some session, waiters := ⟨fun _ => none, fun _ => []⟩ }
  thread i := { todo := (operations i).program }

/-- The session of a root agent with one running subagent. -/
def delegatingSession : SessionRecord where
  sessionId := "s"
  runtime := { agentId := "root" }
  agents := SortedMap.empty.insert "scout" {}
  subagentState := { agents := SortedMap.empty.insert "scout" {
    agentId := "scout"
    parentAgentId := some "root"
    status := .running
    createdAtMs := 0
    updatedAtMs := 0
    lastTerminal := none } }

/-! ### What an instruction can do -/

@[simp] def Next.push : Next → List Instr
  | .goOn push => push
  | .decide _ push => push
  | .leave todo => todo
  | .fail _ => []

/-- The critical sections that change the session and save a clone. -/
def SessionInstr.saves : SessionInstr → Bool
  | .ensureSessionMatch _ | .readSessionId | .loadLane .. | .leaseSnapshot => false
  | _ => true

/-- The instructions that change the session and save a clone. -/
def Instr.clones : Instr → Bool
  | .session x => x.saves
  | _ => false

@[simp] def Instr.writesStore : Instr → Bool
  | .save _ | .evict _ => true
  | _ => false

/-- The join whose waiter an instruction wakes. -/
@[simp] def Instr.woken? : Instr → Option String
  | .joins (.wake joinId _) => some joinId
  | _ => none

/-- The join whose waiter an instruction registers. -/
@[simp] def Instr.registered? : Instr → Option String
  | .joins (.register joinId) => some joinId
  | _ => none

/-- An instruction that neither writes to the store nor hands over the result of a join. -/
structure Instr.Quiet (x : Instr) : Prop where
  store : x.writesStore = false
  woken : x.woken? = none
  registered : x.registered? = none

theorem quiet_session (x : SessionInstr) : (Instr.session x).Quiet := ⟨rfl, rfl, rfl⟩

theorem quiet_flow (x : FlowInstr) : (Instr.flow x).Quiet := ⟨rfl, rfl, rfl⟩

@[simp] theorem writesStore_session (x : SessionInstr) : (Instr.session x).writesStore = false := rfl

/-- What no critical section changes. -/
structure Keeps (s t : SessionRecord) : Prop where
  sessionId : t.sessionId = s.sessionId
  checkpoint : t.pausedBackendCheckpoint = s.pausedBackendCheckpoint

theorem Keeps.refl (s : SessionRecord) : Keeps s s := ⟨rfl, rfl⟩

variable {ns : ℕ} {s : SessionRecord} {e : Env} {next : Next} {y x : Instr} {t : Shared} {r : List Instr}
  {i : ι} {w : World ι}

theorem keeps_markSubagentTerminal (s : SessionRecord) (a : AgentId) (tr : SubagentTerminalSnapshot)
    (l : Option String) : Keeps s (s.markSubagentTerminal a tr l).1 := by
  rw [SessionRecord.markSubagentTerminal]
  split
  · exact .refl s
  · dsimp only
    split <;> exact ⟨rfl, rfl⟩

theorem keeps_persistLaneState {t : SessionRecord} {a : AgentId} {ln : LaneState} {l : Option String}
    (h : s.persistLaneState a ln l ns = some t) : Keeps s t ∧ t.subagentState = s.subagentState := by
  rw [SessionRecord.persistLaneState] at h
  split at h
  · cases h
    exact ⟨⟨rfl, rfl⟩, rfl⟩
  · obtain ⟨_, -, rfl⟩ := map_eq_some_iff.mp h
    exact ⟨⟨rfl, rfl⟩, rfl⟩

theorem keeps_syncBackendInstance {t : SessionRecord} {l : BackendInstance}
    (h : s.syncBackendInstance l ns = some t) : Keeps s t ∧ t.subagentState = s.subagentState := by
  rw [SessionRecord.syncBackendInstance] at h
  split at h
  · cases h
  · cases h
    exact ⟨⟨rfl, rfl⟩, rfl⟩

/-- A host action does not write to the store itself. -/
@[simp] theorem writesStore_hostInstr (a : HostAction) : (hostInstr a).writesStore = false := by
  cases a <;> rfl

/-- **The critical sections of the session mutex**: what they keep; that the first thing
after a change of the session is to save it, unless the coordinator refused the end of
an agent that has a lane; and that nothing else is written to the store. -/
theorem onSession_spec {t : SessionRecord} {x : SessionInstr} (h : onSession e s x = some (t, next)) : Keeps s t ∧
    (t = s ∨ next.push.head? = some (.save t) ∨ ∃ a tr l, x = .markTerminal a tr l ∧
      (s.agents.get? a).isSome ∧ s.subagentState.agents.get? a = none) ∧
    ∀ y ∈ next.push, y.writesStore = true → y = .save t ∧ x.saves = true := by
  cases x with rw [onSession] at h
  | ensureSessionMatch | loadLane | leaseSnapshot => split at h <;> cases h <;> exact ⟨.refl s, .inl rfl, by simp⟩
  | readSessionId =>
    cases h
    exact ⟨.refl s, .inl rfl, by simp⟩
  | join =>
    split at h
    · cases h
    · split at h
      · cases h
        exact ⟨.refl s, .inl rfl, by simp⟩
      · next hj =>
        cases h
        obtain ⟨st, -, rfl⟩ := SessionRecord.joinSubagent_ok hj
        exact ⟨⟨rfl, rfl⟩, .inr (.inl rfl), by simp [SessionInstr.saves, -Instr.writesStore]⟩
  | markTerminal a tr l =>
    have hk := keeps_markSubagentTerminal s a tr l
    split at h
    · next hm =>
      cases h
      rw [hm] at hk
      refine ⟨hk, ?_, by simp⟩
      rcases SessionRecord.markSubagentTerminal_error hm with ⟨-, rfl⟩ | ⟨hl, hu, -⟩
      · exact .inl rfl
      · exact .inr (.inr ⟨_, _, _, rfl, hl, hu⟩)
    · next hm =>
      cases h
      rw [hm] at hk
      exact ⟨hk, .inr (.inl rfl), by simp [SessionInstr.saves, -Instr.writesStore]⟩
  | persist =>
    split at h
    · cases h
      exact ⟨.refl s, .inl rfl, by simp⟩
    · next hp =>
      cases h
      exact ⟨(keeps_persistLaneState hp).1, .inr (.inl rfl), by simp [SessionInstr.saves]⟩
  | syncBackend =>
    split at h
    · cases h
      exact ⟨.refl s, .inl rfl, by simp⟩
    · next hs =>
      cases h
      exact ⟨(keeps_syncBackendInstance hs).1, .inr (.inl rfl), by simp [SessionInstr.saves]⟩
  | _ =>
    cases h
    exact ⟨⟨rfl, rfl⟩, .inr (.inl rfl), by simp [SessionInstr.saves]⟩

/-- The agent whose end an instruction records. -/
@[simp] def Instr.marked? : Instr → Option AgentId
  | .session (.markTerminal agentId _ _) => some agentId
  | _ => none

/-- The end of an agent that has a lane and that the coordinator does not know. -/
def refused (session : SessionRecord) (x : Instr) : Bool :=
  x.marked?.any fun agentId =>
    (session.agents.get? agentId).isSome && (session.subagentState.agents.get? agentId).isNone

theorem push_onJoins (ws : Waiters) (x : JoinInstr) : (onJoins ws x).2.push = [] := by
  cases x with
  | register =>
    rw [onJoins]
    split <;> rfl
  | wake | takeReceiver =>
    rw [onJoins]
    split
    · rfl
    · split <;> rfl
  | remove => rfl

theorem quiet_afterWorker {a : AgentId} {an : WorkerAnswer} (h : y ∈ (afterWorker a an).push) : y.Quiet := by
  rw [afterWorker.eq_def] at h
  split at h <;> simp at h
  · rcases h with rfl | rfl
    · exact quiet_session _
    · exact quiet_flow _
  · rcases h with rfl | rfl
    · exact quiet_session _
    · exact quiet_flow _
  · rcases h with rfl | ⟨j, -, rfl⟩ | rfl
    · exact quiet_session _
    · exact ⟨rfl, rfl, rfl⟩
    · exact quiet_flow _

/-- The flow of a lane leads to quiet instructions, and decides on no join. -/
theorem onFlow_spec {ws : Waiters} {c : Bool} {x : FlowInstr} (h : onFlow e ws c x = some next) :
    (∀ y ∈ next.push, y.Quiet) ∧ ∀ result push, next ≠ .decide result push := by
  cases x with
  | laneStart | laneLoop =>
    rw [onFlow] at h
    split at h <;> cases h <;> simp [quiet_session, quiet_flow]
  | worker =>
    cases h
    refine ⟨fun y => quiet_afterWorker, ?_⟩
    rw [afterWorker.eq_def]
    split <;> simp
  | awaitJoins =>
    rw [onFlow] at h
    split at h
    · cases h
      refine ⟨fun y hy => ?_, by simp⟩
      rcases mem_append.mp hy with hy | hy
      · obtain ⟨j, -, rfl⟩ := mem_map.mp hy
        exact ⟨rfl, rfl, rfl⟩
      · rcases mem_pair.mp hy with rfl | rfl
        · exact quiet_session _
        · exact quiet_flow _
    · cases h
  | gate =>
    cases h
    unfold closeGate
    split
    · simp
    · split <;> simp [quiet_session]
  | _ =>
    cases h
    simp

/-- A lease leads to quiet instructions, and restores what is owed or leaves it. -/
theorem leaseSession_spec (env : Env) (o : Option BackendCheckpointRef) (sn : SessionRecord) :
    (∀ y ∈ (leaseSession env o sn).2.push, y.Quiet) ∧
    (∀ rs p, (leaseSession env o sn).2 ≠ .decide rs p) ∧
    ((leaseSession env o sn).1 = o ∨ (leaseSession env o sn).1 = none) := by
  rw [leaseSession]
  split
  · exact ⟨by simp, by simp, .inl rfl⟩
  · split
    · exact ⟨by simp, by simp, .inl rfl⟩
    · refine ⟨by simp [quiet_session], by simp, ?_⟩
      split
      · exact .inr rfl
      · exact .inl rfl

/-- Outside the session mutex the session does not change and there is nothing to save. -/
theorem exec_unlocked {s : Shared} (h : exec e s x = some (t, next))
    (hx : ∀ y, x ≠ .session y) : t.session = s.session ∧ ∀ y ∈ next.push, y.Quiet := by
  cases x with
  | session y => exact absurd rfl (hx y)
  | joins =>
    cases h
    exact ⟨rfl, by simp [push_onJoins, -Next.push]⟩
  | flow =>
    obtain ⟨_, hf, heq⟩ := map_eq_some_iff.mp h
    cases heq
    exact ⟨rfl, (onFlow_spec hf).1⟩
  | evict =>
    rw [exec] at h
    split at h <;> cases h <;> exact ⟨rfl, by simp⟩
  | leaseLoad =>
    cases h
    refine ⟨rfl, fun y hy => ?_⟩
    cases mem_singleton.mp hy
    exact ⟨rfl, rfl, rfl⟩
  | leaseSession sn =>
    cases h
    exact ⟨rfl, (leaseSession_spec e s.owed sn).1⟩
  | save | cancelClose =>
    cases h
    exact ⟨rfl, by simp⟩

/-- **What an instruction does to the session**: the first thing after a change is to save
it, unless the coordinator refused the end of an agent that has a lane. -/
theorem exec_spec {s : Shared} (h : exec e s x = some (t, next)) : Keeps s.session t.session ∧
    (t.session = s.session ∨ next.push.head? = some (.save t.session) ∨ refused s.session x = true) ∧
    ∀ y ∈ next.push, y.writesStore = true → y = .save t.session ∧ x.clones = true := by
  by_cases hx : ∃ y, x = .session y
  · obtain ⟨y, rfl⟩ := hx
    obtain ⟨⟨t', next⟩, ho, heq⟩ := map_eq_some_iff.mp h
    cases heq
    obtain ⟨hk, hsa, hsv⟩ := onSession_spec ho
    refine ⟨hk, ?_, hsv⟩
    rcases hsa with hs | hh | ⟨a, tr, l, rfl, hl, hu⟩
    · exact .inl hs
    · exact .inr (.inl hh)
    · exact .inr (.inr (by simp [refused, hl, hu]))
  · obtain ⟨hs, hsv⟩ := exec_unlocked h (not_exists.mp hx)
    refine ⟨hs ▸ .refl _, .inl hs, fun z hz hw => ?_⟩
    rw [(hsv z hz).store] at hw
    cases hw

/-- The store changes by a save or by an eviction, and a checkpoint is owed from an eviction
until a lease restores from it. -/
theorem exec_store {s : Shared} (h : exec e s x = some (t, next)) :
    (∃ rc, x = .save rc ∧ t.store = some rc ∧ t.owed = s.owed) ∨
    (∃ c, x = .evict c ∧ next.push = [] ∧ t.store = s.store.map (·.markPausedDueToEviction c e.nowMs) ∧
      t.owed = if s.store.isSome then c.or s.owed else s.owed) ∨
    x.writesStore = false ∧ t.store = s.store ∧ (t.owed = s.owed ∨ t.owed = none) := by
  cases x with
  | session | flow =>
    obtain ⟨_, -, heq⟩ := map_eq_some_iff.mp h
    cases heq
    exact .inr (.inr ⟨rfl, rfl, .inl rfl⟩)
  | save rc =>
    cases h
    exact .inl ⟨rc, rfl, rfl, rfl⟩
  | evict c =>
    rw [exec] at h
    split at h <;> next hs => cases h; exact .inr (.inl ⟨c, rfl, rfl, by simp [hs], by simp [hs]⟩)
  | leaseSession sn =>
    cases h
    exact .inr (.inr ⟨rfl, rfl, (leaseSession_spec e s.owed sn).2.2⟩)
  | _ =>
    cases h
    exact .inr (.inr ⟨rfl, rfl, .inl rfl⟩)

/-! ### What a step can do -/

theorem head?_after {c : Call} (h : next.push.head? = some x) : (c.after r next).todo.head? = some x := by
  cases next with
  | fail => cases h
  | leave => exact h
  | goOn push | decide rs push => simp [Call.after, head?_append, show push.head? = some x from h]

/-- What a call has to do comes from the instruction or was to be done before, but for the
close gate that an error leads to. -/
theorem mem_after {c : Call} (h : x ∈ (c.after r next).todo) :
    x ∈ next.push ∨ x ∈ r ∨ ∃ a m, x = .flow (.gate a (.error m)) := by
  cases next with
  | goOn | decide => exact (mem_append.mp h).imp_right .inl
  | leave => exact .inl h
  | fail error =>
    cases error with
    | control => cases h
    | service =>
      rw [Call.after] at h
      split at h
      · exact .inr (.inr ⟨_, _, mem_singleton.mp h⟩)
      · cases h

theorem step_eq_some {v : World ι} :
    step w (i, e) = some v ↔ ∃ x r t next, (w.thread i).todo = x :: r ∧ exec e w.shared x = some (t, next) ∧
      v = w.put i t ((w.thread i).after r next) := by
  rw [step, Threads.step_eq_some]
  constructor
  · rintro ⟨t, c, ha, rfl⟩
    rw [act] at ha
    split at ha
    · cases ha
    · next x r ht =>
      obtain ⟨⟨t', next⟩, he, heq⟩ := map_eq_some_iff.mp ha
      cases heq
      exact ⟨x, r, t', next, ht, he, rfl⟩
  · rintro ⟨x, r, t, next, ht, he, rfl⟩
    refine ⟨t, (w.thread i).after r next, ?_, rfl⟩
    simp [act, ht, he]

/-- What the calls have to do after a step comes from the instruction or was to be done
before, but for the close gate that an error leads to. -/
theorem mem_put {k : ι}
    (ht : (w.thread i).todo = x :: r) (hy : y ∈ ((w.put i t ((w.thread i).after r next)).thread k).todo) :
    (k = i ∧ y ∈ next.push) ∨ y ∈ (w.thread k).todo ∨ ∃ z, y = .flow z := by
  rcases eq_or_ne k i with rfl | hk
  · rw [Threads.put_thread_self] at hy
    rcases mem_after hy with hp | hr | ⟨a, m, rfl⟩
    · exact .inl ⟨rfl, hp⟩
    · exact .inr (.inl (ht ▸ mem_cons_of_mem x hr))
    · exact .inr (.inr ⟨_, rfl⟩)
  · rw [Threads.put_thread_of_ne _ _ _ hk] at hy
    exact .inr (.inl hy)

/-- Writes to the store that are still to be made were to be made before, or save the
session that the step leaves. -/
theorem writesStore_mem_put {k : ι} (ht : (w.thread i).todo = x :: r) (he : exec e w.shared x = some (t, next))
    (hy : y ∈ ((w.put i t ((w.thread i).after r next)).thread k).todo) (hw : y.writesStore = true) :
    (y = .save t.session ∧ x.clones = true) ∨ y ∈ (w.thread k).todo := by
  rcases mem_put ht hy with ⟨-, hp⟩ | ho | ⟨z, rfl⟩
  · exact .inl ((exec_spec he).2.2 y hp hw)
  · exact .inr ho
  · cases hw

end XiaoO.Gateway
