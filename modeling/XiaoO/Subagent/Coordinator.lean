import XiaoO.Base.SortedMap
import Mathlib.Data.String.Basic

/-!
# The subagent coordinator

`subagent/src/coordinator.rs` decides what joining a subagent and the end of a
subagent mean for the state of a session, and which actions the host has to take.
Its functions change nothing but the state they are given.

## The model

`join` and `onTerminal` return the new state with the decision, or the error; the
state is as before in the case of an error. The fresh join id is an argument. The
texts of a subagent's task (description, prompt, output schema) are left out: neither
function reads them.
-/

namespace XiaoO.Subagent

open XiaoO.Base SortedMap

/-! ### State -/

abbrev AgentId := String

inductive SubagentStatus where
  | running
  | completed
  | failed
  | cancelled
  | maxTurnsReached
  | budgetExhausted
  deriving DecidableEq

def SubagentStatus.isTerminal (status : SubagentStatus) : Bool := status ≠ .running

inductive SubagentTerminalKind where
  | completed
  | failed
  | cancelled
  | maxTurnsReached
  | budgetExhausted
  deriving DecidableEq

/-- `terminal_kind_to_status`. -/
def SubagentTerminalKind.toStatus : SubagentTerminalKind → SubagentStatus
  | .completed => .completed
  | .failed => .failed
  | .cancelled => .cancelled
  | .maxTurnsReached => .maxTurnsReached
  | .budgetExhausted => .budgetExhausted

/-- `SubagentTerminalSnapshot`: how a subagent ended. -/
structure SubagentTerminalSnapshot where
  status : SubagentTerminalKind
  reply : Option String
  error : Option String
  completedAtMs : ℕ
  deriving DecidableEq

structure SubagentRecord where
  agentId : AgentId
  parentAgentId : Option AgentId
  status : SubagentStatus
  createdAtMs : ℕ
  updatedAtMs : ℕ
  lastTerminal : Option SubagentTerminalSnapshot
  deriving DecidableEq

inductive JoinStatus where
  | pending
  | satisfied
  deriving DecidableEq

structure JoinRecord where
  joinId : String
  waiterAgentId : AgentId
  targetAgentId : AgentId
  status : JoinStatus
  createdAtMs : ℕ
  resolvedAtMs : Option ℕ
  deriving DecidableEq

structure SubagentMailboxItem where
  agentId : AgentId
  parentAgentId : Option AgentId
  status : SubagentTerminalKind
  summary : String
  completedAtMs : ℕ
  deriving DecidableEq

structure SubagentSessionState where
  agents : SortedMap AgentId SubagentRecord := .empty
  joins : SortedMap String JoinRecord := .empty
  mailbox : List SubagentMailboxItem := []
  deriving DecidableEq

/-! ### Requests, decisions and actions -/

structure JoinSubagentRequest where
  sessionId : String
  waiterAgentId : AgentId
  targetAgentId : AgentId
  deriving DecidableEq

inductive JoinSubagentResult where
  | ready (terminal : SubagentTerminalSnapshot)
  | pending (joinId : String)
  deriving DecidableEq

/-- The errors of `SubagentControlError` that joining and ending can give. -/
inductive SubagentControlError where
  | agentNotFound (agentId : String)
  | sessionMismatch (expected actual : String)
  | selfJoin (agentId : String)
  | missingTerminalSnapshot (agentId : String)
  | invalidState (message : String)

/-- The host actions that joining and ending ask for. -/
inductive HostAction where
  | suspendWaiter (joinId : String) (waiterAgentId targetAgentId : AgentId)
  | wakeWaiter (joinId : String) (waiterAgentId : AgentId) (terminal : SubagentTerminalSnapshot)
  | enqueueMailboxItem (item : SubagentMailboxItem)

/-- `JoinDecision`: the result of the join and the actions to take; it is immediate if
the result is ready. -/
structure JoinDecision where
  result : JoinSubagentResult
  actions : List HostAction

/-! ### Joining and ending -/

/-- The record of a join that has just been opened. -/
def openedJoin (request : JoinSubagentRequest) (createdAtMs : ℕ) (joinId : String) : JoinRecord where
  joinId
  waiterAgentId := request.waiterAgentId
  targetAgentId := request.targetAgentId
  status := .pending
  createdAtMs
  resolvedAtMs := none

variable (state : SubagentSessionState)

def join (request : JoinSubagentRequest) (createdAtMs : ℕ) (joinId : String) :
    Except SubagentControlError (SubagentSessionState × JoinDecision) :=
  if request.waiterAgentId = request.targetAgentId then .error (.selfJoin request.waiterAgentId)
  else match state.agents.get? request.targetAgentId with
    | none => .error (.agentNotFound request.targetAgentId)
    | some target =>
      if target.status.isTerminal then
        match target.lastTerminal with
        | none => .error (.missingTerminalSnapshot request.targetAgentId)
        | some terminal => .ok (state, { result := .ready terminal, actions := [] })
      else
        .ok ({ state with joins := state.joins.insert joinId (openedJoin request createdAtMs joinId) }, {
          result := .pending joinId
          actions := [.suspendWaiter joinId request.waiterAgentId request.targetAgentId] })

def JoinRecord.waitsFor (join : JoinRecord) (agentId : AgentId) : Bool :=
  join.targetAgentId = agentId && join.status = .pending

variable (agentId : AgentId) (terminal : SubagentTerminalSnapshot)

/-- The wake actions of `on_terminal`, in the order of the join ids. -/
def wakeActions : List HostAction :=
  (state.joins.entries.filter fun e => e.2.waitsFor agentId).map fun e =>
    .wakeWaiter e.2.joinId e.2.waiterAgentId terminal

def SubagentRecord.ended (record : SubagentRecord) (terminal : SubagentTerminalSnapshot) : SubagentRecord :=
  { record with
    status := terminal.status.toStatus
    updatedAtMs := terminal.completedAtMs
    lastTerminal := some terminal }

/-- The record of a join after the end of `agentId`. -/
def JoinRecord.resolve (join : JoinRecord) (agentId : AgentId) (terminal : SubagentTerminalSnapshot) : JoinRecord :=
  if join.waitsFor agentId then { join with status := .satisfied, resolvedAtMs := some terminal.completedAtMs }
  else join

/-- The state that `on_terminal` leaves. -/
def recordTerminal : SubagentSessionState :=
  { state with
    agents := state.agents.modify agentId (·.ended terminal)
    joins := state.joins.mapValues fun _ join => join.resolve agentId terminal }

def onTerminal : Except SubagentControlError (SubagentSessionState × List HostAction) :=
  match state.agents.get? agentId with
  | none => .error (.agentNotFound agentId)
  | some record =>
    let item : SubagentMailboxItem := {
      agentId
      parentAgentId := record.parentAgentId
      status := terminal.status
      summary := (terminal.reply.or terminal.error).getD ("subagent " ++ agentId ++ " finished")
      completedAtMs := terminal.completedAtMs }
    .ok (recordTerminal state agentId terminal, .enqueueMailboxItem item :: wakeActions state agentId terminal)

/-! ### What is decided -/

variable {state : SubagentSessionState} {agentId : AgentId}

theorem join_ok {s' : SubagentSessionState} {r : JoinSubagentRequest} {cs : ℕ}
    {j : String} {d : JoinDecision} (h : join state r cs j = .ok (s', d)) : (∃ t, s' = state ∧ d = ⟨.ready t, []⟩) ∨
    ∃ tr, state.agents.get? r.targetAgentId = some tr ∧ tr.status.isTerminal = false ∧
      s' = { state with joins := state.joins.insert j (openedJoin r cs j) } ∧
      d = ⟨.pending j, [.suspendWaiter j r.waiterAgentId r.targetAgentId]⟩ := by
  rw [join] at h
  split at h
  · cases h
  · split at h
    · cases h
    · next tr ht =>
      split at h
      · split at h
        · cases h
        · next t _ =>
          cases h
          exact .inl ⟨t, rfl, rfl⟩
      · next hr =>
        cases h
        exact .inr ⟨tr, ht, by simpa using hr, rfl, rfl⟩

theorem onTerminal_ok {s' : SubagentSessionState} {terminal : SubagentTerminalSnapshot}
    {acs : List HostAction} (h : onTerminal state agentId terminal = .ok (s', acs)) :
    s' = recordTerminal state agentId terminal ∧
      ∃ x, acs = .enqueueMailboxItem x :: wakeActions state agentId terminal := by
  rw [onTerminal] at h
  split at h
  · cases h
  · cases h
    exact ⟨rfl, _, rfl⟩

section

variable (t : SubagentTerminalSnapshot) {join : JoinRecord}

theorem isTerminal_ended (r : SubagentRecord) : (r.ended t).status.isTerminal = true := by
  rw [SubagentRecord.ended]
  cases t.status <;> rfl

@[simp] theorem joinId_resolve (j : JoinRecord) (agentId : AgentId) : (j.resolve agentId t).joinId = j.joinId := by
  rw [JoinRecord.resolve]
  split <;> rfl

@[simp] theorem targetAgentId_resolve (j : JoinRecord) (agentId : AgentId) :
    (j.resolve agentId t).targetAgentId = j.targetAgentId := by
  rw [JoinRecord.resolve]
  split <;> rfl

theorem status_resolve_of_waitsFor (h : join.waitsFor agentId = true) :
    (join.resolve agentId t).status = .satisfied := by
  rw [JoinRecord.resolve, if_pos h]

theorem resolve_of_not_waitsFor (h : join.waitsFor agentId = false) : join.resolve agentId t = join := by
  rw [JoinRecord.resolve, if_neg (by simp [h])]

theorem get?_joins_recordTerminal (state : SubagentSessionState) (agentId : AgentId) (j : String) :
    (recordTerminal state agentId t).joins.get? j = (state.joins.get? j).map (·.resolve agentId t) :=
  get?_mapValues _ _ _

theorem get?_agents_recordTerminal (state : SubagentSessionState) (agentId other : AgentId) :
    (recordTerminal state agentId t).agents.get? other =
      if other = agentId then (state.agents.get? other).map (·.ended t) else state.agents.get? other :=
  get?_modify _ _ _ _

end

/-- Every join is kept under its own id. -/
def Keyed (state : SubagentSessionState) : Prop :=
  ∀ joinId record, state.joins.get? joinId = some record → record.joinId = joinId

theorem Keyed.insert (h : Keyed state) (r : JoinSubagentRequest) (cs : ℕ) (j : String) :
    Keyed { state with joins := state.joins.insert j (openedJoin r cs j) } := by
  intro j' rc hr
  simp only [get?_insert] at hr
  split at hr
  · next heq =>
    cases hr
    exact heq.symm
  · exact h j' rc hr

theorem Keyed.recordTerminal (h : Keyed state) (agentId : AgentId)
    (t : SubagentTerminalSnapshot) : Keyed (recordTerminal state agentId t) := by
  intro j r hr
  rw [get?_joins_recordTerminal] at hr
  obtain ⟨o, ho, rfl⟩ := Option.map_eq_some_iff.mp hr
  rw [joinId_resolve]
  exact h j o ho

end XiaoO.Subagent
