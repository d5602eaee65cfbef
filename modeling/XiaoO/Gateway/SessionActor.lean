import XiaoO.Base.ServiceLine
import XiaoO.Gateway.SessionLease

/-!
# The session actor

Every session has an actor (`SessionActor` of `shared/src/gateway/session_handle.rs`) that takes
commands from a bounded channel, keeps the turns that wait in a queue, and runs one turn at a time
in a task of its own. Callers share with it the channel, the counter `queue_depth` and the flag
`closing`, and see its phase as it was published last.

## The model

A step of the actor goes from one await to the next (`Place`); what the await brings (the lease
table, the clock, the time of the session's last change) is an input of the step. A call of
`run_turn` and a call of `clear_closing` go by single operations on the shared state, as they do not
await between them. The compare-and-exchange loop of the counter is one operation: it succeeds on a
value below the capacity or fails on one that is not. The counter is a `usize`, and wraps.

The caller of `run_turn` may drop the call while it waits for the reply. Some handle is always
alive, so the channel is never closed. Three fields of the state are its history: the turns in the
order in which they entered the channel, those in the order in which they were started, and whether
a `ForceClose` has been handled.

`Effect` says what a step can do, with the guards it has passed (`step_effect`).

Left out are the record of the session, of which the actor reads only the time of the last change,
and the replies of the commands other than `RunTurn`.
-/

namespace XiaoO.Gateway.SessionActor

open XiaoO.Base XiaoO.Gateway.Lease

def sessionCommandQueueCapacity : ℕ := 16

/-! ### Turns and commands -/

/-- `SessionServiceError`, as far as it answers a turn. -/
inductive SessionServiceError where
  | sessionClosed (sessionId : String)
  | sessionBusy (sessionId message : String)
  | sessionAttachedByAnotherClient (sessionId holderClientId holderHostname : String) (holderPid : UInt32)
      (lastHeartbeatMs : ℕ) (stale : Bool)
  | leaseClockSkew (sessionId : String)
  /-- An error of the run of a turn. -/
  | run (message : String)
  deriving DecidableEq

def SessionServiceError.fromLeaseCheckFailure (sessionId : String) : LeaseCheckFailure → SessionServiceError
  | .busy holder =>
    .sessionAttachedByAnotherClient sessionId holder.holderClientId (holder.holderHostname.getD "")
      (holder.holderPid.getD 0) holder.lastHeartbeatMs holder.stale
  | .clockSkew => .leaseClockSkew sessionId

/-- `Result<AppTurnResult, SessionServiceError>`. -/
inductive TurnResult where
  | ok
  | err (error : SessionServiceError)
  deriving DecidableEq

/-- What the actor reads of a turn. -/
structure TurnRequest where
  clientId : Option String
  submittedAt : ℕ

/-- The session, with the turns `ι` that are ever submitted to it and the hash of its lease
table. -/
structure Session (ι : Type*) where
  sessionId : String
  hash : String → ℕ
  requests : ι → TurnRequest

def isDaemonPrincipal (clientId : String) : Bool := "daemon:".toList.isPrefixOf clientId.toList

inductive SessionPhase where
  | idle
  | running
  | paused
  | closing
  | closed
  deriving DecidableEq

/-- `SessionPhase::Paused | SessionPhase::Closing | SessionPhase::Closed`. -/
def SessionPhase.isShut : SessionPhase → Bool
  | .paused | .closing | .closed => true
  | .idle | .running => false

/-- Who asks for a session to be closed by force. -/
inductive Closer where
  | reaper
  | client
  deriving DecidableEq

inductive SessionCommand (ι : Type*) where
  | runTurn (turn : ι)
  | snapshot
  | cancelActiveTurn
  | forceClose (closer : Closer)
  | hibernateIdle (idleBeforeMs : ℕ)
  | nop
  deriving DecidableEq

def SessionCommand.turn? {ι : Type*} : SessionCommand ι → Option ι
  | .runTurn turn => some turn
  | _ => none

/-- `ActiveTurn`, with what its token says. -/
structure ActiveTurn (ι : Type*) where
  turn : ι
  cancelled : Bool

structure SessionHandleStatus (ι : Type*) where
  phase : SessionPhase := .idle
  activeTurnId : Option ι := none
  queueDepth : ℕ := 0

/-! ### The actor and its callers -/

inductive Place (ι : Type*) where
  /-- It is at the head of its loop. -/
  | loop
  /-- It has popped a turn and looks up the lease. -/
  | checking (turn : ι)
  /-- It has made a turn the active one, and publishes that before it spawns its task. -/
  | starting (turn : ι)
  /-- It waits for a command or for the end of the active turn. -/
  | waiting
  /-- It publishes its status before it goes on. -/
  | publishing
  /-- It takes a snapshot of the session to reply with. -/
  | snapshotting
  | hibernating (idleBeforeMs : ℕ)
  | pausing
  /-- It publishes that it is closing. -/
  | closing (closer : Closer)
  /-- It closes the session. -/
  | finishing (closer : Closer)
  deriving DecidableEq

/-- `SessionActor`: what is its own. -/
structure Actor (ι : Type*) where
  place : Place ι := .loop
  pendingTurns : List ι := []
  activeTurn : Option (ActiveTurn ι) := none
  phase : SessionPhase := .idle
  idleCancelAt : Option ℕ := none
  closeReply : Option Closer := none

/-- Where a call of `run_turn` is. -/
inductive Call where
  | idle
  /-- It has found the handle not closing. -/
  | entered
  /-- It is counted in `queue_depth`. -/
  | counted
  /-- Its command did not fit into the channel. -/
  | refused
  /-- It waits for the reply. -/
  | waiting
  /-- It was dropped while it waited. -/
  | abandoned
  | returned (result : TurnResult)
  deriving DecidableEq

/-- How far a call is in the line of turns. -/
@[simp] def Call.stage : Call → Stage
  | .idle | .entered => .before
  | .counted | .refused => .counted
  | .waiting | .abandoned | .returned _ => .past

/-- A session with its actor, the calls and the tasks of turns. -/
structure State (ι : Type*) where
  session : Session ι
  queueDepth : ℕ := 0
  closing : Bool := false
  /-- The calls of `clear_closing` that have still to send their wakeup. -/
  clearing : ℕ := 0
  channel : List (SessionCommand ι) := []
  status : SessionHandleStatus ι := {}
  actor : Actor ι := {}
  calls : ι → Call := fun _ => .idle
  /-- The turns whose tasks run. -/
  running : List ι := []
  /-- The replies to turns. -/
  answers : List (ι × TurnResult) := []
  entered : List ι := []
  started : List ι := []
  forceClosed : Bool := false

open State

variable {ι : Type*}

/-- `fetch_sub(1)` on a `usize`, which wraps at zero. -/
def fetchSub (depth : ℕ) : ℕ := if depth = 0 then 2 ^ 64 - 1 else depth - 1

theorem fetchSub_of_pos {d : ℕ} (h : 0 < d) : fetchSub d = d - 1 := if_neg (Nat.ne_of_gt h)

theorem foldl_fetchSub {ts : List ι} {d : ℕ} (h : ts.length ≤ d) :
    ts.foldl (fun d _ => fetchSub d) d = d - ts.length := by
  induction ts generalizing d with
  | nil => rfl
  | cons t ts ih =>
    rw [List.length_cons] at h
    rw [List.foldl_cons, fetchSub_of_pos (by omega), ih (by omega), List.length_cons]
    omega

variable [DecidableEq ι] (s : State ι) (i : ι)

namespace State

/-! ### The callers -/

def setCall (call : Call) : State ι := { s with calls := Function.update s.calls i call }

def hasRoom : Bool := s.channel.length < sessionCommandQueueCapacity

def push (command : SessionCommand ι) : State ι := { s with channel := s.channel ++ [command] }

def reply (result : TurnResult) : State ι := { s with answers := s.answers ++ [(i, result)] }

/-- `SessionServiceError::SessionClosed` for this session. -/
def sessionClosed (s : State ι) : TurnResult := .err (.sessionClosed s.session.sessionId)

/-- `SessionServiceError::SessionBusy` for this session. -/
def sessionBusy (s : State ι) (message : String) : TurnResult := .err (.sessionBusy s.session.sessionId message)

/-- `try_increment_queue_depth`, up to its look at the flag. -/
def enter : Option (State ι) :=
  if s.calls i = .idle then
    if s.closing then some (s.setCall i (.returned s.sessionClosed)) else some (s.setCall i .entered)
  else none

/-- `try_increment_queue_depth`, the rest of it. -/
def count : Option (State ι) :=
  if s.calls i = .entered then
    if s.queueDepth ≥ sessionCommandQueueCapacity then
      some (s.setCall i (.returned (s.sessionBusy "session root turn queue is full")))
    else some { s.setCall i .counted with queueDepth := s.queueDepth + 1 }
  else none

/-- `run_turn`: `try_send`. -/
def send : Option (State ι) :=
  if s.calls i = .counted then
    if s.hasRoom then some { (s.setCall i .waiting).push (.runTurn i) with entered := s.entered ++ [i] }
    else some (s.setCall i .refused)
  else none

/-- `run_turn`: `decrement_queue_depth`, and the error. -/
def giveUp : Option (State ι) :=
  if s.calls i = .refused then
    some { s.setCall i (.returned (s.sessionBusy "session command queue is full")) with
      queueDepth := fetchSub s.queueDepth }
  else none

/-- `run_turn`: the reply has come. -/
def receiveReply : Option (State ι) :=
  if s.calls i = .waiting then (s.answers.lookup i).map fun result => s.setCall i (.returned result) else none

/-- The call of `run_turn` is dropped. -/
def abandon : Option (State ι) :=
  if s.calls i = .waiting then some (s.setCall i .abandoned) else none

/-- `snapshot`, `cancel_active_turn`, `force_close` and `hibernate_idle`: their `send`, which waits
for room. -/
def command (s : State ι) (command : SessionCommand ι) : Option (State ι) :=
  if s.hasRoom ∧ command.turn? = none then some (s.push command) else none

def markClosing : State ι := { s with closing := true }

/-- `clear_closing`: `store(false)`. -/
def clearClosing : State ι := { s with closing := false, clearing := s.clearing + 1 }

/-- `clear_closing`: `try_send(Nop)`, whose failure is ignored. -/
def wake : Option (State ι) :=
  if s.clearing > 0 then
    let s := { s with clearing := s.clearing - 1 }
    some (if s.hasRoom then s.push .nop else s)
  else none

/-! ### The actor -/

def go (place : Place ι) : State ι := { s with actor := { s.actor with place } }

def publishStatus : State ι :=
  { s with
    status :=
      { phase := s.actor.phase, activeTurnId := s.actor.activeTurn.map ActiveTurn.turn,
        queueDepth := s.queueDepth } }

/-- `next_runnable_turn`, up to the lookup of the lease. -/
def startNext : Option (State ι) :=
  if s.actor.place = .loop then
    if s.actor.activeTurn.isSome || s.actor.phase.isShut then some (s.go .waiting)
    else
      match s.actor.pendingTurns with
      | [] => some (s.go .waiting)
      | next :: rest =>
        -- a turn that is popped while the flag is set goes back to the front
        if s.closing then some (s.go .waiting)
        else some { s with actor := { s.actor with pendingTurns := rest, place := .checking next } }
  else none

def shouldRejectAtPopTime (table : SessionLeaseTable) (reading : Option ℕ) (next : ι) : Option SessionServiceError :=
  match (s.session.requests next).clientId.filter (· ≠ "") with
  | none => none
  | some clientId =>
    if isDaemonPrincipal clientId then none
    else
      match checkHolder s.session.hash table reading s.session.sessionId (some clientId) with
      | .ok => none
      | .err failure => some (.fromLeaseCheckFailure s.session.sessionId failure)

/-- `start_next_turn_if_possible`, up to the publication. -/
def startTurn (next : ι) : State ι :=
  { s with
    queueDepth := fetchSub s.queueDepth
    started := s.started ++ [next]
    actor := { s.actor with
      activeTurn := some
        { turn := next, cancelled := s.actor.idleCancelAt.any (· > (s.session.requests next).submittedAt) }
      phase := .running
      place := .starting next } }

/-- The lease has been looked up: the turn is rejected, or started. -/
def judge (table : SessionLeaseTable) (reading : Option ℕ) : Option (State ι) :=
  match s.actor.place with
  | .checking next =>
    match s.shouldRejectAtPopTime table reading next with
    | some error => some ({ s with queueDepth := fetchSub s.queueDepth }.reply next (.err error) |>.go .loop)
    | none => some (s.startTurn next)
  | _ => none

/-- `start_next_turn_if_possible`: the status is published and the task spawned. -/
def spawn : Option (State ι) :=
  match s.actor.place with
  | .starting turn => some { s.publishStatus.go .waiting with running := turn :: s.running }
  | _ => none

def failPendingTurns : State ι :=
  { s with
    queueDepth := s.actor.pendingTurns.foldl (fun depth _ => fetchSub depth) s.queueDepth
    answers := s.answers ++ s.actor.pendingTurns.map fun turn => (turn, s.sessionClosed)
    actor := { s.actor with pendingTurns := [] } }

/-- The token of the active turn is cancelled. -/
def cancelActive : State ι :=
  { s with actor := { s.actor with activeTurn := s.actor.activeTurn.map ({ · with cancelled := true }) } }

/-- `begin_force_close`, up to its first await. -/
def beginForceClose (closer : Closer) : State ι :=
  if s.actor.phase = .closed then s.go .snapshotting
  else (({ s with actor := { s.actor with phase := .closing } }.cancelActive).failPendingTurns).go (.closing closer)

/-- `handle_command`, up to its first await. -/
def handleCommand (now : ℕ) : SessionCommand ι → State ι
  | .runTurn turn =>
    if s.actor.phase.isShut then
      ({ s with queueDepth := fetchSub s.queueDepth }.reply turn s.sessionClosed).go .publishing
    else { s with actor := { s.actor with pendingTurns := s.actor.pendingTurns ++ [turn], place := .publishing } }
  | .snapshot => s.go .snapshotting
  | .cancelActiveTurn =>
    if s.actor.activeTurn.isSome then s.cancelActive.go .loop
    else { s with actor := { s.actor with idleCancelAt := some now, place := .loop } }
  | .forceClose closer => { s with forceClosed := true }.beginForceClose closer
  | .hibernateIdle idleBeforeMs =>
    if s.actor.phase ≠ .idle ∨ s.actor.activeTurn.isSome ∨ s.actor.pendingTurns ≠ [] ∨
      s.queueDepth > 0 then s.go .loop
    else s.go (.hibernating idleBeforeMs)
  | .nop => s.go .loop

/-- A command comes out of the channel. -/
def receive (now : ℕ) : Option (State ι) :=
  match s.actor.place, s.channel with
  | .waiting, command :: rest => some ({ s with channel := rest }.handleCommand now command)
  | _, _ => none

def activeDone : Option (State ι) :=
  match s.actor.place, s.actor.activeTurn with
  | .waiting, some active =>
    if active.turn ∈ s.running then none
    else
      match s.actor.closeReply with
      | some closer =>
        some { s with actor := { s.actor with activeTurn := none, closeReply := none, place := .finishing closer } }
      | none =>
        if s.actor.phase ≠ .closed then
          some { s with actor := { s.actor with activeTurn := none, phase := .idle, place := .publishing } }
        else some { s with actor := { s.actor with activeTurn := none, place := .loop } }
  | _, _ => none

/-- The awaits at the end of a handler are over. -/
def finishHandler : Option (State ι) :=
  match s.actor.place with
  | .publishing => some (s.publishStatus.go .loop)
  | .snapshotting => some (s.go .loop)
  | _ => none

/-- `HibernateIdle`: the time of the last change is known. -/
def checkIdle (updatedAtMs : ℕ) : Option (State ι) :=
  match s.actor.place with
  | .hibernating idleBeforeMs => some (s.go (if updatedAtMs > idleBeforeMs then .loop else .pausing))
  | _ => none

/-- `HibernateIdle`: the session is paused. -/
def hibernated : Option (State ι) :=
  match s.actor.place with
  | .pausing => some { s with actor := { s.actor with phase := .paused, place := .publishing } }
  | _ => none

/-- `begin_force_close`: the phase is published. -/
def continueForceClose : Option (State ι) :=
  match s.actor.place with
  | .closing closer =>
    let s := s.publishStatus
    if s.actor.activeTurn.isSome then
      -- a closer that comes second is told that the session is closing already
      if s.actor.closeReply.isSome then some (s.go .loop)
      else some { s with actor := { s.actor with closeReply := some closer, place := .loop } }
    else some (s.go (.finishing closer))
  | _ => none

/-- `finish_force_close`: the session is closed. -/
def closed (s : State ι) : Option (State ι) :=
  match s.actor.place with
  | .finishing _ => some { s with actor := { s.actor with phase := .closed, place := .publishing } }
  | _ => none

/-! ### The tasks -/

/-- The task of a turn ends: it replies, or drops the reply, which answers with `SessionClosed`. -/
def finish (turn : ι) (result : TurnResult) : Option (State ι) :=
  if turn ∈ s.running then some ({ s with running := s.running.erase turn }.reply turn result) else none

end State

inductive Act (ι : Type*) where
  | enter (i : ι)
  | count (i : ι)
  | send (i : ι)
  | giveUp (i : ι)
  | receiveReply (i : ι)
  | abandon (i : ι)
  | command (command : SessionCommand ι)
  | markClosing
  | clearClosing
  | wake
  | startNext
  | judge (table : SessionLeaseTable) (reading : Option ℕ)
  | spawn
  | receive (now : ℕ)
  | activeDone
  | finishHandler
  | checkIdle (updatedAtMs : ℕ)
  | hibernated
  | continueForceClose
  | closed
  | finish (turn : ι) (result : TurnResult)

def step : Act ι → Option (State ι)
  | .enter i => s.enter i
  | .count i => s.count i
  | .send i => s.send i
  | .giveUp i => s.giveUp i
  | .receiveReply i => s.receiveReply i
  | .abandon i => s.abandon i
  | .command command => s.command command
  | .markClosing => some s.markClosing
  | .clearClosing => some s.clearClosing
  | .wake => s.wake
  | .startNext => s.startNext
  | .judge table reading => s.judge table reading
  | .spawn => s.spawn
  | .receive now => s.receive now
  | .activeDone => s.activeDone
  | .finishHandler => s.finishHandler
  | .checkIdle updatedAtMs => s.checkIdle updatedAtMs
  | .hibernated => s.hibernated
  | .continueForceClose => s.continueForceClose
  | .closed => s.closed
  | .finish turn result => s.finish turn result

/-- `SessionHandle::new`. -/
def start (session : Session ι) : State ι := { session }

/-! ### What a step does -/

/-- What a step can do. -/
inductive Effect (s : State ι) : Act ι → State ι → Prop
  /-- A call comes or goes that is not counted. -/
  | called (i : ι) {act : Act ι} {call : Call} (hbefore : (s.calls i).stage ≠ .counted)
      (hafter : call.stage ≠ .counted)
      (hback : call.stage = .before → (s.calls i).stage = .before)
      (hok : call = .returned .ok → (i, .ok) ∈ s.answers) : Effect s act (s.setCall i call)
  | counted (i : ι) (hcall : s.calls i = .entered) (hdepth : s.queueDepth < sessionCommandQueueCapacity) :
      Effect s (.count i) { s.setCall i .counted with queueDepth := s.queueDepth + 1 }
  | sent (i : ι) (hcall : s.calls i = .counted) (hroom : s.hasRoom = true) :
      Effect s (.send i) { (s.setCall i .waiting).push (.runTurn i) with entered := s.entered ++ [i] }
  | refused (i : ι) (hcall : s.calls i = .counted) (hroom : s.hasRoom = false) :
      Effect s (.send i) (s.setCall i .refused)
  | gaveUp (i : ι) {error : SessionServiceError} (hcall : s.calls i = .refused) :
      Effect s (.giveUp i) { s.setCall i (.returned (.err error)) with queueDepth := fetchSub s.queueDepth }
  | commanded {command : SessionCommand ι} (hroom : s.hasRoom = true) (hturn : command.turn? = none) :
      Effect s (.command command) (s.push command)
  | marked : Effect s .markClosing s.markClosing
  | cleared : Effect s .clearClosing s.clearClosing
  | woke (hclearing : 0 < s.clearing) (hroom : s.hasRoom = true) :
      Effect s .wake ({ s with clearing := s.clearing - 1 }.push .nop)
  | wokeFull (hclearing : 0 < s.clearing) (hroom : s.hasRoom = false) :
      Effect s .wake { s with clearing := s.clearing - 1 }
  | waits (hplace : s.actor.place = .loop)
      (hstays : s.actor.activeTurn.isSome = true ∨ s.actor.phase.isShut = true ∨
        s.actor.pendingTurns = [] ∨ s.closing = true) :
      Effect s .startNext (s.go .waiting)
  | popped (next : ι) (rest : List ι) (hplace : s.actor.place = .loop) (hactive : s.actor.activeTurn = none)
      (hphase : s.actor.phase.isShut = false) (hpending : s.actor.pendingTurns = next :: rest)
      (hclosing : s.closing = false) :
      Effect s .startNext { s with actor := { s.actor with pendingTurns := rest, place := .checking next } }
  | rejected (next : ι) {table : SessionLeaseTable} {reading : Option ℕ} {error : SessionServiceError}
      (hplace : s.actor.place = .checking next) :
      Effect s (.judge table reading)
        ({ s with queueDepth := fetchSub s.queueDepth }.reply next (.err error) |>.go .loop)
  | started (next : ι) {table : SessionLeaseTable} {reading : Option ℕ} (hplace : s.actor.place = .checking next) :
      Effect s (.judge table reading) (s.startTurn next)
  | spawned (turn : ι) (hplace : s.actor.place = .starting turn) :
      Effect s .spawn { s.publishStatus.go .waiting with running := turn :: s.running }
  | turnRejected (turn : ι) (rest : List (SessionCommand ι)) {now : ℕ} (hplace : s.actor.place = .waiting)
      (hchannel : s.channel = .runTurn turn :: rest) (hshut : s.actor.phase.isShut = true) :
      Effect s (.receive now)
        (({ s with channel := rest, queueDepth := fetchSub s.queueDepth }.reply turn s.sessionClosed).go .publishing)
  | turnQueued (turn : ι) (rest : List (SessionCommand ι)) {now : ℕ} (hplace : s.actor.place = .waiting)
      (hchannel : s.channel = .runTurn turn :: rest) (hopen : s.actor.phase.isShut = false) :
      Effect s (.receive now) { s with
        channel := rest
        actor := { s.actor with pendingTurns := s.actor.pendingTurns ++ [turn], place := .publishing } }
  /-- The command changes nothing. -/
  | handled (command : SessionCommand ι) (rest : List (SessionCommand ι)) {place : Place ι}
      {now : ℕ} (hplace : s.actor.place = .waiting) (hchannel : s.channel = command :: rest)
        (hturn : command.turn? = none)
      (hnext : place = .loop ∨ place = .snapshotting) (hcloser : ∀ closer, command ≠ .forceClose closer) :
      Effect s (.receive now) ({ s with channel := rest }.go place)
  | cancelled (rest : List (SessionCommand ι)) {now : ℕ} (hplace : s.actor.place = .waiting)
      (hchannel : s.channel = .cancelActiveTurn :: rest) (hactive : s.actor.activeTurn.isSome = true) :
      Effect s (.receive now) ({ s with channel := rest }.cancelActive.go .loop)
  | idleCancelled (rest : List (SessionCommand ι)) (now : ℕ) (hplace : s.actor.place = .waiting)
      (hchannel : s.channel = .cancelActiveTurn :: rest) :
      Effect s (.receive now)
        { s with channel := rest, actor := { s.actor with idleCancelAt := some now, place := .loop } }
  | hibernates (idleBeforeMs : ℕ) (rest : List (SessionCommand ι)) {now : ℕ} (hplace : s.actor.place = .waiting)
      (hchannel : s.channel = .hibernateIdle idleBeforeMs :: rest) (hphase : s.actor.phase = .idle)
      (hpending : s.actor.pendingTurns = []) :
      Effect s (.receive now) ({ s with channel := rest }.go (.hibernating idleBeforeMs))
  | closesAgain (closer : Closer) (rest : List (SessionCommand ι)) {now : ℕ} (hplace : s.actor.place = .waiting)
      (hchannel : s.channel = .forceClose closer :: rest) (hphase : s.actor.phase = .closed) :
      Effect s (.receive now) ({ s with channel := rest, forceClosed := true }.go .snapshotting)
  | closes (closer : Closer) (rest : List (SessionCommand ι)) {now : ℕ} (hplace : s.actor.place = .waiting)
      (hchannel : s.channel = .forceClose closer :: rest) (hphase : s.actor.phase ≠ .closed) :
      Effect s (.receive now)
        (({ s with channel := rest, forceClosed := true, actor := { s.actor with phase := .closing } }.cancelActive
          |>.failPendingTurns).go (.closing closer))
  /-- The active turn is over, and so is the wait of a closer. -/
  | doneClosing (active : ActiveTurn ι) {closer : Closer} (hplace : s.actor.place = .waiting)
      (hactive : s.actor.activeTurn = some active) (hdone : active.turn ∉ s.running)
      (hreply : s.actor.closeReply = some closer) :
      Effect s .activeDone { s with
        actor := { s.actor with activeTurn := none, closeReply := none, place := .finishing closer } }
  | done (active : ActiveTurn ι) (hplace : s.actor.place = .waiting) (hactive : s.actor.activeTurn = some active)
      (hdone : active.turn ∉ s.running) (hreply : s.actor.closeReply = none) (hphase : s.actor.phase ≠ .closed) :
      Effect s .activeDone { s with
        actor := { s.actor with activeTurn := none, phase := .idle, place := .publishing } }
  | doneClosed (active : ActiveTurn ι) (hplace : s.actor.place = .waiting)
      (hactive : s.actor.activeTurn = some active)
      (hdone : active.turn ∉ s.running) (hreply : s.actor.closeReply = none) (hphase : s.actor.phase = .closed) :
      Effect s .activeDone { s with actor := { s.actor with activeTurn := none, place := .loop } }
  | published (hplace : s.actor.place = .publishing) : Effect s .finishHandler (s.publishStatus.go .loop)
  | snapshotted (hplace : s.actor.place = .snapshotting) : Effect s .finishHandler (s.go .loop)
  | keptAwake (idleBeforeMs : ℕ) {updatedAtMs : ℕ} (hplace : s.actor.place = .hibernating idleBeforeMs) :
      Effect s (.checkIdle updatedAtMs) (s.go .loop)
  | idled (idleBeforeMs : ℕ) {updatedAtMs : ℕ} (hplace : s.actor.place = .hibernating idleBeforeMs) :
      Effect s (.checkIdle updatedAtMs) (s.go .pausing)
  | hibernated (hplace : s.actor.place = .pausing) :
      Effect s .hibernated { s with actor := { s.actor with phase := .paused, place := .publishing } }
  /-- Somebody else waits for the end already. -/
  | closeRefused (closer : Closer) (hplace : s.actor.place = .closing closer)
      (hactive : s.actor.activeTurn.isSome = true) (hreply : s.actor.closeReply.isSome = true) :
      Effect s .continueForceClose (s.publishStatus.go .loop)
  | closeWaits (closer : Closer) (hplace : s.actor.place = .closing closer)
      (hactive : s.actor.activeTurn.isSome = true) (hreply : s.actor.closeReply = none) :
      Effect s .continueForceClose { s.publishStatus with
        actor := { s.actor with closeReply := some closer, place := .loop } }
  | closeGoesOn (closer : Closer) (hplace : s.actor.place = .closing closer) (hactive : s.actor.activeTurn = none) :
      Effect s .continueForceClose (s.publishStatus.go (.finishing closer))
  | closed (closer : Closer) (hplace : s.actor.place = .finishing closer) :
      Effect s .closed { s with actor := { s.actor with phase := .closed, place := .publishing } }
  | finished (turn : ι) (result : TurnResult) (hrunning : turn ∈ s.running) :
      Effect s (.finish turn result) ({ s with running := s.running.erase turn }.reply turn result)

variable {s s' : State ι}

theorem startNext_effect (h : s.startNext = some s') : Effect s .startNext s' := by
  unfold startNext at h
  by_cases hp : s.actor.place = .loop
  · rw [if_pos hp] at h
    by_cases hb : (s.actor.activeTurn.isSome || s.actor.phase.isShut) = true
    · rw [if_pos hb] at h
      cases h
      rw [Bool.or_eq_true] at hb
      exact .waits hp (hb.imp id .inl)
    · rw [if_neg hb] at h
      rw [Bool.or_eq_true, not_or, Bool.not_eq_true, Bool.not_eq_true] at hb
      split at h
      · next hpn =>
        cases h
        exact .waits hp (.inr (.inr (.inl hpn)))
      · next next r hpn =>
        split_ifs at h with hc <;> cases h
        · exact .waits hp (.inr (.inr (.inr hc)))
        · have ha : s.actor.activeTurn = none := by simpa using hb.1
          exact .popped next r hp ha hb.2 hpn (Bool.eq_false_of_not_eq_true hc)
  · rw [if_neg hp] at h
    cases h

theorem judge_effect {t : SessionLeaseTable} {r : Option ℕ} (h : s.judge t r = some s') :
    Effect s (.judge t r) s' := by
  unfold judge at h
  split at h
  · next next hp =>
    split at h <;> cases h
    · exact .rejected next hp
    · exact .started next hp
  · cases h

theorem handleCommand_effect {c : SessionCommand ι} {rest : List (SessionCommand ι)} (n : ℕ)
    (hp : s.actor.place = .waiting) (hc : s.channel = c :: rest) :
    Effect s (.receive n) ({ s with channel := rest }.handleCommand n c) := by
  cases c with
  | runTurn t =>
    rw [handleCommand]
    split_ifs with hs
    · exact .turnRejected t rest hp hc hs
    · exact .turnQueued t rest hp hc (Bool.eq_false_of_not_eq_true hs)
  | snapshot => exact .handled .snapshot rest hp hc rfl (.inr rfl) nofun
  | cancelActiveTurn =>
    rw [handleCommand]
    split_ifs with ha
    · exact .cancelled rest hp hc ha
    · exact .idleCancelled rest n hp hc
  | forceClose cl =>
    rw [handleCommand, beginForceClose]
    split_ifs with hph
    · exact .closesAgain cl rest hp hc hph
    · exact .closes cl rest hp hc hph
  | hibernateIdle ib =>
    rw [handleCommand]
    split_ifs with hb
    · exact .handled (.hibernateIdle ib) rest hp hc rfl (.inl rfl) nofun
    · push Not at hb
      exact .hibernates ib rest hp hc hb.1 hb.2.2.1
  | nop => exact .handled .nop rest hp hc rfl (.inl rfl) nofun

theorem activeDone_effect (h : s.activeDone = some s') : Effect s .activeDone s' := by
  unfold activeDone at h
  split at h
  · next a hp ha =>
    by_cases hr : a.turn ∈ s.running
    · rw [if_pos hr] at h
      cases h
    · rw [if_neg hr] at h
      split at h
      · next c hrp =>
        cases h
        exact .doneClosing a hp ha hr hrp
      · next hrp =>
        split_ifs at h with hph <;> cases h
        · exact .done a hp ha hr hrp hph
        · exact .doneClosed a hp ha hr hrp (not_not.mp hph)
  · cases h

theorem continueForceClose_effect (h : s.continueForceClose = some s') : Effect s .continueForceClose s' := by
  unfold continueForceClose at h
  split at h
  · next c hp =>
    dsimp only at h
    split_ifs at h with ha hr <;> cases h
    · exact .closeRefused c hp ha hr
    · exact .closeWaits c hp ha (by simpa [publishStatus] using hr)
    · exact .closeGoesOn c hp (by simpa [publishStatus] using ha)
  · cases h

theorem step_effect {a : Act ι} (h : step s a = some s') : Effect s a s' := by
  cases a with
  | enter i =>
    rw [step, enter] at h
    split_ifs at h with hc <;> cases h
    · exact .called i (by simp [hc]) (by simp) (by simp) nofun
    · exact .called i (by simp [hc]) (by simp) (by simp [hc]) nofun
  | count i =>
    rw [step, count] at h
    split_ifs at h with hc hd <;> cases h
    · exact .called i (by simp [hc]) (by simp) (by simp) nofun
    · exact .counted i hc (Nat.lt_of_not_le hd)
  | send i =>
    rw [step, send] at h
    split_ifs at h with hc hr <;> cases h
    · exact .sent i hc hr
    · exact .refused i hc (Bool.eq_false_of_not_eq_true hr)
  | giveUp i =>
    rw [step, giveUp] at h
    split_ifs at h with hc
    cases h
    exact .gaveUp i hc
  | receiveReply i =>
    rw [step, receiveReply] at h
    split_ifs at h with hc
    obtain ⟨r, hl, rfl⟩ := Option.map_eq_some_iff.mp h
    refine .called i (by simp [hc]) (by simp) (by simp) fun hok => ?_
    cases hok
    obtain ⟨f, rs, ha, -⟩ := List.lookup_eq_some_iff.mp hl
    rw [ha]
    exact List.mem_append_right f List.mem_cons_self
  | abandon i =>
    rw [step, abandon] at h
    split_ifs at h with hc
    cases h
    exact .called i (by simp [hc]) (by simp) (by simp) nofun
  | command =>
    rw [step, command] at h
    split_ifs at h with hr
    cases h
    exact .commanded hr.1 hr.2
  | markClosing =>
    cases h
    exact .marked
  | clearClosing =>
    cases h
    exact .cleared
  | wake =>
    rw [step, wake] at h
    split_ifs at h with hcl
    cases h
    by_cases hr : s.hasRoom = true
    · rw [if_pos (by exact hr)]
      exact .woke hcl hr
    · rw [if_neg (by exact hr)]
      exact .wokeFull hcl (Bool.eq_false_of_not_eq_true hr)
  | startNext => exact startNext_effect h
  | judge => exact judge_effect h
  | spawn =>
    rw [step, spawn] at h
    split at h <;> cases h
    exact .spawned _ ‹_›
  | receive n =>
    rw [step, receive] at h
    split at h <;> cases h
    exact handleCommand_effect n ‹_› ‹_›
  | activeDone => exact activeDone_effect h
  | finishHandler =>
    rw [step, finishHandler] at h
    split at h <;> cases h
    · exact .published ‹_›
    · exact .snapshotted ‹_›
  | checkIdle =>
    rw [step, checkIdle] at h
    split at h <;> cases h
    split_ifs
    · exact .keptAwake _ ‹_›
    · exact .idled _ ‹_›
  | hibernated =>
    rw [step, hibernated] at h
    split at h <;> cases h
    exact .hibernated ‹_›
  | continueForceClose => exact continueForceClose_effect h
  | closed =>
    rw [step, closed] at h
    split at h <;> cases h
    exact .closed _ ‹_›
  | finish t r =>
    rw [step, finish] at h
    split_ifs at h with hrn
    cases h
    exact .finished t r hrn

end XiaoO.Gateway.SessionActor
