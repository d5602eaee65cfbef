import XiaoO.Base.Hoare
import XiaoO.Base.Runs
import XiaoO.Base.Text
import XiaoO.Conversation.Compaction

/-!
# The agent loop

The loop of `core/src/agent_loop.rs` with the tool batch of
`core/src/tool_exec.rs` and the prompt builder of `prompt/src/builder_impl.rs`:
in every turn the loop takes in pending user messages, compacts the history if
it must, builds a request, calls the model, executes the tool calls of the
answer, and decides whether to go on.

## The model

The functions of the source are programs over `LoopCtx` that may stop with an
error; what has been sent and recorded before the error stays. Everything that
comes from outside is an argument: the answers of the model and the tools, the
hooks, the summariser, the token estimates, the cancellation flag where it is
read and the clock, one reading a turn. `TurnEnv` collects them for one turn, and
the loop is a machine whose labels are the environments of its turns
(`loopStep`), so that a list of environments is a run.

`LoopCtx.sent` is the list of requests given to the model. The streak signature
is the data the source hashes. Tracing, events, token accounting and the
key-value cache are left out.
-/

namespace XiaoO.Conversation

open XiaoO.Base

/-! ### Data -/

/-- `ToolUseBlock`: a tool call in an answer of the model. -/
structure ToolUseBlock where
  callId : String
  toolName : String
  input : String

structure AssistantMessage where
  text : Option String := none
  reasoningContent : Option String := none
  toolCalls : List ToolUseBlock := []
  totalTokens : ℕ := 0

inductive AgentError where
  | compression (error : CompactError)
  | promptBuild (message : String)
  | llmProvider (message : String)
  deriving DecidableEq

inductive CompressionPipeline where
  /-- `ContextManager`, with its `preserve_tail_messages`. -/
  | contextManager (preserveTail : ℕ)
  /-- `PassthroughCompressionPipeline`. -/
  | passthrough

/-- The parts of `RuntimeSnapshot` and `AgentLoopInput` that a run reads. -/
structure LoopConfig where
  systemPrompt : String
  totalBudget : ℕ
  pipeline : CompressionPipeline
  /-- `feature_flags.tool_execution`. -/
  toolExecution : Bool
  maxTurns : ℕ
  agentId : Option String
  /-- The names of the visible tools. -/
  visibleTools : List String
  /-- Whether a runtime view is present. -/
  runtimeView : Bool
  /-- The tools of the `AfterSuccessfulTool` stop rules. -/
  stopRules : List String

/-- What the streak of identical calls compares: tool, arguments and, for a success,
the output. -/
structure CallSignature where
  toolName : String
  input : String
  output : Option String
  deriving DecidableEq

structure LoopState where
  messages : List ChatMessage
  turnCount : ℕ := 0
  compressionMeta : CompressionMeta := {}
  planNudged : Bool := false
  lastFailureSig : Option CallSignature := none
  repeatedFailureCount : ℕ := 0
  lastSuccessSig : Option CallSignature := none
  repeatedSuccessCount : ℕ := 0

/-- The outcome of one tool call; the texts are those `tool_output` produces. -/
inductive ToolOutcome where
  | success (output : String)
  | error (message : String)
  | failed (message : String)
  | denied (message : String)
  | suspended (token : String)

structure SuspendedToolCall where
  call : ToolUseBlock
  token : String

inductive LoopRunResult where
  | complete
  | maxTurns
  | cancelled
  | denied
  | suspended (calls : List SuspendedToolCall)
  | failed (error : AgentError)

/-- `LoopContext` with `TurnState`, the requests sent so far, and the result once the
run has ended. -/
structure LoopCtx where
  state : LoopState
  turnNumber : ℕ := 1
  assistantMessage : Option AssistantMessage := none
  request : Option (List ChatMessage) := none
  forceReturnComplete : Bool := false
  sent : List (List ChatMessage) := []
  finished : Option LoopRunResult := none

variable (cfg : LoopConfig) (now : ℕ) (ctx : LoopCtx)

namespace LoopCtx

def setMessages (messages : List ChatMessage) : LoopCtx :=
  { ctx with state := { ctx.state with messages } }

def push (message : ChatMessage) : LoopCtx := ctx.setMessages (ctx.state.messages ++ [message])

end LoopCtx

abbrev LoopM := Prog LoopCtx AgentError

/-! ### What the environment answers -/

/-- A user message and the `chat.message` hook chain it meets. -/
structure UserMessage where
  text : String
  hook : ChatMessage → ChatMessage

structure CompressEnv where
  /-- `analysis.should_compact`. -/
  shouldCompact : Bool
  summarize : List ChatMessage → Option String → CompactResult String

/-- What building a request adds to the history. -/
structure BuildEnv where
  systemText : String
  reminder : Option String

/-- How the provider answers a request. -/
inductive LlmAnswer where
  | response (message : AssistantMessage)
  /-- Cancelled in flight: the text and reasoning streamed so far. -/
  | cancelledMidway (text reasoning : String)
  | contextLengthExceeded (message : String)
  | failed (message : String)

/-- One `llm_call`: whether it finds the run cancelled, and the answer otherwise. -/
structure LlmEnv where
  cancelled : Bool
  answer : LlmAnswer

/-- One `llm_call_with_recovery`. -/
structure RecoveryEnv where
  first : LlmEnv
  compress : CompressEnv
  build : BuildEnv
  second : LlmEnv

/-- Everything one turn depends on besides the state. -/
structure TurnEnv where
  now : ℕ
  pending : List UserMessage
  compress : CompressEnv
  build : BuildEnv
  /-- Whether the estimate exceeds the budget before the call. -/
  preCheckExceeded : Bool
  preCheckCompress : CompressEnv
  preCheckBuild : BuildEnv
  llm : RecoveryEnv
  retryBuild : BuildEnv
  retry : RecoveryEnv
  /-- The outcome of each tool call of the batch, by position. -/
  outcome : ℕ → ToolOutcome
  /-- The input of each call after the hooks before its execution. -/
  hookedInput : ℕ → String → String
  /-- `truncate_tool_output`: tool name, call id and output. -/
  truncate : String → String → String → String
  /-- Whether `decide` finds the run cancelled. -/
  cancelled : Bool
  /-- The open plan items, as the runtime view lists them. -/
  openTodos : List String

/-! ### Compression and requests -/

/-- The marker of `prune_stale_tool_output`. -/
def prunedMarker : String :=
  "[older tool output pruned to save context — re-run the tool or read the file if you still need it]"

/-- `prune_stale_tool_output` on one block; `kept` is the size of the output kept so
far. -/
def pruneBlock (kept : ℕ) : ContentBlock → ℕ × ContentBlock
  | .toolResult callId toolName output isError =>
    if output = prunedMarker then (kept, .toolResult callId toolName output isError)
    else if kept < 40000 then (kept + output.utf8ByteSize, .toolResult callId toolName output isError)
    else if 1000 < output.utf8ByteSize then (kept, .toolResult callId toolName prunedMarker isError)
    else (kept, .toolResult callId toolName output isError)
  | block => (kept, block)

/-- `prune_stale_tool_output` on the blocks of one message, first to last. -/
def pruneBlocks : ℕ → List ContentBlock → ℕ × List ContentBlock
  | kept, [] => (kept, [])
  | kept, block :: blocks =>
    let (kept, block) := pruneBlock kept block
    let (kept, blocks) := pruneBlocks kept blocks
    (kept, block :: blocks)

/-- `prune_stale_tool_output`, last message first: the messages from some point on
have been pruned, keeping `kept` bytes of output, when the ones before it are. -/
def pruneFrom : List ChatMessage → ℕ × List ChatMessage
  | [] => (0, [])
  | message :: messages =>
    let (kept, messages) := pruneFrom messages
    let (kept, blocks) := pruneBlocks kept message.blocks
    (kept, { message with blocks } :: messages)

def pruneStaleToolOutput (messages : List ChatMessage) : List ChatMessage := (pruneFrom messages).2

def CompressionPipeline.compress (pipeline : CompressionPipeline) (env : CompressEnv)
    (messages : List ChatMessage) (cmeta : CompressionMeta) : CompactResult (List ChatMessage × CompressionMeta) :=
  match pipeline with
  | .passthrough => .ok (messages, cmeta)
  | .contextManager preserveTail =>
    if env.shouldCompact then
      (autoCompact env.summarize messages cmeta none preserveTail).map fun r => (r.messages, r.updatedMeta)
    else .ok (messages, cmeta)

/-- `compress`; `forced` for the triggers that skip the analysis. -/
def compress (cfg : LoopConfig) (env : CompressEnv) (forced : Bool) : LoopM Unit := do
  if !forced && !env.shouldCompact then return
  let ctx ← get
  match cfg.pipeline.compress env ctx.state.messages ctx.state.compressionMeta with
  | .error e => throw (.compression e)
  | .ok (messages, cmeta) =>
    modify fun ctx => { ctx with
      state := { ctx.state with messages := pruneStaleToolOutput messages, compressionMeta := cmeta } }

/-- The messages of a request: the system text, the history without its system
messages, and the reminder of the turn. -/
def requestMessages (env : BuildEnv) (history : List ChatMessage) : List ChatMessage :=
  .text .system env.systemText 0 :: history.filter (fun m => m.role ≠ .system) ++
    (env.reminder.filter (fun r => !isBlank r)).toList.map .user

/-- `validate_input` of the prompt builder. -/
def validateInput (visibleTools : List String) (history : List ChatMessage) : Option String :=
  if isBlank cfg.systemPrompt then some "build failed: missing required context: system_prompt"
  else if history.isEmpty then some "no messages to build prompt from"
  else if cfg.totalBudget = 0 then some "build failed: prompt budget exhausted"
  else if !cfg.toolExecution && !visibleTools.isEmpty then
    some "build failed: invalid prompt state: visible tools provided while tool execution feature is disabled"
  else none

/-- `build_messages`: on the final turn the tools are withheld. -/
def buildMessages (env : BuildEnv) : LoopM Unit := do
  let ctx ← get
  let isFinalTurn := 0 < cfg.maxTurns && cfg.maxTurns ≤ ctx.turnNumber
  let visibleTools := if isFinalTurn then [] else cfg.visibleTools
  match validateInput cfg visibleTools ctx.state.messages with
  | some message => throw (.promptBuild message)
  | none => modify fun ctx => { ctx with request := some (requestMessages env ctx.state.messages) }

variable (env : TurnEnv)

def preCheckTokenBudget : LoopM Unit := do
  if env.preCheckExceeded then
    compress cfg env.preCheckCompress true
    buildMessages cfg env.preCheckBuild

/-- What `llm_call` makes of an answer: the message of a stream cut midway has no tool
calls, and there is none if nothing was streamed. -/
def LlmAnswer.message? : LlmAnswer → Option AssistantMessage
  | .response message => some message
  | .cancelledMidway text reasoning =>
    if text = "" ∧ reasoning = "" then none
    else some { text := if text = "" then none else some text
                reasoningContent := if reasoning = "" then none else some reasoning }
  | _ => none

/-- `llm_call`; returns the message of a provider that refused the length of the
context. -/
def llmCall (env : LlmEnv) : LoopM (Option String) := do
  if env.cancelled then return none
  modify fun ctx => { ctx with sent := ctx.sent ++ ctx.request.toList }
  match env.answer with
  | .contextLengthExceeded message => return some message
  | .failed message => throw (.llmProvider message)
  | answer =>
    modify fun ctx => { ctx with assistantMessage := answer.message?.or ctx.assistantMessage }
    return none

def llmCallWithRecovery (env : RecoveryEnv) : LoopM Unit := do
  match ← llmCall env.first with
  | none => return
  | some _ =>
    compress cfg env.compress true
    buildMessages cfg env.build
    match ← llmCall env.second with
    | none => return
    | some message => throw (.llmProvider ("context length exceeded: " ++ message))

/-! ### The tool batch -/

def synthesizeMissingCallIds (turn : ℕ) (calls : List ToolUseBlock) : List ToolUseBlock :=
  calls.zipIdx.map fun (tc, idx) =>
    if isBlank tc.callId then { tc with callId := "call_" ++ toString turn ++ "_" ++ toString idx } else tc

/-- The `normalize` of `repair_tool_names`. -/
def normalizeToolName (name : String) : String :=
  String.ofList ((name.toList.filter Char.isAlphanum).map Char.toLower)

/-- `repair_tool_names` on one call: the first visible tool with the same normal form. -/
def repairToolName (visible : List String) (tc : ToolUseBlock) : ToolUseBlock :=
  if tc.toolName ∈ visible then tc
  else match visible.find? (fun name => normalizeToolName name = normalizeToolName tc.toolName) with
    | some fixed => { tc with toolName := fixed }
    | none => tc

def repairToolNames (visible : List String) (calls : List ToolUseBlock) : List ToolUseBlock :=
  calls.map (repairToolName visible)

variable (call tc : ToolUseBlock)

def isValidToolCall : Bool := !isBlank tc.callId && !isBlank tc.toolName

def invalidToolCallMessage : String :=
  match !isBlank tc.callId, !isBlank tc.toolName with
  | false, false => "invalid tool call: missing call_id and tool_name"
  | false, true => "invalid tool call: missing call_id"
  | true, false => "invalid tool call: missing tool_name"
  | true, true => "invalid tool call"

def buildInvalidToolCallResult : ChatMessage :=
  .toolResult tc.callId tc.toolName ("Error: " ++ invalidToolCallMessage tc ++ ".") true now

/-- The calls of the answer with ids supplied and names repaired. -/
def normalize (turn : ℕ) (calls : List ToolUseBlock) : List ToolUseBlock :=
  repairToolNames cfg.visibleTools (synthesizeMissingCallIds turn calls)

/-- `normalized_tool_calls`: the valid and the invalid calls of the answer. -/
def normalizedToolCalls : LoopM (List ToolUseBlock × List ToolUseBlock) := do
  let ctx ← get
  match ctx.assistantMessage with
  | none => return ([], [])
  | some message =>
    let calls := normalize cfg ctx.state.turnCount message.toolCalls
    modify fun ctx => { ctx with assistantMessage := some { message with toolCalls := calls } }
    return calls.partition isValidToolCall

variable (outcome : ToolOutcome) (message : AssistantMessage)

/-- The assistant message as `append_assistant_to_history` records it. -/
def assistantChatMessage : ChatMessage where
  role := .assistant
  blocks := message.text.toList.map .text ++ message.toolCalls.map fun tc => .toolUse tc.callId tc.toolName tc.input
  timestampMs := now
  apiUsageTokens := some message.totalTokens
  reasoningContent := message.reasoningContent

def appendAssistantToHistory : LoopCtx :=
  match ctx.assistantMessage with
  | none => ctx
  | some message => ctx.push (assistantChatMessage now message)

/-- The error of a request that could not be built for the retry. -/
def retryBuildError : AgentError → AgentError
  | .promptBuild message => .promptBuild ("retry after invalid tool call: prompt build error: " ++ message)
  | error => error

/-- The retry after a lone invalid call: its error result stands at the end of the
history while the request is built and answered, and is taken back afterwards. -/
def retryInvalidToolCall (invalid : ToolUseBlock) : LoopM Unit := do
  modify fun ctx => ctx.push (buildInvalidToolCallResult env.now invalid)
  let retry ← Prog.attempt do
    match ← Prog.attempt (buildMessages cfg env.retryBuild) with
    | .error e => throw (retryBuildError e)
    | .ok _ => llmCallWithRecovery cfg env.retry
  modify fun ctx => ctx.setMessages ctx.state.messages.dropLast
  match retry with
  | .error e => throw e
  | .ok _ => return

/-- The stable `sort_by_key` that moves the `join_subagent` calls to the end. -/
def joinsLast (calls : List ToolUseBlock) : List ToolUseBlock :=
  calls.filter (fun tc => tc.toolName ≠ "join_subagent") ++ calls.filter (fun tc => tc.toolName = "join_subagent")

/-- The first part of `process_llm_tool_calls`: the valid and the invalid calls, after a
retry if there is only a single invalid one. -/
def callsAfterRetry : LoopM (List ToolUseBlock × List ToolUseBlock) := do
  match ← normalizedToolCalls cfg with
  | ([], [invalid]) =>
    retryInvalidToolCall cfg env invalid
    normalizedToolCalls cfg
  | calls => return calls

def processLlmToolCalls : LoopM (List ToolUseBlock) := do
  let calls ← callsAfterRetry cfg env
  let validCalls := joinsLast calls.1
  modify fun ctx => appendAssistantToHistory env.now { ctx with
    assistantMessage := ctx.assistantMessage.map fun message => { message with toolCalls := validCalls } }
  return validCalls

/-- `is_failure_result`. -/
def ToolOutcome.isFailure : ToolOutcome → Bool
  | .error _ | .failed _ | .denied _ => true
  | .success _ | .suspended _ => false

/-- `tool_output`. -/
def ToolOutcome.output : ToolOutcome → String
  | .success output => output
  | .error message | .failed message => message
  | .denied message => "denied: " ++ message
  | .suspended token => "suspended:" ++ token

def toolCallSignature : CallSignature where
  toolName := call.toolName
  input := call.input
  output := match outcome with
    | .success output => some output
    | _ => none

/-- The notes of `update_tool_streak`. -/
def streakNote (failed : Bool) (tool : String) (repetitions : ℕ) : String :=
  if failed then
    "The `" ++ tool ++ "` call has now failed " ++ toString repetitions ++
    " times in a row with identical arguments. Stop retrying it unchanged — change approach: fix the arguments, " ++
    "read the relevant file or state to understand why it fails, or use a different tool to reach the goal."
  else
    "The `" ++ tool ++ "` call has now run " ++ toString repetitions ++
    " times in a row with identical arguments and the same result — that output is already in your context above. " ++
    "Stop repeating it: use what you have, or take a different action toward the goal."

/-- The counting of `update_tool_streak`: the last signature, its count, and the number
of repetitions if it has reached the threshold of three. -/
def countStreak (last : Option CallSignature) (count : ℕ) (signature : CallSignature) :
    Option CallSignature × ℕ × Option ℕ :=
  let count := if last = some signature then count + 1 else 1
  if count < 3 then (some signature, count, none) else (none, 0, some count)

def updateToolStreak (state : LoopState) (call : ToolUseBlock) (outcome : ToolOutcome) : LoopState × Option String :=
  if outcome.isFailure then
    let (last, count, reached) :=
      countStreak state.lastFailureSig state.repeatedFailureCount (toolCallSignature call outcome)
    ({ state with
        lastSuccessSig := none, repeatedSuccessCount := 0, lastFailureSig := last, repeatedFailureCount := count },
      reached.map (streakNote true call.toolName))
  else
    let (last, count, reached) :=
      countStreak state.lastSuccessSig state.repeatedSuccessCount (toolCallSignature call outcome)
    ({ state with
        lastFailureSig := none, repeatedFailureCount := 0, lastSuccessSig := last, repeatedSuccessCount := count },
      reached.map (streakNote false call.toolName))

def shouldStopAfterToolResult : Bool :=
  cfg.stopRules.any fun toolName => call.toolName = toolName && (match outcome with
    | .success _ => true
    | _ => false)

def buildToolResultMessage : ChatMessage :=
  .toolResult call.callId call.toolName (env.truncate call.toolName call.callId outcome.output)
    outcome.isFailure env.now

/-- The locals of `record_tool_results` beside the state of the loop. -/
structure Batch where
  state : LoopState
  streakNote : Option String := none
  suspendedCalls : List SuspendedToolCall := []
  stopAfterBatch : Bool := false

/-- The body of the loop of `record_tool_results`. -/
def recordToolResult (batch : Batch) (result : ToolUseBlock × ToolOutcome) : Batch :=
  let (call, outcome) := result
  let batch := { batch with stopAfterBatch := batch.stopAfterBatch || shouldStopAfterToolResult cfg call outcome }
  match outcome with
  | .suspended token => { batch with suspendedCalls := batch.suspendedCalls ++ [⟨call, token⟩] }
  | outcome =>
    let state := { batch.state with messages := batch.state.messages ++ [buildToolResultMessage env call outcome] }
    let (state, note) := updateToolStreak state call outcome
    { batch with state, streakNote := note.or batch.streakNote }

def recordToolResults (results : List (ToolUseBlock × ToolOutcome)) (ctx : LoopCtx) :
    LoopCtx × List SuspendedToolCall :=
  let batch := results.foldl (recordToolResult cfg env) { state := ctx.state }
  let ctx := { ctx with state := batch.state }
  if batch.suspendedCalls.isEmpty then
    let ctx := { ctx with forceReturnComplete := ctx.forceReturnComplete || batch.stopAfterBatch }
    ((match batch.streakNote with
      | some note => ctx.push (.user note)
      | none => ctx), [])
  else (ctx, batch.suspendedCalls)

def toolResults (calls : List ToolUseBlock) : List (ToolUseBlock × ToolOutcome) :=
  calls.zipIdx.map fun (call, i) => ({ call with input := env.hookedInput i call.input }, env.outcome i)

/-- The guard of `tool_exec::run`: whether the calls of `message` are executed. -/
def executesCalls : Bool :=
  !message.toolCalls.isEmpty && cfg.toolExecution && cfg.runtimeView && cfg.agentId.isSome

/-- `tool_exec::run`; returns the suspended calls. -/
def toolExecRun : LoopM (List SuspendedToolCall) := do
  let ctx ← get
  match ctx.assistantMessage with
  | none => return []
  | some message =>
    if executesCalls cfg message then
      let calls ← processLlmToolCalls cfg env
      modifyGet fun ctx => (recordToolResults cfg env (toolResults env calls) ctx).swap
    else
      modify (appendAssistantToHistory env.now)
      return []

/-! ### The loop -/

def applyChatMessageHook (hook : ChatMessage → ChatMessage) (candidate : ChatMessage) : ChatMessage :=
  if cfg.runtimeView then hook candidate else candidate

def userTurnMessage (message : UserMessage) : ChatMessage :=
  applyChatMessageHook cfg message.hook (.text .user message.text now)

def drainPendingUserMessages : LoopM Unit :=
  env.pending.forM fun message =>
    if isBlank message.text then return else modify fun ctx => ctx.push (userTurnMessage cfg env.now message)

/-- The part of a turn up to the answer of the model. -/
def requestPhase : LoopM Unit := do
  drainPendingUserMessages cfg env
  compress cfg env.compress false
  buildMessages cfg env.build
  preCheckTokenBudget cfg env
  llmCallWithRecovery cfg env.llm

inductive LoopDecision where
  | continueLoop
  | returnComplete
  | returnMaxTurns
  | returnCancelled

/-- The reminder of `decide`. -/
def planReminder (openTodos : List String) : String :=
  "You are about to stop, but your plan still has " ++ toString openTodos.length ++ " open item(s):\n" ++
  "\n".intercalate openTodos ++
  "\nFinish them now, or call todo_write to mark them completed/cancelled if they no longer apply — then stop."

/-- `can_execute_tool_calls` of `decide`, with the test that there are calls. -/
def continuesCalls : Bool :=
  !message.toolCalls.isEmpty && cfg.toolExecution && !cfg.visibleTools.isEmpty && cfg.runtimeView

/-- Whether `decide` answers a stop with the reminder of the open plan items. -/
def nudges (ctx : LoopCtx) : Bool :=
  !ctx.state.planNudged && ctx.turnNumber < cfg.maxTurns && cfg.runtimeView && !env.openTodos.isEmpty

/-- `decide`. -/
def decideTurn (ctx : LoopCtx) : LoopDecision × LoopCtx :=
  if env.cancelled then (.returnCancelled, ctx)
  else if ctx.forceReturnComplete then (.returnComplete, ctx)
  else if 0 < cfg.maxTurns && cfg.maxTurns ≤ ctx.turnNumber then (.returnMaxTurns, ctx)
  else if ctx.assistantMessage.any (continuesCalls cfg) then (.continueLoop, ctx)
  else if nudges cfg env ctx then
    (.continueLoop, LoopCtx.push { ctx with state := { ctx.state with planNudged := true } }
      (.user (planReminder env.openTodos)))
  else (.returnComplete, ctx)

/-- The end of a turn without suspended calls. -/
def endTurn (ctx : LoopCtx) : LoopCtx :=
  let (decision, ctx) := decideTurn cfg env ctx
  -- `turn_count` is a `u32`.
  let counted := { ctx.state with turnCount := (ctx.state.turnCount + 1) % UInt32.size }
  match decision with
  | .continueLoop => { ctx with state := counted, turnNumber := ctx.turnNumber + 1 }
  | .returnComplete => { ctx with state := counted, finished := some .complete }
  | .returnMaxTurns => { ctx with state := counted, finished := some .maxTurns }
  | .returnCancelled => { ctx with finished := some .cancelled }

/-- `TurnState::new`. -/
def LoopCtx.newTurn : LoopCtx :=
  { ctx with assistantMessage := none, request := none, forceReturnComplete := false }

/-- The body of the loop up to `decide`; returns the suspended calls. -/
def turnBody : LoopM (List SuspendedToolCall) := do
  requestPhase cfg env
  toolExecRun cfg env

/-- One turn of `run_agent_loop`; there is none once the run has ended. -/
def loopStep : Option LoopCtx :=
  if ctx.finished.isSome then none
  else match (turnBody cfg env).exec ctx.newTurn with
    | (.error e, ctx) => some { ctx with finished := some (.failed e) }
    | (.ok [], ctx) => some (endTurn cfg env ctx)
    | (.ok suspended, ctx) => some { ctx with finished := some (.suspended suspended) }

/-- The parts of `AgentLoopInput` that only the start of a run reads. -/
structure LoopInput where
  appendUserMessage : Bool
  message : UserMessage
  /-- `try_expand_skill_prefix`. -/
  expandSkill : String → Option String
  /-- The slash command, with the `command.execute.before` chain: the body and the reason
  of a denial. -/
  command : Option (String × (String → String × Option String))

variable (input : LoopInput)

/-- The text of the user turn, after the expansion of a skill and the command hooks, and
the text of a denial. -/
def startText : String × Option String :=
  let text := (input.expandSkill input.message.text).getD input.message.text
  match input.command with
  | some (command, before) =>
    if cfg.runtimeView then
      let (body, deny) := before text
      (body, deny.map fun reason => "Command '" ++ command ++ "' denied by plugin: " ++ reason)
    else (text, none)
  | none => (text, none)

/-- The user message of the run, as the hooks leave it. -/
def startMessage (now : ℕ) : ChatMessage :=
  userTurnMessage cfg now { input.message with text := (startText cfg input).1 }

/-- The start of `run_agent_loop`. -/
def startRun (now : ℕ) (state : LoopState) : LoopCtx :=
  if input.appendUserMessage then
    match (startText cfg input).2 with
    | some denyText => { LoopCtx.push { state } (.text .assistant denyText now) with finished := some .denied }
    | none => LoopCtx.push { state } (startMessage cfg input now)
  else { state }

end XiaoO.Conversation
