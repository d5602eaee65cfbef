import XiaoO.Conversation.TurnChanges

/-!
# Tool pairing of every request

Providers reject a request in which a tool call has no result or a result no
call. This module follows the history of the agent loop through all its turns
and says when every request of a run is paired.

## What is proved

* `sentPaired_of_run` — **every request of a run is paired** if the run starts
  from a paired history whose system and user messages carry no tool blocks and
  every turn meets `TurnOk`.
* `retry_sends_orphan_result` — without the condition it fails: the retry after
  a lone invalid call sends the error result of a call that is not in the history.

The argument is one invariant: the history is `Sound` between turns and while a
request is built, and each phase of a turn keeps it or ends the run.
-/

namespace XiaoO.Conversation

open XiaoO.Base List

variable {messages : List ChatMessage}

/-! ### Sound histories -/

/-- What the loop keeps of its history: it is paired, and what compaction keeps and
the prompt builder drops without looking, the system and user messages, carries no
tool blocks. -/
structure Sound (messages : List ChatMessage) : Prop where
  paired : ToolPaired messages
  plain : ∀ m ∈ messages, m.role = .system ∨ m.role = .user → m.toolEvents = []

theorem Sound.append {ns : List ChatMessage} (h : Sound messages) (hn : ∀ m ∈ ns, m.toolEvents = []) :
    Sound (messages ++ ns) where
  paired := by
    have hnt : toolEvents ns = [] := flatMap_eq_nil_iff.mpr hn
    rw [ToolPaired, toolEvents_append, hnt, append_nil]
    exact h.paired
  plain := by
    intro k hk hr
    rcases mem_append.mp hk with hk | hk
    · exact h.plain k hk hr
    · exact hn k hk

theorem Sound.push {m : ChatMessage} (h : Sound messages) (hm : m.toolEvents = []) : Sound (messages ++ [m]) :=
  h.append (by simpa using hm)

/-- Dropping messages without tool blocks leaves the log of tool blocks as it is. -/
theorem toolEvents_filter {p : ChatMessage → Bool} (h : ∀ m ∈ messages, p m = false → m.toolEvents = []) :
    toolEvents (messages.filter p) = toolEvents messages := by
  induction messages with
  | nil => rfl
  | cons m messages ih =>
    have ht := ih fun k hk => h k (mem_cons_of_mem m hk)
    cases hp : p m with
    | true => rw [filter_cons_of_pos hp, toolEvents_cons, toolEvents_cons, ht]
    | false =>
      rw [filter_cons_of_neg (by simp [hp]), toolEvents_cons, h m mem_cons_self hp, ht, nil_append]

/-- A request built from a sound history is paired. -/
theorem Sound.requestMessages (h : Sound messages) (e : BuildEnv) : ToolPaired (requestMessages e messages) := by
  have hr : toolEvents ((e.reminder.filter (fun r => !isBlank r)).toList.map ChatMessage.user) = [] := by
    cases e.reminder.filter (fun r => !isBlank r) <;> rfl
  have hh : toolEvents (messages.filter (fun m => m.role ≠ .system)) = toolEvents messages :=
    toolEvents_filter fun m hm hrl => h.plain m hm (.inl (by simpa using hrl))
  rw [ToolPaired, XiaoO.Conversation.requestMessages, toolEvents_append, toolEvents_cons, hh, hr]
  simpa [ToolPaired] using h.paired

/-! ### Compression -/

theorem toolEvent_pruneBlock (k : ℕ) (b : ContentBlock) : (pruneBlock k b).2.toolEvent? = b.toolEvent? := by
  cases b with
  | toolResult =>
    simp only [pruneBlock]
    split_ifs <;> rfl
  | _ => rfl

theorem toolEvents_pruneBlocks (k : ℕ) (bs : List ContentBlock) :
    (pruneBlocks k bs).2.filterMap ContentBlock.toolEvent? = bs.filterMap ContentBlock.toolEvent? := by
  induction bs generalizing k with
  | nil => rfl
  | cons b bs ih => simp only [pruneBlocks, filterMap_cons, toolEvent_pruneBlock, ih]

/-- Pruning changes neither the roles of the messages nor their parts in the log. -/
theorem map_pruneStaleToolOutput (messages : List ChatMessage) :
    (pruneStaleToolOutput messages).map (fun m => (m.role, m.toolEvents)) =
      messages.map fun m => (m.role, m.toolEvents) := by
  unfold pruneStaleToolOutput
  induction messages with
  | nil => rfl
  | cons m messages ih =>
    have hm : ∀ k, ({ m with blocks := (pruneBlocks k m.blocks).2 } : ChatMessage).toolEvents = m.toolEvents :=
      fun k => toolEvents_pruneBlocks k m.blocks
    simp only [pruneFrom, map_cons, hm, ih]

theorem toolEvents_pruneStaleToolOutput (messages : List ChatMessage) :
    toolEvents (pruneStaleToolOutput messages) = toolEvents messages := by
  have hev : ∀ ms : List ChatMessage, toolEvents ms = (ms.map fun m => (m.role, m.toolEvents)).flatMap Prod.snd :=
    fun ms => by rw [toolEvents, flatMap_map]
  rw [hev, map_pruneStaleToolOutput, ← hev]

theorem Sound.prune (h : Sound messages) : Sound (pruneStaleToolOutput messages) where
  paired := by
    rw [ToolPaired, toolEvents_pruneStaleToolOutput]
    exact h.paired
  plain := by
    intro m' hm' hrl
    have hmm := mem_map_of_mem (f := fun m => (m.role, m.toolEvents)) hm'
    rw [map_pruneStaleToolOutput] at hmm
    obtain ⟨m, hm, heq⟩ := mem_map.mp hmm
    obtain ⟨hr, he⟩ := Prod.mk.inj heq
    rw [← he]
    exact h.plain m hm (hr ▸ hrl)

/-- What compaction keeps outright in a sound history carries no tool blocks. -/
theorem Sound.keptApart (h : Sound messages) : KeptApart messages none := by
  intro i j m n hm _ hi _ e he
  have hr : m.role = .system ∨ m.role = .user := by
    rcases hi with ⟨k, hk, hs⟩ | hf | ⟨b, p, hb, -⟩
    · exact .inl (Option.some.inj (hm.symm.trans hk) ▸ hs)
    · obtain ⟨hlt, hu, -⟩ := findIdx?_eq_some_iff_getElem.mp hf.symm
      obtain ⟨_, rfl⟩ := List.getElem?_eq_some_iff.mp hm
      exact .inr (by simpa using hu)
    · simp at hb
  rw [h.plain m (mem_of_getElem? hm) hr] at he
  exact absurd he not_mem_nil

variable {c : CompressionMeta} {calls : List ToolUseBlock} {ctx ctx' : LoopCtx} {message : AssistantMessage}

theorem Sound.autoCompact {s : List ChatMessage → Option String → CompactResult String} {p : ℕ}
    {r : CompactionResult} (h : Sound messages) (hr : autoCompact s messages c none p = .ok r) :
      Sound r.messages where
  paired := h.paired.autoCompact h.keptApart hr
  plain := by
    intro m hm hrl
    obtain ⟨cs, -, ⟨-, heq⟩ | ⟨-, sm, -, heq⟩⟩ := autoCompact_cases hr
    · exact h.plain m (heq ▸ hm) hrl
    · rw [heq] at hm
      rcases mem_applyCandidateReplacement hm with hm | rfl
      · exact h.plain m hm hrl
      · rfl

/-- A pipeline returns the history as it is or compacted. -/
theorem compress_cases {pp : CompressionPipeline} {e : CompressEnv} {c' : CompressionMeta}
    {ms' : List ChatMessage} (h : pp.compress e messages c = .ok (ms', c')) :
    ms' = messages ∨ ∃ p r, autoCompact e.summarize messages c none p = .ok r ∧ ms' = r.messages := by
  cases pp with
  | passthrough => exact .inl (Prod.mk.inj (Except.ok.inj h)).1.symm
  | contextManager p =>
    simp only [CompressionPipeline.compress] at h
    split_ifs at h
    · cases hc : autoCompact e.summarize messages c none p with
      | error => simp [hc, Except.map] at h
      | ok r =>
        simp only [hc, Except.map, Except.ok.injEq, Prod.mk.injEq] at h
        exact .inr ⟨p, r, hc, h.1.symm⟩
    · exact .inl (Prod.mk.inj (Except.ok.inj h)).1.symm

theorem Sound.compress {p : CompressionPipeline} {e : CompressEnv} {c' : CompressionMeta}
    {messages' : List ChatMessage} (h : Sound messages)
    (hr : p.compress e messages c = .ok (messages', c')) : Sound messages' := by
  obtain rfl | ⟨pt, r, hc, rfl⟩ := compress_cases hr
  · exact h
  · exact h.autoCompact hc

/-! ### The request phase -/

/-- Every request sent so far is paired. -/
def SentPaired (ctx : LoopCtx) : Prop := ∀ r ∈ ctx.sent, ToolPaired r

/-- What holds while a request is being built and sent. -/
structure Ready (ctx : LoopCtx) : Prop where
  sound : Sound ctx.state.messages
  request : ∀ r ∈ ctx.request, ToolPaired r
  sent : SentPaired ctx

/-- The user messages of a turn carry no tool blocks, whatever the hooks made of them. -/
def HooksPlain (cfg : LoopConfig) (env : TurnEnv) : Prop :=
  ∀ message ∈ env.pending, (userTurnMessage cfg env.now message).toolEvents = []
  deriving Decidable

variable {cfg : LoopConfig} {env : TurnEnv}

theorem ready_requestKept : RequestKept cfg fun _ _ => Ready where
  compressed h hc := ⟨(h.sound.compress hc).prune, h.request, h.sent⟩
  built env h := ⟨h.sound, fun r hr => Option.some.inj hr ▸ h.sound.requestMessages env, h.sent⟩
  sent _ h := by
    refine ⟨h.sound, h.request, fun r hr => ?_⟩
    rcases mem_append.mp hr with hr | hr
    · exact h.sent r hr
    · exact h.request r (Option.mem_toList.mp hr)
  heard h _ := ⟨h.sound, h.request, h.sent⟩

/-- **The request phase keeps the history sound and sends only paired requests.** -/
theorem triple_requestPhase (h : HooksPlain cfg env) :
    Triple Ready (requestPhase cfg env) (fun _ => Ready) SentPaired := by
  refine (ready_requestKept.triple_requestPhase fun m hm ctx hc => ?_).imp_error ?_
  · exact ⟨hc.sound.push (h m hm), hc.request, hc.sent⟩
  · rintro ctx ⟨_, _, -, hs⟩
    exact hs.sent

/-! ### When a batch is recorded paired -/

def validCalls (cfg : LoopConfig) (ctx : LoopCtx) (message : AssistantMessage) : List ToolUseBlock :=
  (normalize cfg ctx.state.turnCount message.toolCalls).filter isValidToolCall

/-- The answer consists of one invalid call. -/
def LoneInvalid (cfg : LoopConfig) (ctx : LoopCtx) (message : AssistantMessage) : Prop :=
  message.toolCalls.length = 1 ∧ validCalls cfg ctx message = []
  deriving Decidable

/-- Cancelled, or the last of the allowed turns. -/
def LastTurn (cfg : LoopConfig) (env : TurnEnv) (ctx : LoopCtx) : Prop :=
  env.cancelled = true ∨ 0 < cfg.maxTurns ∧ cfg.maxTurns ≤ ctx.turnNumber
  deriving Decidable

/-- The condition on an answer when its calls are taken up. If they are executed, there
is no retry with a lone invalid call, and the valid calls have ids of their own; if
they are not, nothing follows them. -/
def BatchOk (cfg : LoopConfig) (env : TurnEnv) (ctx : LoopCtx) (message : AssistantMessage) : Prop :=
  if executesCalls cfg message then
    (LoneInvalid cfg ctx message → env.retry.first.cancelled = true) ∧
      (LastTurn cfg env ctx ∨ ((validCalls cfg ctx message).map ToolUseBlock.callId).Nodup ∧
        ∀ tc ∈ validCalls cfg ctx message, ∀ e ∈ toolEvents ctx.state.messages, tc.callId ≠ e.id)
  else message.toolCalls = [] ∨ LastTurn cfg env ctx ∨ continuesCalls cfg message = false ∧
    nudges cfg env ctx = false
  deriving Decidable

/-- The condition at the end of the request phase. -/
def AnswerOk (cfg : LoopConfig) (env : TurnEnv) : Except AgentError Unit × LoopCtx → Prop
  | (.ok _, ctx) => ∀ message ∈ ctx.assistantMessage, BatchOk cfg env ctx message
  | (.error _, _) => True

/-- The condition on a turn: its hooks put no tool blocks into user messages, and the
answer it gets meets `BatchOk`. -/
def TurnOk (cfg : LoopConfig) (ctx : LoopCtx) (env : TurnEnv) : Prop :=
  HooksPlain cfg env ∧ AnswerOk cfg env ((requestPhase cfg env).exec ctx.newTurn)

instance : (result : Except AgentError Unit × LoopCtx) → Decidable (AnswerOk cfg env result)
  | (.ok _, ctx) => inferInstanceAs (Decidable (∀ message ∈ ctx.assistantMessage, BatchOk cfg env ctx message))
  | (.error _, _) => isTrue trivial

instance (ctx : LoopCtx) : Decidable (TurnOk cfg ctx env) := inferInstanceAs (Decidable (_ ∧ _))

/-! ### Normalising twice -/

theorem isBlank_synthesized (t i : ℕ) : isBlank ("call_" ++ toString t ++ "_" ++ toString i) = false := by
  have hc : isWhitespace 'c' = false := by decide
  simp [isBlank, String.toList_append, hc]

theorem isBlank_synthesizeMissingCallIds {t : ℕ} {tc : ToolUseBlock}
    (h : tc ∈ synthesizeMissingCallIds t calls) : isBlank tc.callId = false := by
  obtain ⟨⟨k, i⟩, -, rfl⟩ := mem_map.mp h
  dsimp only
  split_ifs with hk
  · exact isBlank_synthesized t i
  · simpa using hk

theorem synthesizeMissingCallIds_eq_self {t : ℕ}
    (h : ∀ tc ∈ calls, isBlank tc.callId = false) : synthesizeMissingCallIds t calls = calls := by
  have hf : calls.zipIdx.map Prod.fst = calls := zipIdx_map_fst 0 calls
  conv_rhs => rw [← hf]
  refine map_congr_left fun x hx => ?_
  have := h x.1 (fst_mem_of_mem_zipIdx hx)
  simp [this]

theorem repairToolName_idem (visible : List String) (tc : ToolUseBlock) :
    repairToolName visible (repairToolName visible tc) = repairToolName visible tc := by
  by_cases hm : tc.toolName ∈ visible
  · have hs : repairToolName visible tc = tc := by simp [repairToolName, hm]
    rw [hs, hs]
  · cases hf : visible.find? (fun n => normalizeToolName n = normalizeToolName tc.toolName) with
    | none =>
      have hs : repairToolName visible tc = tc := by simp [repairToolName, hm, hf]
      rw [hs, hs]
    | some fixed =>
      have hfx : repairToolName visible tc = { tc with toolName := fixed } := by
        simp [repairToolName, hm, hf]
      rw [hfx]
      simp [repairToolName, mem_of_find?_eq_some hf]

theorem callId_repairToolName (v : List String) (tc : ToolUseBlock) : (repairToolName v tc).callId = tc.callId := by
  unfold repairToolName
  split
  · rfl
  · split <;> rfl

/-- Calls that have been normalised stay as they are. -/
theorem normalize_idem (cfg : LoopConfig) (turn : ℕ) (calls : List ToolUseBlock) :
    normalize cfg turn (normalize cfg turn calls) = normalize cfg turn calls := by
  have hi : ∀ tc ∈ normalize cfg turn calls, isBlank tc.callId = false := by
    intro tc htc
    obtain ⟨k, hk, rfl⟩ := mem_map.mp htc
    rw [callId_repairToolName]
    exact isBlank_synthesizeMissingCallIds hk
  conv_lhs => rw [normalize, synthesizeMissingCallIds_eq_self hi]
  rw [normalize, repairToolNames, repairToolNames, map_map]
  exact map_congr_left fun tc _ => repairToolName_idem cfg.visibleTools tc

/-! ### The calls that are executed -/

/-- The same context up to the request being built. -/
def SameButRequest (ctx ctx' : LoopCtx) : Prop := ∃ request, ctx' = { ctx with request }

theorem triple_buildMessages_same (env : BuildEnv) (ctx : LoopCtx) :
    Triple (SameButRequest ctx) (buildMessages cfg env) (fun _ => SameButRequest ctx) (SameButRequest ctx) := by
  refine triple_get_bind fun _ ⟨r, hs⟩ => ?_
  dsimp only
  split
  · exact triple_throw fun _ hs' => ⟨r, hs'.trans hs⟩
  · refine triple_modify fun _ hs' => ⟨some (requestMessages env ctx.state.messages), ?_⟩
    subst hs' hs
    rfl

theorem triple_llmCallWithRecovery_cancelled {env : RecoveryEnv} (h : env.first.cancelled = true)
    (P : LoopCtx → Prop) (E : LoopCtx → Prop) : Triple P (llmCallWithRecovery cfg env) (fun _ => P) E := by
  have hc : llmCall env.first = pure none := by simp [llmCall, h]
  rw [llmCallWithRecovery, hc, pure_bind]
  exact triple_pure fun _ hs => hs

/-- A request that is not sent is all that a retry leaves behind once the run has been
cancelled. -/
theorem triple_retryInvalidToolCall (hc : env.retry.first.cancelled = true) (i : ToolUseBlock) (ctx : LoopCtx) :
    Triple (SameButRequest ctx) (retryInvalidToolCall cfg env i) (fun _ => SameButRequest ctx)
      (SameButRequest ctx) := by
  let pushed := ctx.push (buildInvalidToolCallResult env.now i)
  have hps : ∀ s, SameButRequest ctx s → SameButRequest pushed (s.push (buildInvalidToolCallResult env.now i)) := by
    rintro _ ⟨rq, rfl⟩
    exact ⟨rq, rfl⟩
  refine triple_bind (triple_modify (Q := fun _ => SameButRequest pushed) hps) fun _ => ?_
  refine triple_bind (triple_attempt (Q := fun _ => SameButRequest pushed)
    (E := SameButRequest pushed) ?_) fun r => ?_
  · refine triple_bind (triple_attempt (triple_buildMessages_same env.retryBuild pushed)) fun r => ?_
    cases r with
    | error => exact triple_throw fun _ hs => hs
    | ok => exact triple_llmCallWithRecovery_cancelled hc _ _
  have hp : ∀ s, SameButRequest pushed s → SameButRequest ctx (s.setMessages s.state.messages.dropLast) := by
    rintro _ ⟨rq, rfl⟩
    exact ⟨rq, by simp [pushed, LoopCtx.push, LoopCtx.setMessages]⟩
  cases r with
  | error =>
    exact triple_bind (triple_modify (Q := fun _ => SameButRequest ctx) hp) fun _ => triple_throw fun _ hs => hs
  | ok =>
    exact triple_bind (triple_modify (Q := fun _ => SameButRequest ctx) hp) fun _ => triple_pure fun _ hs => hs

theorem triple_normalizedToolCalls {E : LoopCtx → Prop} (hm : ctx.assistantMessage = some message) :
    Triple (SameButRequest ctx) (normalizedToolCalls cfg)
      (fun calls s => calls = (normalize cfg ctx.state.turnCount message.toolCalls).partition isValidToolCall ∧
        SameButRequest { ctx with assistantMessage := some { message with
          toolCalls := normalize cfg ctx.state.turnCount message.toolCalls } } s) E := by
  refine triple_get_bind fun s ⟨r, hs⟩ => ?_
  subst hs
  simp only [hm]
  refine triple_bind (triple_modify fun s hs => ?_) fun _ => triple_pure fun s hs => ⟨rfl, hs⟩
  exact ⟨r, by rw [hs]⟩

theorem length_normalize (cfg : LoopConfig) (t : ℕ) (calls : List ToolUseBlock) :
    (normalize cfg t calls).length = calls.length := by
  simp [normalize, repairToolNames, synthesizeMissingCallIds]

theorem loneInvalid_of_partition {i : ToolUseBlock}
    (h : (normalize cfg ctx.state.turnCount message.toolCalls).partition isValidToolCall = ([], [i])) :
    LoneInvalid cfg ctx message := by
  rw [partition_eq_filter_filter, Prod.mk.injEq] at h
  refine ⟨?_, h.1⟩
  have hl := length_eq_length_filter_add (l := normalize cfg ctx.state.turnCount message.toolCalls)
    isValidToolCall
  have hi := congrArg length h.2
  simp only [h.1, length_nil, length_normalize] at hl
  simpa [Function.comp_def] using hl.trans (by simpa [Function.comp_def] using hi)

/-- The calls of an answer for which no retry request is made. -/
theorem triple_callsAfterRetry (hm : ctx.assistantMessage = some message)
    (hl : LoneInvalid cfg ctx message → env.retry.first.cancelled = true) :
    Triple (SameButRequest ctx) (callsAfterRetry cfg env) (fun calls s => calls.1 = validCalls cfg ctx message ∧
        SameButRequest { ctx with assistantMessage := some { message with
          toolCalls := normalize cfg ctx.state.turnCount message.toolCalls } } s)
      (fun s => s.sent = ctx.sent) := by
  refine triple_bind (triple_normalizedToolCalls hm) fun calls => ?_
  have hv : ((normalize cfg ctx.state.turnCount message.toolCalls).partition isValidToolCall).1 =
      validCalls cfg ctx message := by rw [partition_eq_filter_filter, validCalls]
  split
  · next i =>
    refine triple_of_imp fun hcl => ?_
    have hc : env.retry.first.cancelled = true := hl (loneInvalid_of_partition hcl.symm)
    refine triple_bind ((triple_retryInvalidToolCall hc i _).imp_error fun s ⟨rq, hs⟩ => hs ▸ rfl) fun _ => ?_
    refine (triple_normalizedToolCalls rfl).imp fun r s hr => ?_
    simpa only [normalize_idem, hr.1, hv, true_and] using hr.2
  · exact triple_pure fun s hs => ⟨hs.1 ▸ hv, hs.2⟩

/-- What `process_llm_tool_calls` does when it makes no retry request: it fails, or
records the answer with its valid calls. -/
theorem triple_processLlmToolCalls (hm : ctx.assistantMessage = some message)
    (hl : LoneInvalid cfg ctx message → env.retry.first.cancelled = true) :
    Triple (· = ctx) (processLlmToolCalls cfg env)
      (fun calls s => calls = joinsLast (validCalls cfg ctx message) ∧
        ∃ request, s = appendAssistantToHistory env.now
          { ctx with request, assistantMessage := some { message with toolCalls := calls } })
      (fun s => s.sent = ctx.sent) := by
  refine triple_bind ((triple_callsAfterRetry hm hl).conseq (fun s hs => ⟨s.request, hs ▸ rfl⟩)
    (fun _ _ hs => hs) fun _ hs => hs) fun calls => triple_of_imp fun hc => ?_
  rw [hc]
  refine triple_bind (triple_modify fun s hs => ?_) fun _ => triple_pure fun s hs => ⟨rfl, hs⟩
  obtain ⟨request, rfl⟩ := hs
  exact ⟨request, rfl⟩

/-! ### The recorded batch -/

theorem messages_updateToolStreak (s : LoopState) (cl : ToolUseBlock) (o : ToolOutcome) :
    (updateToolStreak s cl o).1.messages = s.messages := by
  unfold updateToolStreak
  split <;> rfl

/-- One result is recorded as a message, or its call is suspended. -/
theorem recordToolResult_cases (cfg : LoopConfig) (env : TurnEnv) (b : Batch) (r : ToolUseBlock × ToolOutcome) :
    (recordToolResult cfg env b r).suspendedCalls ≠ [] ∨
      (recordToolResult cfg env b r).suspendedCalls = b.suspendedCalls ∧
      (recordToolResult cfg env b r).state.messages = b.state.messages ++ [buildToolResultMessage env r.1 r.2] := by
  obtain ⟨cl, o⟩ := r
  cases o with
  | suspended => exact .inl (by simp [recordToolResult])
  | success | error | failed | denied =>
    exact .inr ⟨rfl, by simp [recordToolResult, messages_updateToolStreak]⟩

/-- If no call is suspended, every result is recorded, in order. -/
theorem messages_recorded {rs : List (ToolUseBlock × ToolOutcome)} {bt : Batch}
    (h : (rs.foldl (recordToolResult cfg env) bt).suspendedCalls = []) :
    (rs.foldl (recordToolResult cfg env) bt).state.messages =
      bt.state.messages ++ rs.map fun r => buildToolResultMessage env r.1 r.2 := by
  induction rs generalizing bt with
  | nil => simp
  | cons re rs ih =>
    rw [foldl_cons] at h ⊢
    obtain hne | ⟨-, hm⟩ := recordToolResult_cases cfg env bt re
    · -- A suspended call stays suspended to the end of the batch.
      have hl : (rs.foldl (recordToolResult cfg env) (recordToolResult cfg env bt re)).suspendedCalls ≠ [] :=
        foldlRecOn (motive := fun b : Batch => b.suspendedCalls ≠ []) rs _ hne
          fun b hb r _ => (recordToolResult_cases cfg env b r).elim id fun ⟨heq, _⟩ => heq ▸ hb
      exact absurd h hl
    · rw [ih h, hm, append_assoc, map_cons, singleton_append]

theorem recordToolResults_spec {rs : List (ToolUseBlock × ToolOutcome)}
    {s : List SuspendedToolCall} (h : recordToolResults cfg env rs ctx = (ctx', s)) :
    ctx'.sent = ctx.sent ∧ ctx'.turnNumber = ctx.turnNumber ∧ (s = [] → ∃ ns,
      (∀ m ∈ ns, m.toolEvents = []) ∧ ctx'.state.messages =
        ctx.state.messages ++ rs.map (fun r => buildToolResultMessage env r.1 r.2) ++ ns) := by
  simp only [recordToolResults] at h
  split_ifs at h with hn
  · obtain ⟨hc, -⟩ := Prod.mk.inj h
    have hm := messages_recorded (isEmpty_iff.mp hn)
    split at hc
    · next n hnt =>
      subst hc
      exact ⟨rfl, rfl, fun _ =>
        ⟨[.user n], by simp [ChatMessage.user], by simp [LoopCtx.push, LoopCtx.setMessages, hm]⟩⟩
    · subst hc
      exact ⟨rfl, rfl, fun _ => ⟨[], by simp, by simpa using hm⟩⟩
  · obtain ⟨hc, hs⟩ := Prod.mk.inj h
    subst hc
    exact ⟨rfl, rfl, fun hnl => absurd (hs.trans hnl) (by simpa using hn)⟩

theorem toolEvents_assistantChatMessage (n : ℕ) (message : AssistantMessage) :
    (assistantChatMessage n message).toolEvents = (message.toolCalls.map ToolUseBlock.callId).map .call := by
  have ht : (message.text.toList.map ContentBlock.text).filterMap ContentBlock.toolEvent? = [] := by
    cases message.text <;> rfl
  rw [ChatMessage.toolEvents, assistantChatMessage, filterMap_append, ht, nil_append, filterMap_map,
    map_map, ← filterMap_eq_map]
  rfl

theorem toolEvents_results (env : TurnEnv) (calls : List ToolUseBlock) :
    toolEvents ((toolResults env calls).map fun r => buildToolResultMessage env r.1 r.2) =
      (calls.map ToolUseBlock.callId).map .answer := by
  have hf : calls.zipIdx.map Prod.fst = calls := zipIdx_map_fst 0 calls
  conv_rhs => rw [← hf]
  simp only [toolEvents, toolResults, flatMap_map, map_map]
  rw [← flatMap_pure_eq_map]
  rfl

/-- **A batch with ids of its own keeps the history sound.** -/
theorem Sound.batch (h : Sound messages) (env : TurnEnv) (message : AssistantMessage)
    (hn : (message.toolCalls.map ToolUseBlock.callId).Nodup)
    (hfr : ∀ tc ∈ message.toolCalls, ∀ e ∈ toolEvents messages, tc.callId ≠ e.id) :
    Sound (messages ++ [assistantChatMessage env.now message] ++
      (toolResults env message.toolCalls).map fun r => buildToolResultMessage env r.1 r.2) where
  paired := by
    rw [ToolPaired, toolEvents_append, toolEvents_append, toolEvents_cons, toolEvents_nil, append_nil,
      toolEvents_assistantChatMessage, toolEvents_results, append_assoc]
    refine Paired.append h.paired (paired_batch hn) fun e he f hf => ?_
    have hid : f.id ∈ message.toolCalls.map ToolUseBlock.callId := by
      rcases mem_append.mp hf with hf | hf <;> obtain ⟨c, hc, rfl⟩ := mem_map.mp hf <;> exact hc
    obtain ⟨tc, htc, hid⟩ := mem_map.mp hid
    exact hid ▸ hfr tc htc e he
  plain := by
    intro m hm hr
    rcases mem_append.mp hm with hm | hm
    · rcases mem_append.mp hm with hm | hm
      · exact h.plain m hm hr
      · rw [mem_singleton.mp hm] at hr
        simp [assistantChatMessage] at hr
    · obtain ⟨r, -, rfl⟩ := mem_map.mp hm
      simp [buildToolResultMessage, ChatMessage.toolResult] at hr

/-! ### The tool phase -/

/-- A cancelled run and the last allowed turn end. -/
theorem decideTurn_of_lastTurn (h : LastTurn cfg env ctx) : (decideTurn cfg env ctx).1 ≠ .continueLoop := by
  unfold decideTurn
  rcases h with hc | ⟨hp, hl⟩
  · simp [hc]
  · split_ifs <;> simp_all

/-- Calls that are not executed are followed by nothing. -/
theorem decideTurn_of_unexecuted (hm : ctx.assistantMessage = some message) (hc : continuesCalls cfg message = false)
    (hn : nudges cfg env ctx = false) : (decideTurn cfg env ctx).1 ≠ .continueLoop := by
  simp only [decideTurn, hm, Option.any_some, hc, hn, Bool.false_eq_true, if_false]
  split_ifs <;> simp

theorem perm_joinsLast (calls : List ToolUseBlock) : (joinsLast calls).Perm calls := by
  have hn : calls.filter (fun tc => tc.toolName = "join_subagent") =
      calls.filter (fun tc => !decide (tc.toolName ≠ "join_subagent")) := by simp
  rw [joinsLast, hn]
  exact filter_append_perm _ calls

/-- What holds after the tool phase: unless calls are suspended, the history is sound if
the loop goes on. -/
def Recorded (cfg : LoopConfig) (env : TurnEnv) (suspended : List SuspendedToolCall) (ctx : LoopCtx) : Prop :=
  SentPaired ctx ∧ (suspended = [] → (decideTurn cfg env ctx).1 = .continueLoop → Sound ctx.state.messages)

/-- Executed calls are recorded with their results. -/
theorem recorded_batch {request : Option (List ChatMessage)} {s : List SuspendedToolCall} (hct : Ready ctx)
    (hc : calls = joinsLast (validCalls cfg ctx message))
    (hi : LastTurn cfg env ctx ∨ ((validCalls cfg ctx message).map ToolUseBlock.callId).Nodup ∧
      ∀ tc ∈ validCalls cfg ctx message, ∀ e ∈ toolEvents ctx.state.messages, tc.callId ≠ e.id)
    (h : recordToolResults cfg env (toolResults env calls) (appendAssistantToHistory env.now
      { ctx with request, assistantMessage := some { message with toolCalls := calls } }) = (ctx', s)) :
    Recorded cfg env s ctx' := by
  obtain ⟨hs, ht, hm⟩ := recordToolResults_spec h
  refine ⟨fun r hr => hct.sent r (hs ▸ hr), fun hnn hgo => ?_⟩
  rcases hi with hl | ⟨hn, hf⟩
  · exact absurd hgo (decideTurn_of_lastTurn (by rw [LastTurn, ht]; exact hl))
  · obtain ⟨ns, hnt, hm⟩ := hm hnn
    have hp := hc ▸ perm_joinsLast (validCalls cfg ctx message)
    have hb := hct.sound.batch env { message with toolCalls := calls }
      ((hp.map _).nodup_iff.mpr hn) fun tc htc => hf tc (hp.mem_iff.mp htc)
    rw [hm]
    exact hb.append hnt

/-- **The tool phase records calls with their results, or ends the run.** -/
theorem triple_toolExecRun (hc : Ready ctx) (hok : ∀ message ∈ ctx.assistantMessage, BatchOk cfg env ctx message) :
    Triple (· = ctx) (toolExecRun cfg env) (Recorded cfg env) SentPaired := by
  refine triple_get_bind fun s hs => ?_
  subst hs
  cases hm : s.assistantMessage with
  | none => exact triple_pure fun s hs => hs ▸ ⟨hc.sent, fun _ _ => hc.sound⟩
  | some message =>
    have hb := hok message hm
    refine triple_ite (fun he => ?_) fun he => ?_
    · rw [BatchOk, if_pos he] at hb
      refine triple_bind ((triple_processLlmToolCalls hm hb.1).imp_error fun s' hs r hr => hc.sent r (hs ▸ hr))
        fun calls => triple_of_imp fun hcl => ?_
      refine triple_modifyGet ?_
      rintro s' ⟨rq, rfl⟩
      exact recorded_batch hc hcl hb.2 rfl
    · rw [BatchOk, if_neg he] at hb
      have ha : ∀ s', s' = s → Recorded cfg env [] (appendAssistantToHistory env.now s') := by
        rintro s' rfl
        simp only [appendAssistantToHistory, hm]
        refine ⟨hc.sent, fun _ hgo => ?_⟩
        rcases hb with hnn | hl | ⟨hcn, hn⟩
        · refine hc.sound.push ?_
          rw [toolEvents_assistantChatMessage, hnn]
          rfl
        · exact absurd hgo (decideTurn_of_lastTurn hl)
        · exact absurd hgo (decideTurn_of_unexecuted hm hcn hn)
      exact triple_bind (triple_modify (Q := fun _ => Recorded cfg env []) ha) fun _ => triple_pure fun _ hs => hs

/-! ### Runs -/

/-- The invariant of the loop: every request sent is paired, and while the run goes on,
so is the history. -/
structure LoopInv (ctx : LoopCtx) : Prop where
  sent : SentPaired ctx
  sound : ctx.finished = none → Sound ctx.state.messages

/-- `decide` adds at most a reminder. -/
theorem decideTurn_spec (cfg : LoopConfig) (env : TurnEnv) (ctx : LoopCtx) :
    (decideTurn cfg env ctx).2.sent = ctx.sent ∧ ∃ notes, (∀ m ∈ notes, m.toolEvents = []) ∧
      (decideTurn cfg env ctx).2.state.messages = ctx.state.messages ++ notes := by
  have hs : ∃ notes : List ChatMessage, (∀ m ∈ notes, m.toolEvents = []) ∧
      ctx.state.messages = ctx.state.messages ++ notes := ⟨[], by simp, by simp⟩
  unfold decideTurn
  split_ifs
  · exact ⟨rfl, hs⟩
  · exact ⟨rfl, hs⟩
  · exact ⟨rfl, hs⟩
  · exact ⟨rfl, hs⟩
  · exact ⟨rfl, [.user (planReminder env.openTodos)], by simp [ChatMessage.user], rfl⟩
  · exact ⟨rfl, hs⟩

theorem LoopInv.endTurn (h : Recorded cfg env [] ctx) : LoopInv (endTurn cfg env ctx) := by
  obtain ⟨hs, ns, hn, hm⟩ := decideTurn_spec cfg env ctx
  have hp : SentPaired (decideTurn cfg env ctx).2 := fun r hr => h.1 r (hs ▸ hr)
  simp only [XiaoO.Conversation.endTurn]
  cases hd : (decideTurn cfg env ctx).1 with
  | continueLoop =>
    refine ⟨hp, fun _ => ?_⟩
    show Sound (decideTurn cfg env ctx).2.state.messages
    rw [hm]
    exact (h.2 rfl hd).append hn
  | returnComplete | returnMaxTurns | returnCancelled => exact ⟨hp, fun hgo => by simp at hgo⟩

theorem Ready.newTurn (h : LoopInv ctx) (hgo : ctx.finished = none) : Ready ctx.newTurn :=
  ⟨h.sound hgo, fun r hr => by simp [LoopCtx.newTurn] at hr, h.sent⟩

/-- The two phases of a turn together. -/
theorem triple_turnBody (hr : Ready ctx.newTurn) (hok : TurnOk cfg ctx env) :
    Triple (· = ctx.newTurn) (turnBody cfg env) (Recorded cfg env) SentPaired := by
  rintro _ rfl
  have ha := hok.2
  rw [turnBody, Prog.exec_bind]
  rcases he : (requestPhase cfg env).exec ctx.newTurn with ⟨e | u, ctx'⟩
  · exact (triple_requestPhase hok.1).error hr he
  · rw [he] at ha
    exact triple_toolExecRun ((triple_requestPhase hok.1).ok hr he) ha ctx' rfl

/-- How a turn ends: with an error, with `decide`, or with suspended calls. -/
theorem loopStep_cases (h : loopStep cfg ctx env = some ctx') : ctx.finished = none ∧
      ((∃ e body, (turnBody cfg env).exec ctx.newTurn = (.error e, body) ∧
          ctx' = { body with finished := some (.failed e) }) ∨
        (∃ body, (turnBody cfg env).exec ctx.newTurn = (.ok [], body) ∧ ctx' = endTurn cfg env body) ∨
        ∃ s body, s ≠ [] ∧ (turnBody cfg env).exec ctx.newTurn = (.ok s, body) ∧
          ctx' = { body with finished := some (.suspended s) }) := by
  unfold loopStep at h
  split_ifs at h with hf
  refine ⟨by simpa using hf, ?_⟩
  split at h <;> obtain rfl := Option.some.inj h <;> rename_i he
  · exact .inl ⟨_, _, he, rfl⟩
  · exact .inr (.inl ⟨_, he, rfl⟩)
  · exact .inr (.inr ⟨_, _, by assumption, he, rfl⟩)

theorem LoopInv.step (h : LoopInv ctx) (hok : TurnOk cfg ctx env)
    (hs : loopStep cfg ctx env = some ctx') : LoopInv ctx' := by
  obtain ⟨hgo, he⟩ := loopStep_cases hs
  have ht := triple_turnBody (.newTurn h hgo) hok ctx.newTurn rfl
  rcases he with ⟨e, b, hex, rfl⟩ | ⟨b, hex, rfl⟩ | ⟨s, b, -, hex, rfl⟩
  all_goals rw [hex] at ht
  · exact ⟨ht, fun hgo => by simp at hgo⟩
  · exact .endTurn ht
  · exact ⟨ht.1, fun hgo => by simp at hgo⟩

theorem LoopInv.start {i : LoopInput} {n : ℕ} {s : LoopState} (hs : Sound s.messages)
    (hh : (startMessage cfg i n).toolEvents = []) : LoopInv (startRun cfg i n s) := by
  unfold startRun
  split_ifs
  · split
    · exact ⟨fun r hr => absurd hr not_mem_nil, fun hgo => by simp at hgo⟩
    · exact ⟨fun r hr => absurd hr not_mem_nil, fun _ => hs.push hh⟩
  · exact ⟨fun r hr => absurd hr not_mem_nil, fun _ => hs⟩

/-- **Every request of a run is paired** when the run starts from a paired history whose
system and user messages carry no tool blocks, and every turn meets `TurnOk`. -/
theorem sentPaired_of_run (cfg : LoopConfig) (input : LoopInput) (now : ℕ) (state : LoopState) {ctx : LoopCtx}
    (hpaired : ToolPaired state.messages)
    (hplain : ∀ m ∈ state.messages, m.role = .system ∨ m.role = .user → m.toolEvents = [])
    (hhook : (startMessage cfg input now).toolEvents = [])
    (hrun : RunUnder (loopStep cfg) (TurnOk cfg) (startRun cfg input now state) ctx) :
    ∀ request ∈ ctx.sent, ToolPaired request := by
  have hi : LoopInv ctx :=
    hrun.invariant (.start ⟨hpaired, hplain⟩ hhook) fun h hok hs => h.step hok hs
  exact hi.sent

/-! ### Runs with and without the condition -/

/-- An agent with one visible tool and no compression. -/
def oneToolConfig (agentId : Option String) : LoopConfig where
  systemPrompt := "You are a coding agent."
  totalBudget := 1000
  pipeline := .passthrough
  toolExecution := true
  maxTurns := 5
  agentId := agentId
  visibleTools := ["glob"]
  runtimeView := true
  stopRules := []

/-- A user turn without skill, command or hook. -/
def plainInput (text : String) : LoopInput where
  appendUserMessage := true
  message := { text, hook := id }
  expandSkill := fun _ => none
  command := none

/-- A turn in which nothing is compressed, every request gets the answer `message`, the
retry gets `retried`, and every tool succeeds. -/
def quietTurn (message retried : AssistantMessage) : TurnEnv :=
  let compress : CompressEnv := { shouldCompact := false, summarize := fun _ _ => .ok "" }
  let build : BuildEnv := { systemText := "You are a coding agent.", reminder := none }
  let answer : AssistantMessage → RecoveryEnv := fun m =>
    { first := ⟨false, .response m⟩, compress, build, second := ⟨false, .response m⟩ }
  { now := 0, pending := [], compress, build, preCheckExceeded := false, preCheckCompress := compress
    preCheckBuild := build, llm := answer message, retryBuild := build, retry := answer retried
    outcome := fun _ => .success "a.txt", hookedInput := fun _ input => input
    truncate := fun _ _ output => output, cancelled := false, openTodos := [] }

/-- A call without an id, under another spelling of the tool's name, is repaired,
executed and answered, and both requests of the run are paired. -/
theorem sentPaired_of_run_repaired_call :
    ∃ ctx, RunUnder (loopStep (oneToolConfig (some "main"))) (TurnOk (oneToolConfig (some "main")))
        (startRun (oneToolConfig (some "main")) (plainInput "list the files") 0 { messages := [] }) ctx ∧
      ctx.sent.length = 2 ∧ ∀ request ∈ ctx.sent, ToolPaired request :=
  (exists_run_of_exec _ _ _ _
    [quietTurn { toolCalls := [⟨"", "GLOB", "*"⟩] } {},
      quietTurn { text := some "There is one file." } {}] (by decide)).imp
    fun ctx ⟨hr, hl⟩ => ⟨hr, hl, sentPaired_of_run _ _ _ _ (by decide) (by simp) (by decide) hr⟩

/-- **The retry sends an orphan**: a lone call without a tool name is answered by an error
result in the retry request, but the call itself is in no message of that request. -/
theorem retry_sends_orphan_result :
    ToolPaired [] ∧ ∃ ctx, RunUnder (loopStep (oneToolConfig (some "main"))) (fun _ _ => True)
        (startRun (oneToolConfig (some "main")) (plainInput "list the files") 0 { messages := [] }) ctx ∧
      ∃ request ∈ ctx.sent, ¬ ToolPaired request := by
  refine ⟨by decide, exists_run_of_exec (loopStep (oneToolConfig (some "main"))) (fun _ _ => True)
    (startRun (oneToolConfig (some "main")) (plainInput "list the files") 0 { messages := [] })
    (fun ctx => ∃ request ∈ ctx.sent, ¬ ToolPaired request)
    [quietTurn { toolCalls := [⟨"c1", "", "*"⟩] } { text := some "There is one file." }] (by decide)⟩

end XiaoO.Conversation
