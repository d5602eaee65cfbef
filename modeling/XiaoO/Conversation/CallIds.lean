import Mathlib.Data.List.Flatten
import Mathlib.Data.List.Perm.Subperm
import XiaoO.Conversation.ToolPairing

/-!
# Call ids over a session

Providers match results with calls by the id of the call, so that an id that stands twice in a
history is ambiguous. A provider that leaves an id out gets one from `synthesize_missing_call_ids`,
made of the turn count of the session and the position of the call.

## The model

A session is a sequence of runs over one history (`sessionStep`): a run is started by a user
message, its turns are those of the agent loop, and a run that was suspended by `join_subagent`
calls is resumed with their results, as `run_lane_until_terminal` of `gateway/session_supervisor.rs`
does. Between two runs only the fields of `LoopStateSnapshot` stay. `Session.received` is the list
of the call ids that the provider has sent.

## What is proved

* `callIds_nodup_of_session` — the ids of the calls in the history are pairwise distinct, if every
  turn in which the provider leaves an id out is executed and counted (`SessionOk`).
* `resumed_turn_reuses_call_id` — otherwise not: a turn that is suspended does not advance the turn
  count, so the turn after the resumption makes the same ids again.
-/

namespace XiaoO.Conversation

open XiaoO.Base List Nat ToolUseBlock List.Sublist

/-! ### Sessions -/

/-- `from_snapshot` of `to_snapshot`: what is left of the state for the next run. -/
def LoopState.restored (state : LoopState) : LoopState :=
  { messages := state.messages, turnCount := state.turnCount, compressionMeta := state.compressionMeta }

/-- `drop_unanswered_tool_uses` on one message. -/
def dropUnanswered (answered : List String) (message : ChatMessage) : ChatMessage :=
  if message.role = .assistant then
    { message with blocks := message.blocks.filter fun
        | .toolUse callId _ _ => answered.contains callId
        | _ => true }
  else message

def dropUnansweredToolUses (messages : List ChatMessage) : List ChatMessage :=
  messages.map (dropUnanswered (messages.flatMap messageToolResultIds))

/-- The results that the supervisor records for suspended calls: text and error flag by position. -/
def joinResults (outputs : ℕ → String × Bool) (now : ℕ) (calls : List SuspendedToolCall) : List ChatMessage :=
  calls.zipIdx.map fun (suspended, i) =>
    .toolResult suspended.call.callId suspended.call.toolName (outputs i).1 (outputs i).2 now

/-- The input of a resumed run, which appends no user message. -/
def resumeInput : LoopInput where
  appendUserMessage := false
  message := { text := "", hook := id }
  expandSkill := fun _ => none
  command := none

/-- The answers of a turn, in the order of the requests; how many of them are asked for depends on
the state. -/
def TurnEnv.answers (env : TurnEnv) : List LlmAnswer := env.llm.answers ++ env.retry.answers

def LlmAnswer.callIds (answer : LlmAnswer) : List String :=
  (answer.message?.elim [] AssistantMessage.toolCalls).map callId

/-- The call ids that the provider sends in a turn: those of one answer for each request. -/
def heardIds (ctx ctx' : LoopCtx) (env : TurnEnv) : List String :=
  (env.answers.take (ctx'.sent.length - ctx.sent.length)).flatMap LlmAnswer.callIds

/-- A session: the run it is in, or the last one, and the call ids received from the provider. -/
structure Session where
  cfg : LoopConfig
  loop : LoopCtx
  received : List String := []

inductive SessionLabel where
  /-- `run_agent_loop` for a user message. -/
  | call (cfg : LoopConfig) (input : LoopInput) (now : ℕ)
  /-- `run_agent_loop` after the suspended calls have their results. -/
  | resume (cfg : LoopConfig) (outputs : ℕ → String × Bool) (now : ℕ)
  /-- A turn of the run. -/
  | turn (env : TurnEnv)

def newSession (cfg : LoopConfig) : Session :=
  { cfg, loop := { state := { messages := [] }, finished := some .complete } }

def sessionStep (s : Session) : SessionLabel → Option Session
  | .call cfg input now =>
    if s.loop.finished.isSome then
      some { s with cfg, loop := startRun cfg input now s.loop.state.restored } else none
  | .resume cfg outputs now =>
    match s.loop.finished with
    | some (.suspended calls) =>
      let messages := dropUnansweredToolUses (s.loop.state.messages ++ joinResults outputs now calls)
      some { s with cfg, loop := startRun cfg resumeInput now { s.loop.state.restored with messages } }
    | _ => none
  | .turn env => (loopStep s.cfg s.loop env).map fun loop =>
      { s with loop, received := s.received ++ heardIds s.loop loop env }

/-! ### Ids -/

/-- The id that `synthesize_missing_call_ids` makes. -/
def syntheticId (turn idx : ℕ) : String := "call_" ++ toString turn ++ "_" ++ toString idx

/-- The call id of an event, if it is a call. -/
def calledId : CallEvent String → Option String
  | .call c => some c
  | .answer _ => none

/-- The ids of the `ToolUse` blocks of a history. -/
def callIds (messages : List ChatMessage) : List String := (toolEvents messages).filterMap calledId

variable (messages : List ChatMessage)

@[simp] theorem callIds_append (messages' : List ChatMessage) :
    callIds (messages ++ messages') = callIds messages ++ callIds messages' := by
  rw [callIds, toolEvents_append, filterMap_append]
  rfl

theorem callIds_append_of_nil {messages ns : List ChatMessage} (h : callIds ns = []) :
    callIds (messages ++ ns) = callIds messages := by
  rw [callIds_append, h, append_nil]

theorem callIds_of_plain {ns : List ChatMessage} (h : ∀ m ∈ ns, m.toolEvents = []) : callIds ns = [] := by
  have hn : toolEvents ns = [] := flatMap_eq_nil_iff.mpr h
  rw [callIds, hn, filterMap_nil]

theorem callIds_assistantChatMessage (n : ℕ) (m : AssistantMessage) :
    callIds [assistantChatMessage n m] = m.toolCalls.map callId := by
  rw [callIds, toolEvents_cons, toolEvents_nil, append_nil, toolEvents_assistantChatMessage, filterMap_map]
  exact filterMap_some

theorem toList_toString (n : ℕ) : (toString n).toList = toDigits 10 n := by
  simp

theorem underscore_notMem_digits (n : ℕ) : '_' ∉ toDigits 10 n := by
  intro hm
  have hd := isDigit_of_mem_toDigits (by decide) (by decide) hm
  exact absurd hd (by decide)

/-- A synthetic id tells its turn and its position. -/
theorem syntheticId_inj {t t' i i' : ℕ} (h : syntheticId t i = syntheticId t' i') : t = t' ∧ i = i' := by
  have hl := congrArg String.toList h
  simp only [syntheticId, String.toList_append, toList_toString, append_assoc, append_cancel_left_eq] at hl
  obtain ⟨ht, -, hi⟩ :=
    (append_cons_inj_of_notMem (underscore_notMem_digits t) (underscore_notMem_digits i)).mp hl
  have hd : ∀ {n m : ℕ}, toDigits 10 n = toDigits 10 m → n = m := by
    intro n m hnm
    rw [← ofDigitChars_ten_toDigits (n := n), hnm, ofDigitChars_ten_toDigits]
  exact ⟨hd ht, hd hi⟩

/-- The ids of an answer after the missing ones have been supplied. -/
def suppliedIds (turn : ℕ) (ids : List String) : List String :=
  ids.zipIdx.map fun (id, idx) => if isBlank id then syntheticId turn idx else id

theorem callId_normalize (c : LoopConfig) (t : ℕ) (cs : List ToolUseBlock) :
    (normalize c t cs).map callId = suppliedIds t (cs.map callId) := by
  rw [normalize, repairToolNames, map_map, synthesizeMissingCallIds, map_map, suppliedIds, zipIdx_map, map_map]
  refine map_congr_left fun x _ => ?_
  simp only [Function.comp_apply, callId_repairToolName, syntheticId]
  by_cases hb : isBlank x.1.callId <;> simp [hb]

variable {ids received : List String}

theorem suppliedIds_eq_self {t : ℕ} (h : ∀ id ∈ ids, isBlank id = false) : suppliedIds t ids = ids := by
  have hf : ids.zipIdx.map Prod.fst = ids := zipIdx_map_fst 0 ids
  conv_rhs => rw [← hf]
  refine map_congr_left fun x hx => ?_
  simp [h x.1 (fst_mem_of_mem_zipIdx hx)]

theorem mem_suppliedIds {turn : ℕ} {x : String} (h : x ∈ suppliedIds turn ids) :
    (x ∈ ids ∧ isBlank x = false) ∨ (∃ id ∈ ids, isBlank id = true) ∧ ∃ i, x = syntheticId turn i := by
  obtain ⟨⟨id, idx⟩, hm, rfl⟩ := mem_map.mp h
  have hid := fst_mem_of_mem_zipIdx hm
  dsimp only
  split_ifs with hb
  · exact .inr ⟨⟨id, hid, hb⟩, idx, rfl⟩
  · exact .inl ⟨hid, by simpa using hb⟩

theorem suppliedIds_idem (turn : ℕ) (ids : List String) :
    suppliedIds turn (suppliedIds turn ids) = suppliedIds turn ids := by
  refine suppliedIds_eq_self fun x hx => ?_
  rcases mem_suppliedIds hx with ⟨-, hb⟩ | ⟨-, i, rfl⟩
  · exact hb
  · exact isBlank_synthesized turn i

theorem ne_empty_of_not_blank {id : String} (h : isBlank id = false) : id ≠ "" := by
  rintro rfl
  exact absurd h (by decide)

/-- Supplied ids are distinct if the ids that are there are, and are not of the synthetic form. -/
theorem nodup_suppliedIds {tr : ℕ} (hid : (ids.filter (· ≠ "")).Nodup)
    (hf : ∀ id ∈ ids, ∀ t i, id ≠ syntheticId t i) : (suppliedIds tr ids).Nodup := by
  rw [List.Nodup, pairwise_filter] at hid
  rw [suppliedIds, List.Nodup, pairwise_map, pairwise_iff_getElem]
  intro i j hi hj hij
  rw [length_zipIdx] at hi hj
  have hne := pairwise_iff_getElem.mp hid i j hi hj hij
  simp only [getElem_zipIdx, Nat.zero_add]
  split_ifs with hbi hbj hbj
  · intro heq
    exact absurd (syntheticId_inj heq).2 hij.ne
  · exact (hf _ (getElem_mem hj) _ _).symm
  · exact hf _ (getElem_mem hi) _ _
  · simp only [Bool.not_eq_true] at hbi hbj
    exact hne (by simpa using ne_empty_of_not_blank hbi) (by simpa using ne_empty_of_not_blank hbj)

/-! ### Compression -/

theorem callIds_pruneStaleToolOutput : callIds (pruneStaleToolOutput messages) = callIds messages := by
  rw [callIds, toolEvents_pruneStaleToolOutput, callIds]

/-- Compaction leaves out calls and adds none. -/
theorem sublist_applyCandidateReplacement (cs : List ℕ) {r : ChatMessage} (hr : r.toolEvents = []) :
    (toolEvents (applyCandidateReplacement messages cs (some r))).Sublist (toolEvents messages) := by
  rw [toolEvents_replaced cs hr, toolEvents_eq_zipIdx]
  refine List.Sublist.flatMap_right _ fun x _ => ?_
  split_ifs
  · exact nil_sublist _
  · exact List.Sublist.refl _

theorem sublist_compress {p : CompressionPipeline} {e : CompressEnv} {messages ms' : List ChatMessage}
    {c c' : CompressionMeta} (h : p.compress e messages c = .ok (ms', c')) :
    (callIds ms').Sublist (callIds messages) := by
  obtain rfl | ⟨pt, r, hc, rfl⟩ := compress_cases h
  · exact refl _
  · obtain ⟨cs, -, ⟨-, heq⟩ | ⟨-, s, -, heq⟩⟩ := autoCompact_cases hc
    · rw [heq]
    · rw [heq]
      exact (sublist_applyCandidateReplacement messages cs rfl).filterMap _

theorem sublist_dropUnansweredToolUses : (callIds (dropUnansweredToolUses messages)).Sublist (callIds messages) := by
  refine List.Sublist.filterMap _ ?_
  rw [toolEvents, dropUnansweredToolUses, flatMap_map]
  refine List.Sublist.flatMap_right _ fun m _ => ?_
  unfold dropUnanswered
  split_ifs
  · exact filter_sublist.filterMap _
  · exact List.Sublist.refl _

theorem callIds_joinResults (os : ℕ → String × Bool) (n : ℕ) (cs : List SuspendedToolCall) :
    callIds (joinResults os n cs) = [] := by
  rw [callIds, filterMap_eq_nil_iff]
  intro e he
  obtain ⟨m, hm, he⟩ := mem_toolEvents.mp he
  obtain ⟨x, -, rfl⟩ := mem_map.mp hm
  rw [mem_singleton.mp he]
  rfl

/-! ### What a turn hears -/

section Turn

variable {cfg : LoopConfig} {env : TurnEnv} {start : LoopCtx} {ready : Bool} {answers : List LlmAnswer}

/-- The history has lost calls at most, and the turn is not counted yet. -/
structure KeepsIds (start ctx : LoopCtx) : Prop where
  history : (callIds ctx.state.messages).Sublist (callIds start.state.messages)
  count : ctx.state.turnCount = start.state.turnCount

/-- The state of a turn that has sent one request for each of `answers`: the answer it holds is one
of them, with the missing ids supplied or not. `ready` says that a request has been built. -/
structure Hears (start : LoopCtx) (ready : Bool) (answers : List LlmAnswer) (ctx : LoopCtx) : Prop
    extends KeepsIds start ctx where
  request : ready = true → ctx.request.isSome = true
  sent : ctx.sent.length = start.sent.length + answers.length
  heard : ∀ message ∈ ctx.assistantMessage, ∃ answer ∈ answers,
    message.toolCalls.map callId = answer.callIds ∨
      message.toolCalls.map callId = suppliedIds start.state.turnCount answer.callIds

variable {ctx : LoopCtx}

/-- A change of the history that adds no call. -/
theorem Hears.setMessages (h : Hears start ready answers ctx) {messages : List ChatMessage}
    (hm : (callIds messages).Sublist (callIds ctx.state.messages)) :
    Hears start ready answers (ctx.setMessages messages) :=
  { h with history := hm.trans h.history }

theorem Hears.send (h : Hears start true answers ctx) (a : LlmAnswer) :
    Hears start true (answers ++ [a]) { ctx with sent := ctx.sent ++ ctx.request.toList } where
  history := h.history
  count := h.count
  request := h.request
  sent := by
    obtain ⟨request, hr⟩ := Option.isSome_iff_exists.mp (h.request rfl)
    rw [hr, length_append, length_append, h.sent, Option.toList_some, length_singleton,
      length_singleton, Nat.add_assoc]
  heard := by
    intro m hm
    obtain ⟨o, hmm, hi⟩ := h.heard m hm
    exact ⟨o, mem_append_left _ hmm, hi⟩

theorem Hears.take {a : LlmAnswer} (h : Hears start ready answers ctx) (hmm : a ∈ answers) :
    Hears start ready answers { ctx with assistantMessage := a.message?.or ctx.assistantMessage } where
  history := h.history
  count := h.count
  request := h.request
  sent := h.sent
  heard := by
    intro m hm
    cases ha : a.message? with
    | none =>
      simp only [ha, Option.none_or] at hm
      exact h.heard m hm
    | some =>
      simp only [ha, Option.some_or, Option.mem_def, Option.some.injEq] at hm
      subst hm
      exact ⟨a, hmm, .inl (by rw [LlmAnswer.callIds, ha, Option.elim_some])⟩

theorem hears_requestKept : RequestKept cfg (Hears start) where
  compressed h hc := by
    refine { h with history := ?_ }
    rw [callIds_pruneStaleToolOutput]
    exact (sublist_compress hc).trans h.history
  built _ h := { h with request := fun _ => rfl }
  sent a h := h.send a
  heard h hm := h.take hm

theorem Failed.keepsIds (h : Failed (Hears start) answers ctx) : KeepsIds start ctx := by
  obtain ⟨_, _, -, hh⟩ := h
  exact hh.toKeepsIds

theorem hears_requestPhase (hp : HooksPlain cfg env) :
    Triple (Hears start false []) (requestPhase cfg env) (fun _ => Hears start true env.llm.answers)
      (KeepsIds start) := by
  refine (hears_requestKept.triple_requestPhase fun m hm ctx hc => hc.setMessages ?_).imp_error
    fun _ hs => hs.keepsIds
  rw [callIds_append_of_nil (callIds_of_plain (by simpa using hp m hm))]

/-! ### What a turn records -/

/-- Ids that come from one of the answers. -/
def FromAnswer (turn : ℕ) (answers : List LlmAnswer) (new : List String) : Prop :=
  new = [] ∨ ∃ answer ∈ answers, new.Subperm (suppliedIds turn answer.callIds)

theorem hears_normalizedToolCalls {E : LoopCtx → Prop} : Triple (Hears start ready answers) (normalizedToolCalls cfg)
      (fun cs ctx => FromAnswer start.state.turnCount answers (cs.1.map callId) ∧
        Hears start ready answers ctx) E := by
  refine triple_get_bind fun s hs => ?_
  cases hm : s.assistantMessage with
  | none => exact triple_pure fun _ hs' => ⟨.inl rfl, hs' ▸ hs⟩
  | some m =>
    obtain ⟨answer, hmm, hi⟩ := hs.heard m hm
    have hsp : (normalize cfg s.state.turnCount m.toolCalls).map callId =
        suppliedIds start.state.turnCount answer.callIds := by
      rw [callId_normalize, hs.count]
      rcases hi with hi | hi
      · rw [hi]
      · rw [hi, suppliedIds_idem]
    refine triple_bind (triple_modify (Q := fun _ => Hears start ready answers) fun ctx hc => ?_) fun _ =>
      triple_pure fun ctx hc => ⟨.inr ⟨answer, hmm, ?_⟩, hc⟩
    · subst hc
      refine { hs with heard := fun m' hms => ⟨answer, hmm, .inr ?_⟩ }
      rw [← Option.some.inj hms]
      exact hsp
    · rw [partition_eq_filter_filter, ← hsp]
      exact (filter_sublist.map _).subperm

theorem hears_retryInvalidToolCall (i : ToolUseBlock) :
    Triple (Hears start ready answers) (retryInvalidToolCall cfg env i)
      (fun _ => Hears start true (answers ++ env.retry.answers)) (KeepsIds start) := by
  have hp : Triple (Hears start ready answers)
      (modify fun ctx => ctx.push (buildInvalidToolCallResult env.now i) : LoopM Unit)
      (fun _ => Hears start ready answers) (KeepsIds start) := by
    refine triple_modify fun ctx hc => hc.setMessages ?_
    have hn : callIds [buildInvalidToolCallResult env.now i] = [] := rfl
    rw [callIds_append_of_nil hn]
  refine triple_bind hp fun _ => triple_bind (triple_attempt (E := KeepsIds start)
    (Q := fun _ => Hears start true (answers ++ env.retry.answers)) ?_) fun retry => ?_
  · refine triple_bind (triple_attempt
      (hears_requestKept.triple_buildMessages prefix_rfl env.retryBuild)) fun b => ?_
    cases b with
    | error => exact triple_throw fun _ hs => hs.keepsIds
    | ok => exact (hears_requestKept.triple_llmCallWithRecovery _).imp_error fun _ hs => hs.keepsIds
  · cases retry with
    | error =>
      refine triple_bind (triple_modify (Q := fun _ => KeepsIds start) fun ctx hc => ?_) fun _ =>
        triple_throw fun _ hs => hs
      exact ⟨((dropLast_sublist _).flatMap _).filterMap _ |>.trans hc.history, hc.count⟩
    | ok =>
      refine triple_bind (triple_modify fun ctx hc => ?_) fun _ => triple_pure fun _ hs => hs
      exact hc.setMessages (((dropLast_sublist _).flatMap _).filterMap _)

theorem hears_callsAfterRetry : Triple (Hears start true env.llm.answers) (callsAfterRetry cfg env)
      (fun cs ctx => ∃ answers, answers <+: env.answers ∧
        FromAnswer start.state.turnCount answers (cs.1.map callId) ∧ Hears start true answers ctx)
      (KeepsIds start) := by
  refine triple_bind hears_normalizedToolCalls fun cs => ?_
  split
  · refine triple_bind ((hears_retryInvalidToolCall _).conseq (fun _ hs => hs.2) (fun _ _ hs => hs) fun _ hs => hs)
      fun _ => ?_
    exact hears_normalizedToolCalls.imp fun _ _ hs => ⟨_, prefix_rfl, hs⟩
  · exact triple_pure fun _ hs => ⟨_, prefix_append _ _, hs⟩

/-- Whether the calls of an answer are executed, if there are any. -/
def canExecute (cfg : LoopConfig) : Bool := cfg.toolExecution && cfg.runtimeView && cfg.agentId.isSome

/-- What a turn leaves in the history: the calls that were left, and those of one answer. -/
structure Records (cfg : LoopConfig) (env : TurnEnv) (start ctx : LoopCtx) : Prop where
  count : ctx.state.turnCount = start.state.turnCount
  ids : ∃ answers, answers <+: env.answers ∧ ctx.sent.length = start.sent.length + answers.length ∧
    ∃ kept new, callIds ctx.state.messages = kept ++ new ∧ kept.Sublist (callIds start.state.messages) ∧
      (FromAnswer start.state.turnCount answers new ∨ canExecute cfg = false ∧
        ∃ answer ∈ answers, new = answer.callIds)

theorem FromAnswer.perm {t : ℕ} {n new' : List String} (h : FromAnswer t answers n) (hp : new'.Perm n) :
    FromAnswer t answers new' := by
  rcases h with rfl | ⟨a, hm, hs⟩
  · exact .inl hp.eq_nil
  · exact .inr ⟨a, hm, hp.subperm.trans hs⟩

/-- An answer is recorded with calls whose ids come from it. -/
theorem Hears.record {c' : LoopCtx} (h : Hears start ready answers ctx) (ha : answers <+: env.answers)
    {m : AssistantMessage} (hs : c'.state = (ctx.push (assistantChatMessage env.now m)).state)
    (hsn : c'.sent = ctx.sent) (hn : FromAnswer start.state.turnCount answers (m.toolCalls.map callId) ∨
      canExecute cfg = false ∧ ∃ a ∈ answers, m.toolCalls.map callId = a.callIds) :
    Records cfg env start c' where
  count := by
    rw [hs]
    exact h.count
  ids := by
    refine ⟨answers, ha, hsn ▸ h.sent, _, _, ?_, h.history, hn⟩
    rw [hs, LoopCtx.push, LoopCtx.setMessages, callIds_append, callIds_assistantChatMessage]

/-- Without an answer nothing is recorded. -/
theorem Hears.records (h : Hears start ready answers ctx) (ha : answers <+: env.answers) :
    Records cfg env start ctx :=
  ⟨h.count, answers, ha, h.sent, _, [], (append_nil _).symm, h.history, .inl (.inl rfl)⟩

theorem Records.congr {ctx' : LoopCtx} (h : Records cfg env start ctx)
    (hi : callIds ctx'.state.messages = callIds ctx.state.messages)
    (hc : ctx'.state.turnCount = ctx.state.turnCount) (hs : ctx'.sent = ctx.sent) : Records cfg env start ctx' :=
  ⟨hc.trans h.count, by rw [hi, hs]; exact h.ids⟩

theorem hears_processLlmToolCalls : Triple (Hears start true env.llm.answers) (processLlmToolCalls cfg env)
      (fun _ => Records cfg env start) (KeepsIds start) := by
  refine triple_bind hears_callsAfterRetry fun cs => ?_
  refine triple_bind (triple_modify (Q := fun _ => Records cfg env start) fun ctx hc => ?_) fun _ =>
    triple_pure fun _ hs => hs
  obtain ⟨answers, ha, hn, hh⟩ := hc
  cases hm : ctx.assistantMessage with
  | none => exact (hh.records ha).congr rfl rfl rfl
  | some =>
    have hj : FromAnswer start.state.turnCount answers ((joinsLast cs.1).map callId) :=
      hn.perm ((perm_joinsLast cs.1).map _)
    exact hh.record ha rfl rfl (.inl hj)

/-- Results are no calls, and do not count the turn. -/
theorem callIds_recorded (cfg : LoopConfig) (env : TurnEnv) (rs : List (ToolUseBlock × ToolOutcome)) (b : Batch) :
    callIds (rs.foldl (recordToolResult cfg env) b).state.messages = callIds b.state.messages ∧
      (rs.foldl (recordToolResult cfg env) b).state.turnCount = b.state.turnCount := by
  induction rs generalizing b with
  | nil => exact ⟨rfl, rfl⟩
  | cons r rs ih =>
    obtain ⟨c, o⟩ := r
    obtain ⟨hi, hc⟩ := ih (recordToolResult cfg env b (c, o))
    rw [foldl_cons, hi, hc]
    cases o with
    | suspended => exact ⟨rfl, rfl⟩
    | success | error | failed | denied =>
      refine ⟨?_, ?_⟩
      · exact callIds_append_of_nil rfl
      · simp only [recordToolResult, updateToolStreak]
        split_ifs <;> rfl

theorem Records.recordToolResults (h : Records cfg env start ctx) (rs : List (ToolUseBlock × ToolOutcome)) :
    Records cfg env start (recordToolResults cfg env rs ctx).1 := by
  obtain ⟨hi, hc⟩ := callIds_recorded cfg env rs { state := ctx.state }
  simp only [XiaoO.Conversation.recordToolResults]
  split_ifs
  · split
    · refine h.congr (Eq.trans ?_ hi) hc rfl
      exact callIds_append_of_nil rfl
    · exact h.congr hi hc rfl
  · exact h.congr hi hc rfl

theorem hears_toolExecRun :
    Triple (Hears start true env.llm.answers) (toolExecRun cfg env) (fun _ => Records cfg env start)
      (KeepsIds start) := by
  have hf : env.llm.answers <+: env.answers := prefix_append _ _
  refine triple_get_bind fun s hs => ?_
  cases hm : s.assistantMessage with
  | none => exact triple_pure fun _ hs' => hs' ▸ hs.records hf
  | some m =>
    refine triple_ite (fun _ => ?_) fun he => ?_
    · refine triple_bind (hears_processLlmToolCalls.conseq (fun _ hs' => hs' ▸ hs) (fun _ _ h => h) fun _ h => h)
        fun cs => triple_modifyGet fun ctx hct => ?_
      exact hct.recordToolResults _
    · refine triple_bind (triple_modify (Q := fun _ => Records cfg env start) fun ctx hct => ?_) fun _ =>
        triple_pure fun _ h => h
      subst hct
      rw [appendAssistantToHistory, hm]
      refine hs.record hf rfl rfl ?_
      obtain ⟨a, hmm, hi | hi⟩ := hs.heard m hm
      · -- Calls that are there and not executed keep the ids of the answer.
        cases hc : m.toolCalls with
        | nil => exact .inl (.inl rfl)
        | cons =>
          refine .inr ⟨?_, a, hmm, hc ▸ hi⟩
          simpa [executesCalls, canExecute, hc] using he
      · exact .inl (.inr ⟨a, hmm, hi ▸ List.Subperm.refl _⟩)

theorem hears_turnBody (start : LoopCtx) (hp : HooksPlain cfg env) :
    Triple (Hears start false []) (turnBody cfg env) (fun _ => Records cfg env start) (KeepsIds start) :=
  triple_bind (hears_requestPhase hp) fun _ => hears_toolExecRun

end Turn

/-! ### One turn -/

variable {cfg : LoopConfig} {env : TurnEnv} {ctx ctx' : LoopCtx}

/-- The run ended in a way that does not count its last turn. -/
def uncounted : Option LoopRunResult → Bool
  | some .cancelled | some (.suspended _) => true
  | _ => false

/-- What a turn does to the ids of the history: calls may be left out, and those of one answer come
in, after which the turn is counted unless the run has been cancelled or suspended. -/
structure TurnIds (cfg : LoopConfig) (env : TurnEnv) (ctx ctx' : LoopCtx) (kept new : List String) : Prop where
  eq : callIds ctx'.state.messages = kept ++ new
  kept : kept.Sublist (callIds ctx.state.messages)
  count : ctx.state.turnCount ≤ ctx'.state.turnCount
  new : new = [] ∨ ∃ ids, ids.Sublist (heardIds ctx ctx' env) ∧
    (new.Subperm (suppliedIds ctx.state.turnCount ids) ∨ canExecute cfg = false ∧ new = ids) ∧
    (uncounted ctx'.finished = false → ctx'.state.turnCount = ctx.state.turnCount + 1)

/-- The ids of one of the answers are among those heard. -/
theorem sublist_heardIds {answers : List LlmAnswer} {a : LlmAnswer} (ha : answers <+: env.answers)
    (hs : ctx'.sent.length = ctx.sent.length + answers.length) (hm : a ∈ answers) :
    a.callIds.Sublist (heardIds ctx ctx' env) := by
  have ht : env.answers.take (ctx'.sent.length - ctx.sent.length) = answers := by
    rw [hs, Nat.add_sub_cancel_left]
    exact (prefix_iff_eq_take.mp ha).symm
  have ho := (singleton_sublist.mpr hm).flatMap LlmAnswer.callIds
  rwa [flatMap_singleton, ← ht] at ho

/-- A recorded answer, once the turn has ended. -/
theorem Records.turnIds {b : LoopCtx} (h : Records cfg env ctx.newTurn b)
    (hi : callIds ctx'.state.messages = callIds b.state.messages) (hs : ctx'.sent = b.sent)
    (hle : b.state.turnCount ≤ ctx'.state.turnCount)
    (hc : uncounted ctx'.finished = false → ctx'.state.turnCount = b.state.turnCount + 1) :
    ∃ kept new, TurnIds cfg env ctx ctx' kept new := by
  obtain ⟨an, ha, hl, kept, new, heq, hk, hn⟩ := h.ids
  have hh : ∀ a ∈ an, a.callIds.Sublist (heardIds ctx ctx' env) := fun a hm =>
    sublist_heardIds ha (by rw [hs, hl]; rfl) hm
  have hb : b.state.turnCount = ctx.state.turnCount := h.count
  rw [hb] at hle hc
  refine ⟨kept, new, hi.trans heq, hk, hle, ?_⟩
  rcases hn with (rfl | ⟨a, hm, hsb⟩) | ⟨he, a, hm, rfl⟩
  · exact .inl rfl
  · exact .inr ⟨a.callIds, hh a hm, .inl hsb, hc⟩
  · exact .inr ⟨a.callIds, hh a hm, .inr ⟨he, rfl⟩, hc⟩

theorem turnIds_of_loopStep (hp : HooksPlain cfg env) (hu : ctx.state.turnCount + 1 < UInt32.size)
    (h : loopStep cfg ctx env = some ctx') : ∃ kept new, TurnIds cfg env ctx ctx' kept new := by
  have hs : Hears ctx.newTurn false [] ctx.newTurn := ⟨⟨refl _, rfl⟩, nofun, rfl, nofun⟩
  have ht := hears_turnBody ctx.newTurn hp ctx.newTurn hs
  rcases (loopStep_cases h).2 with ⟨e, b, hb, rfl⟩ | ⟨b, hb, rfl⟩ | ⟨s, b, -, hb, rfl⟩
  all_goals rw [hb] at ht
  · exact ⟨_, [], (append_nil _).symm, ht.history, ht.count.ge, .inl rfl⟩
  · obtain ⟨hsn, ns, hn, hm⟩ := decideTurn_spec cfg env b
    have hi : callIds (decideTurn cfg env b).2.state.messages = callIds b.state.messages := by
      rw [hm, callIds_append_of_nil (callIds_of_plain hn)]
    have hc : (decideTurn cfg env b).2.state.turnCount = b.state.turnCount := by
      unfold decideTurn
      split_ifs <;> rfl
    have hw : (b.state.turnCount + 1) % UInt32.size = b.state.turnCount + 1 :=
      Nat.mod_eq_of_lt (ht.count ▸ hu)
    refine ht.turnIds ?_ ?_ ?_ ?_
    all_goals
      simp only [endTurn]
      cases (decideTurn cfg env b).1 <;> simp [hi, hsn, hc, hw, uncounted]
  · exact ht.turnIds rfl rfl (le_refl _) fun hc => by cases hc

/-! ### Sessions -/

/-- The condition on the steps of a session: no hook puts tool blocks into a user message, the `u32`
that counts the turns does not wrap around, and the calls of a turn in which the provider leaves an
id out are executed, and the turn is counted. -/
def SessionOk (s : Session) : SessionLabel → Prop
  | .call cfg input now => (startMessage cfg input now).toolEvents = []
  | .resume _ _ _ => True
  | .turn env => HooksPlain s.cfg env ∧ s.loop.state.turnCount + 1 < UInt32.size ∧
      ∀ loop ∈ loopStep s.cfg s.loop env, (∃ id ∈ heardIds s.loop loop env, isBlank id = true) →
        canExecute s.cfg = true ∧ uncounted loop.finished = false

instance : DecidableRel SessionOk
  | _, .call cfg input now => inferInstanceAs (Decidable ((startMessage cfg input now).toolEvents = []))
  | _, .resume _ _ _ => isTrue trivial
  | s, .turn env => inferInstanceAs (Decidable (HooksPlain s.cfg env ∧ s.loop.state.turnCount + 1 < UInt32.size ∧
      ∀ loop ∈ loopStep s.cfg s.loop env, (∃ id ∈ heardIds s.loop loop env, isBlank id = true) →
        canExecute s.cfg = true ∧ uncounted loop.finished = false))

/-- What the provider is expected to do: the ids that it does not leave out are distinct, and none
has the synthetic form. -/
structure ProviderIds (received : List String) : Prop where
  nodup : (received.filter (· ≠ "")).Nodup
  form : ∀ id ∈ received, ∀ t i, id ≠ syntheticId t i

theorem ProviderIds.sublist {received' : List String} (h : ProviderIds received)
    (hs : received'.Sublist received) : ProviderIds received' :=
  ⟨(hs.filter _).nodup h.nodup, fun id hid => h.form id (hs.subset hid)⟩

/-- The invariant of a session: the ids of the history are distinct, and each was received or made
in a turn that has been counted. -/
structure SessionIds (received : List String) (state : LoopState) : Prop where
  nodup : (callIds state.messages).Nodup
  known : ∀ id ∈ callIds state.messages, (id ∈ received ∧ id ≠ "") ∨ ∃ t < state.turnCount, ∃ i, id = syntheticId t i

/-- What only leaves out calls keeps the invariant. -/
theorem SessionIds.sublist {s state' : LoopState} (h : SessionIds received s)
    (hs : (callIds state'.messages).Sublist (callIds s.messages)) (hc : state'.turnCount = s.turnCount) :
    SessionIds received state' :=
  ⟨hs.nodup h.nodup, fun id hid => hc ▸ h.known id (hs.subset hid)⟩

/-- **A turn adds ids of its own.** -/
theorem SessionIds.turn {kept new : List String} (h : SessionIds received ctx.state)
    (htr : TurnIds cfg env ctx ctx' kept new) (hp : ProviderIds (received ++ heardIds ctx ctx' env))
    (hok : (∃ id ∈ heardIds ctx ctx' env, isBlank id = true) →
      canExecute cfg = true ∧ uncounted ctx'.finished = false) :
    SessionIds (received ++ heardIds ctx ctx' env) ctx'.state := by
  have hkp : ∀ id ∈ kept, (id ∈ received ∧ id ≠ "") ∨ ∃ t < ctx.state.turnCount, ∃ i, id = syntheticId t i :=
    fun id hid => h.known id (htr.kept.subset hid)
  have hk : ∀ id ∈ kept, (id ∈ received ++ heardIds ctx ctx' env ∧ id ≠ "") ∨
      ∃ t < ctx'.state.turnCount, ∃ i, id = syntheticId t i := by
    intro id hid
    rcases hkp id hid with ⟨hm, hne⟩ | ⟨t, ht, i, hi⟩
    · exact .inl ⟨mem_append_left _ hm, hne⟩
    · exact .inr ⟨t, ht.trans_le htr.count, i, hi⟩
  obtain hnl | ⟨ids, his, hnw, hc⟩ := htr.new
  · have heq : callIds ctx'.state.messages = kept := by rw [htr.eq, hnl, append_nil]
    exact ⟨heq ▸ htr.kept.nodup h.nodup, heq ▸ hk⟩
  -- The new ids are those of one answer, with the missing ones supplied.
  have hs : new.Subperm (suppliedIds ctx.state.turnCount ids) := by
    rcases hnw with hsb | ⟨he, rfl⟩
    · exact hsb
    · rw [suppliedIds_eq_self fun id hid => ?_]
      by_contra hb
      have hy := (hok ⟨id, his.subset hid, by simpa using hb⟩).1
      rw [he] at hy
      cases hy
  have ha : ProviderIds ids := hp.sublist (his.trans (sublist_append_right _ _))
  have hn : new.Nodup := by
    obtain ⟨l, hpr, hsb⟩ := hs
    exact hpr.nodup_iff.mp (hsb.nodup (nodup_suppliedIds ha.nodup ha.form))
  have hkn : ∀ id ∈ new, (id ∈ heardIds ctx ctx' env ∧ id ≠ "") ∨
      ctx'.state.turnCount = ctx.state.turnCount + 1 ∧ ∃ i, id = syntheticId ctx.state.turnCount i := by
    intro id hid
    rcases mem_suppliedIds (hs.subset hid) with ⟨hm, hb⟩ | ⟨⟨b, hm, hb⟩, hi⟩
    · exact .inl ⟨his.subset hm, ne_empty_of_not_blank hb⟩
    · exact .inr ⟨hc (hok ⟨b, his.subset hm, hb⟩).2, hi⟩
  have hd : kept.Disjoint new := by
    intro id ho hid
    rcases hkp id ho, hkn id hid with ⟨⟨hm, hne⟩ | ⟨t, ht, i, hi⟩, ⟨hm', hne'⟩ | ⟨-, i', hi'⟩⟩
    · have hap := hp.nodup
      rw [filter_append, nodup_append'] at hap
      exact hap.2.2 (mem_filter.mpr ⟨hm, by simpa using hne⟩)
        (mem_filter.mpr ⟨hm', by simpa using hne'⟩)
    · exact hp.form id (mem_append_left _ hm) _ _ hi'
    · exact hp.form id (mem_append_right _ hm') _ _ hi
    · exact absurd (syntheticId_inj (hi.symm.trans hi')).1 ht.ne
  constructor
  · rw [htr.eq, nodup_append']
    exact ⟨htr.kept.nodup h.nodup, hn, hd⟩
  · intro id hid
    rw [htr.eq] at hid
    rcases mem_append.mp hid with hid | hid
    · exact hk id hid
    · rcases hkn id hid with ⟨hm, hne⟩ | ⟨hnx, i, hi⟩
      · exact .inl ⟨mem_append_right _ hm, hne⟩
      · exact .inr ⟨_, hnx ▸ lt_succ_self _, i, hi⟩

theorem startRun_ids (cfg : LoopConfig) {i : LoopInput} (n : ℕ) (s : LoopState)
    (hp : i.appendUserMessage = true → (startMessage cfg i n).toolEvents = []) :
    callIds (startRun cfg i n s).state.messages = callIds s.messages ∧
      (startRun cfg i n s).state.turnCount = s.turnCount := by
  unfold startRun
  split_ifs with ha
  · split
    · exact ⟨callIds_append_of_nil rfl, rfl⟩
    · exact ⟨callIds_append_of_nil (callIds_of_plain (by simpa using hp ha)), rfl⟩
  · exact ⟨rfl, rfl⟩

theorem SessionIds.step {s s' : Session} {l : SessionLabel}
    (h : ProviderIds s.received → SessionIds s.received s.loop.state) (hok : SessionOk s l)
    (hs : sessionStep s l = some s') (hp : ProviderIds s'.received) : SessionIds s'.received s'.loop.state := by
  cases l with
  | call cfg i n =>
    simp only [sessionStep] at hs
    split_ifs at hs
    obtain rfl := Option.some.inj hs
    obtain ⟨hi, hc⟩ := startRun_ids cfg n s.loop.state.restored fun _ => hok
    exact (h hp).sublist (hi ▸ refl _) hc
  | resume =>
    simp only [sessionStep] at hs
    split at hs
    · rename_i cs _
      obtain rfl := Option.some.inj hs
      refine (h hp).sublist ?_ rfl
      refine (sublist_dropUnansweredToolUses _).trans ?_
      rw [callIds_append_of_nil (callIds_joinResults ..)]
    · cases hs
  | turn =>
    obtain ⟨loop, hl, rfl⟩ := Option.map_eq_some_iff.mp hs
    obtain ⟨hpl, hu, hok⟩ := hok
    obtain ⟨k, new, ht⟩ := turnIds_of_loopStep hpl hu hl
    exact (h (hp.sublist (sublist_append_left _ _))).turn ht hp (hok loop hl)

/-- **Call ids stay unique over a session** in which every turn with a missing id is executed and
counted: if the ids that the provider sends are distinct and not of the synthetic form, the ids of
the calls in the history are distinct. -/
theorem callIds_nodup_of_session (cfg : LoopConfig) {s : Session}
    (hrun : RunUnder sessionStep SessionOk (newSession cfg) s)
    (hnodup : (s.received.filter (· ≠ "")).Nodup) (hform : ∀ id ∈ s.received, ∀ t i, id ≠ syntheticId t i) :
    (callIds s.loop.state.messages).Nodup := by
  have hn : SessionIds (newSession cfg).received (newSession cfg).loop.state := ⟨nodup_nil, nofun⟩
  have hi : ProviderIds s.received → SessionIds s.received s.loop.state :=
    hrun.invariant (I := fun s => ProviderIds s.received → SessionIds s.received s.loop.state) (fun _ => hn)
      fun h hok hs => SessionIds.step h hok hs
  exact (hi ⟨hnodup, hform⟩).nodup

theorem ne_syntheticId {id : String} (h : id.toList.take 5 ≠ "call_".toList) (t i : ℕ) : id ≠ syntheticId t i := by
  rintro rfl
  exact h (by simp [syntheticId, String.toList_append])

/-- Two turns with calls without ids, and one with an id from the provider. -/
theorem callIds_nodup_of_two_turns :
    ∃ s, RunUnder sessionStep SessionOk (newSession (oneToolConfig (some "main"))) s ∧
    s.received = ["", "toolu_1", ""] ∧ callIds s.loop.state.messages = ["call_0_0", "toolu_1", "call_1_0"] ∧
    (callIds s.loop.state.messages).Nodup := by
  obtain ⟨s, hrn, hr, hi⟩ := exists_run_of_exec sessionStep SessionOk
    (newSession (oneToolConfig (some "main")))
    (fun s => s.received = ["", "toolu_1", ""] ∧ callIds s.loop.state.messages = ["call_0_0", "toolu_1", "call_1_0"])
    [.call (oneToolConfig (some "main")) (plainInput "list the files") 0,
      .turn (quietTurn { toolCalls := [⟨"", "glob", "*"⟩, ⟨"toolu_1", "glob", "*.rs"⟩] } {}),
      .turn (quietTurn { toolCalls := [⟨"", "glob", "*"⟩] } {})] (by decide)
  have hf : ∀ id ∈ s.received, id.toList.take 5 ≠ "call_".toList := by
    rw [hr]
    decide
  exact ⟨s, hrn, hr, hi, callIds_nodup_of_session _ hrn (by rw [hr]; decide) fun id hid =>
    ne_syntheticId (hf id hid)⟩

/-! ### Sessions without the condition -/

/-- An agent that may also wait for subagents. -/
def joiningConfig : LoopConfig := { oneToolConfig (some "main") with visibleTools := ["glob", "join_subagent"] }

/-- A turn in which the only call joins a subagent that is still running. -/
def joiningTurn : TurnEnv :=
  { quietTurn { toolCalls := [⟨"", "join_subagent", "agent-1"⟩] } {} with outcome := fun _ => .suspended "join-1" }

/-- **A resumed run makes the ids of the suspended turn again**: the provider leaves out the ids of
a `join_subagent` call and of the first call after its result, and both become `call_0_0`. -/
theorem resumed_turn_reuses_call_id :
    ∃ s, RunUnder sessionStep Always (newSession joiningConfig) s ∧ s.received = ["", ""] ∧
      callIds s.loop.state.messages = ["call_0_0", "call_0_0"] :=
  exists_run_of_exec _ _ _ _
    [.call joiningConfig (plainInput "ask a subagent") 0, .turn joiningTurn,
      .resume joiningConfig (fun _ => ("done", false)) 0, .turn (quietTurn { toolCalls := [⟨"", "glob", "*"⟩] } {})]
    (by decide)

end XiaoO.Conversation
