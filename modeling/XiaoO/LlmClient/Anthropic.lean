import XiaoO.LlmClient.ProviderStream

/-!
# Messages from Anthropic

`providers/anthropic`: `complete` reads a message from its JSON; `complete_stream` reads it from the
lines of a body, where a line with an `event` says what the next line with `data` is.

## The model

`serde_json` is a parameter. The JSON is not checked: a field that is missing or of another type is
left out. What is read from a `data` line is the `part`, and `Received.add` adds it to what has been
received. Token counts do not overflow.

## What is proved

Each event adds the content, the reasoning and the tool calls of its part to what has been received,
whatever was the current event before it (`gain_lines`), and so do events one after the other
(`gain_events`).
-/

namespace XiaoO.LlmClient.Anthropic

open XiaoO.Base List String

/-! ### Usage and stop reasons -/

/-- `anthropic_stop_reason`. -/
def stopReason (reason : String) : StopReason :=
  if reason = "tool_use" then .toolUse
  else if reason = "max_tokens" then .maxTokens
  else if reason = "refusal" then .contentFilter
  else .endTurn

/-- `as_u64().unwrap_or(0)` of a field. -/
def count (value : Json.Value) (field : String) : ℕ := (value.get field).asU64.getD 0

/-- `anthropic_usage`. -/
def usage (value : Json.Value) : Usage :=
  let cachedTokens := count value "cache_read_input_tokens"
  let cacheWriteTokens := count value "cache_creation_input_tokens"
  let promptTokens := count value "input_tokens" + cachedTokens + cacheWriteTokens
  let completionTokens := count value "output_tokens"
  { promptTokens, completionTokens, totalTokens := promptTokens + completionTokens, cachedTokens, cacheWriteTokens }

def mergeUsage (existing : Option Usage) (incoming : Usage) : Usage :=
  let merged := existing.getD {}
  let promptTokens := max merged.promptTokens incoming.promptTokens
  let completionTokens := max merged.completionTokens incoming.completionTokens
  { promptTokens, completionTokens, totalTokens := promptTokens + completionTokens
    cachedTokens := max merged.cachedTokens incoming.cachedTokens
    cacheWriteTokens := max merged.cacheWriteTokens incoming.cacheWriteTokens }

/-! ### Without a stream -/

variable (serde : Json.Codec)

def joinField (field : String) (blocks : List Json.Value) : String :=
  String.join (blocks.filterMap fun block => (block.get field).asStr)

/-- `anthropic_response_text`. -/
def responseText (response : Json.Value) : Option String :=
  ((response.get "content").asArray.bind fun blocks => nonEmpty? (joinField "text" blocks)).or
    (((response.get "stop_details").get "explanation").asStr.bind nonEmpty?)

def blockCall (item : Json.Value) : WireToolCall where
  id := (item.get "id").asStr.getD ""
  name := (item.get "name").asStr.getD ""
  arguments := String.ofList (serde.print (item.get "input"))

/-- `extract_anthropic_tool_calls`. -/
def extractToolCalls (content : Json.Value) : List WireToolCall :=
  ((content.asArray.getD []).filter fun item => (item.get "type").asStr = some "tool_use").map (blockCall serde)

/-- `complete`, of the JSON of a message. -/
def messageOf (response : Json.Value) : AssistantMessage :=
  let toolCalls := (extractToolCalls serde (response.get "content")).map (WireToolCall.toolUse serde)
  { text := if toolCalls = [] then responseText response else none
    reasoningContent := (response.get "content").asArray.bind fun blocks => nonEmpty? (joinField "thinking" blocks)
    toolCalls
    usage := usage (response.get "usage")
    stopReason := stopReason ((response.get "stop_reason").asStr.getD "end_turn") }

/-- `complete`, with the error of a body that is not JSON. -/
def complete (unreadable : LlmError) (body : Except LlmError (List Char)) : Except LlmError AssistantMessage := do
  let text ← body
  match serde.fromStr text with
  | some response => .ok (messageOf serde response)
  | none => .error unreadable

/-! ### With a stream -/

variable (json : Json.Value)

def startUsage : Option WireUsage :=
  let inputTokens := (((json.get "message").get "usage").get "input_tokens").asU64.or
    ((json.get "usage").get "input_tokens").asU64
  let value := ((json.get? "message").bind fun message => message.get? "usage").getD (json.get "usage")
  inputTokens.map fun _ =>
    { promptTokens := (usage value).promptTokens % 2 ^ 32
      completionTokens := (usage value).completionTokens % 2 ^ 32
      totalTokens := (usage value).totalTokens % 2 ^ 32
      promptTokensDetails :=
        some (count value "cache_read_input_tokens" % 2 ^ 32, count value "cache_creation_input_tokens" % 2 ^ 32) }

def deltaUsage : Option WireUsage :=
  ((json.get "usage").get "output_tokens").asU64.map fun tokens =>
    { promptTokens := 0, completionTokens := tokens % 2 ^ 32, totalTokens := tokens % 2 ^ 32 }

/-- The index of a block, as a `u32`. -/
def blockIndex : ℕ := count json "index" % 2 ^ 32

/-- The tool call of a `content_block_start`. -/
def startCall : WireToolCallDelta where
  index := blockIndex json
  id := ((json.get "content_block").get "id").asStr
  function := some (((json.get "content_block").get "name").asStr, none)

/-- The tool call of a `content_block_delta`. -/
def deltaCall : WireToolCallDelta where
  index := blockIndex json
  id := none
  function := some (none, ((json.get "delta").get "partial_json").asStr)

def part (event : Option String) (json : Json.Value) : Option StreamPart :=
  if event = some "message_start" then some { usage := startUsage json }
  else if event = some "content_block_delta" then
    some
      { content := ((json.get "delta").get "text").asStr
        reasoning := ((json.get "delta").get "thinking").asStr
        toolCalls :=
          if ((json.get "delta").get "type").asStr = some "input_json_delta" then some [deltaCall json] else none }
  else if event = some "content_block_start" then
    if ((json.get "content_block").get "type").asStr = some "tool_use" then
      some { toolCalls := some [startCall json] }
    else some {}
  else if event = some "message_delta" then
    some { finishReason := ((json.get "delta").get "stop_reason").asStr, usage := deltaUsage json }
  else if event = some "message_stop" then none
  else some {}

/-- `parse_anthropic_stream_line`, with the current event. -/
def parseStreamLine (currentEvent : Option String) (line : List Char) : Option String × Option StreamPart :=
  match stripPrefix? "event: ".toList line with
  | some event => (some (String.ofList event), some {})
  | none =>
    (currentEvent, ((stripPrefix? "data: ".toList line).bind serde.fromStr).elim (some {}) (part currentEvent))

structure Received where
  fullText : String := ""
  fullReasoning : String := ""
  fullToolCalls : List WireToolCall := []
  finalUsage : Option Usage := none
  finalStopReason : StopReason := .endTurn
  currentEvent : Option String := none
  /-- What has been passed on. -/
  chunks : List StreamPart := []

variable (rec received : Received)

def Received.add (parsed : StreamPart) : Received where
  fullText := received.fullText ++ parsed.content.getD ""
  fullReasoning := received.fullReasoning ++ parsed.reasoning.getD ""
  fullToolCalls := (parsed.toolCalls.getD []).foldl accumulateToolCallDelta received.fullToolCalls
  finalUsage := (parsed.usage.map fun u => mergeUsage received.finalUsage (wireUsageToUsage u)).or
    received.finalUsage
  finalStopReason := (parsed.finishReason.map stopReason).getD received.finalStopReason
  currentEvent := received.currentEvent
  chunks := received.chunks ++ [parsed]

def Received.line (received : Received) (line : List Char) : Received :=
  if line.isEmpty then received
  else
    let parsed := parseStreamLine serde received.currentEvent line
    parsed.2.elim { received with currentEvent := parsed.1 }
      ({ received with currentEvent := parsed.1 } : Received).add

/-- The message at the end of the stream. -/
def Received.message : AssistantMessage where
  text := nonEmpty? received.fullText
  reasoningContent := nonEmpty? received.fullReasoning
  toolCalls := received.fullToolCalls.map (WireToolCall.toolUse serde)
  usage := received.finalUsage.getD {}
  stopReason := received.finalStopReason

def completeStream (response : Response) : Except LlmError AssistantMessage :=
  (readBody (Received.line serde) {} response).map (Received.message serde)

theorem completeStream_ended (ps : List (List UInt8)) :
    completeStream serde (.stream ps .ended) =
      .ok (((bodyLines ps).foldl (Received.line serde) {}).message serde) := by
  rw [completeStream, readBody_ended]
  rfl

/-! ### Events -/

/-- A server-sent event, with its data in one line. -/
structure Event where
  name : String
  data : List Char

variable (event : Event)

namespace Event

/-- The lines of an event, with the empty one that ends it. -/
def lines : List (List Char) :=
  ["event: ".toList ++ event.name.toList, "data: ".toList ++ event.data, []]

/-- What the event carries. -/
def part (event : Event) : StreamPart :=
  ((serde.fromStr event.data).elim (some {}) (Anthropic.part (some event.name))).getD {}

def content : String := (event.part serde).content.getD ""

def reasoning : String := (event.part serde).reasoning.getD ""

def toolCalls : List WireToolCallDelta := (event.part serde).toolCalls.getD []

end Event

/-- What is received after `received` is more by some text, some reasoning and some deltas of tool
calls. -/
structure Gain (received' : Received) (text reasoning : String) (deltas : List WireToolCallDelta) : Prop where
  text : received'.fullText = received.fullText ++ text
  reasoning : received'.fullReasoning = received.fullReasoning ++ reasoning
  toolCalls : received'.fullToolCalls =
    fill blankCall WireToolCallDelta.index WireToolCallDelta.change received.fullToolCalls deltas

namespace Gain

variable {rv rc re : Received} {t tx r rs : String}
  {d dl : List WireToolCallDelta}

theorem refl : Gain rec rec "" "" [] := by
  constructor
  · simp
  · simp
  · rfl

theorem trans (h₁ : Gain rv rc t r d) (h₂ : Gain rc re tx rs dl) : Gain rv re (t ++ tx) (r ++ rs) (d ++ dl) := by
  constructor
  · rw [h₂.text, h₁.text, String.append_assoc]
  · rw [h₂.reasoning, h₁.reasoning, String.append_assoc]
  · rw [h₂.toolCalls, h₁.toolCalls, fill_append]

theorem add (p : StreamPart) :
    Gain rec (rec.add p) (p.content.getD "") (p.reasoning.getD "") (p.toolCalls.getD []) := by
  constructor
  · rfl
  · rfl
  · rfl

theorem elim (p : Option StreamPart) :
    Gain rec (p.elim rec rec.add) ((p.getD {}).content.getD "") ((p.getD {}).reasoning.getD "")
      ((p.getD {}).toolCalls.getD []) := by
  cases p with
  | none => exact refl rec
  | some p => exact add rec p

end Gain

variable (received : Received)

theorem line_event (name : List Char) :
    received.line serde ("event: ".toList ++ name) =
      ({ received with currentEvent := some (ofList name) } : Received).add {} := by
  have hs : stripPrefix? "event: ".toList ("event: ".toList ++ name) = some name := by
    simp [stripPrefix?]
  rfl

theorem line_data (data : List Char) : received.line serde ("data: ".toList ++ data) =
      ((serde.fromStr data).elim (some {}) (part received.currentEvent)).elim received received.add := by
  have he : stripPrefix? "event: ".toList ("data: ".toList ++ data) = none := rfl
  have hd : stripPrefix? "data: ".toList ("data: ".toList ++ data) = some data := by
    simp [stripPrefix?]
  rfl

/-- **An event adds what it carries.** -/
theorem gain_lines (e : Event) :
    Gain received (e.lines.foldl (Received.line serde) received) (e.content serde) (e.reasoning serde)
      (e.toolCalls serde) := by
  have hl : e.lines.foldl (Received.line serde) received =
      (received.line serde ("event: ".toList ++ e.name.toList)).line serde ("data: ".toList ++ e.data) := rfl
  rw [hl, line_event, line_data, ofList_toList]
  have ha := Gain.add { received with currentEvent := some e.name } {}
  have hn : Gain received (({ received with currentEvent := some e.name } : Received).add {}) "" "" [] :=
    ⟨ha.text, ha.reasoning, ha.toolCalls⟩
  have hb := hn.trans (Gain.elim _ ((serde.fromStr e.data).elim (some {}) (part (some e.name))))
  exact hb

theorem gain_events (es : List Event) :
    Gain received ((es.flatMap Event.lines).foldl (Received.line serde) received)
      (join (es.map (Event.content serde))) (join (es.map (Event.reasoning serde)))
      (es.flatMap (Event.toolCalls serde)) := by
  induction es generalizing received with
  | nil => exact Gain.refl received
  | cons e es ih =>
    rw [flatMap_cons, foldl_append, map_cons, map_cons, join_cons, join_cons,
      flatMap_cons]
    exact (gain_lines serde received e).trans (ih _)

end XiaoO.LlmClient.Anthropic
