import XiaoO.LlmClient.Errors
import XiaoO.Base.Feed
import XiaoO.Base.Utf8

/-!
# A streamed answer

`providers/openai_family.rs`, `try_stream_endpoint`: the body of the response comes in pieces of
bytes; they are decoded, cut into lines, and each line that carries data is parsed, added to what
has been received so far, and passed on to the caller as a chunk. A line that cannot be parsed, or
that is an error, ends the request with that error, and so do a body that breaks off and one without
content; the chunks before have been passed on.

## The model

A request gives the chunks that it passes on and its result (`Streamed`). The endpoint may refuse,
that is fail in any way before the body begins, or send any pieces of bytes and then end, break off
or time out. The JSON of a line is a parameter (`Json`), and so are the tool inputs in it. Token
usage is kept as its JSON text.

## What is proved

The request depends only on the lines of the body, not on how it was cut into pieces
(`processPieces_eq`). The deltas that were passed on are together what has been received
(`processLines_received`), so a request that succeeds has passed on its answer
(`tryStreamEndpoint_ok`).
-/

namespace XiaoO.LlmClient

open XiaoO.Base

/-! ### The wire -/

/-- `WireToolCallDelta`, the name and the arguments being those of its function. -/
structure WireToolCallDelta where
  index : ℕ
  id : Option String
  function : Option (Option String × Option String)

structure ParsedChunk where
  content : Option String := none
  reasoning : Option String := none
  finishReason : Option String := none
  usage : Option String := none
  toolCalls : Option (List WireToolCallDelta) := none
  /-- The `chunk_hashes` of the `kv_transfer_params`. -/
  kvTransferParams : Option (List String) := none

structure ChunkChoice where
  content : Option String
  reasoning : Option String
  toolCalls : Option (List WireToolCallDelta)
  finishReason : Option String

structure ChatCompletionChunk where
  choices : List ChunkChoice
  usage : Option String
  kvTransferParams : Option (List String)

/-- `ToolUseBlock`, with the JSON text of the input. -/
structure ToolUseBlock where
  callId : String
  toolName : String
  input : String

structure StreamChunk where
  reset : Bool
  deltaText : Option String
  deltaReasoning : Option String
  deltaToolCall : Option ToolUseBlock

inductive StopReason where
  | endTurn
  | maxTokens
  | toolUse
  | contentFilter
  deriving DecidableEq

/-- `LlmResponse` with its `AssistantMessage`. -/
structure LlmResponse where
  text : Option String
  reasoningContent : Option String
  toolCalls : List ToolUseBlock
  usage : Option String
  stopReason : StopReason
  kvCacheChunkHashes : List String

/-- What is read from JSON texts. -/
structure Json where
  /-- `parse_stream_error`. -/
  streamError : List Char → Option LlmError
  /-- `serde_json::from_str`, with the text of its error. -/
  chunk : List Char → Except String ChatCompletionChunk
  /-- `message` or `error.message`. -/
  bodyMessage : List Char → Option String
  /-- `serde_json::from_str(..).ok()`, of the arguments in one delta. -/
  deltaInput : String → Option String
  /-- `parse_tool_arguments`. -/
  toolArguments : String → String

/-! ### A line -/

variable (json : Json)

/-- `parse_openai_family_stream_line`: nothing for the end marker. -/
def parseOpenaiFamilyStreamLine (line : List Char) : Except LlmError (Option ParsedChunk) :=
  let line := trim line
  if line.isEmpty ∨ line.head? = some ':' ∨ "event: ".toList.isPrefixOf line then .ok (some {})
  else if line = "[DONE]".toList then .ok none
  else
    match stripPrefix? "data:".toList line with
    | none => .ok (some {})
    | some data =>
      let data := trim data
      if data.isEmpty then .ok (some {})
      else if data = "[DONE]".toList then .ok none
      else
        match json.streamError data with
        | some error => .error error
        | none =>
          match json.chunk data with
          | .error message => .error (.parseError ("Failed to parse stream chunk: " ++ message))
          | .ok chunk =>
            match chunk.choices.head? with
            | some choice =>
              .ok (some {
                content := choice.content
                reasoning := choice.reasoning
                finishReason := choice.finishReason
                usage := chunk.usage
                toolCalls := choice.toolCalls
                kvTransferParams := chunk.kvTransferParams })
            | none => .ok (some { usage := chunk.usage, kvTransferParams := chunk.kvTransferParams })

def parsedChunkToStreamChunk (parsed : ParsedChunk) : StreamChunk where
  reset := false
  deltaText := parsed.content
  deltaReasoning := parsed.reasoning
  deltaToolCall := do
    let delta ← (← parsed.toolCalls).head?
    let (name, arguments) ← delta.function
    some
      { callId := delta.id.getD "", toolName := name.getD "", input := (arguments.bind json.deltaInput).getD "null" }

structure WireToolCall where
  id : String
  name : String
  arguments : String

/-- One delta of `accumulate_tool_call_deltas`. -/
def accumulateToolCallDelta (calls : List WireToolCall) (delta : WireToolCallDelta) : List WireToolCall :=
  let calls := calls ++ List.replicate (delta.index + 1 - calls.length) { id := "", name := "", arguments := "" }
  calls.modify delta.index fun call =>
    let (name, arguments) := delta.function.getD (none, none)
    { id := (delta.id.filter (· ≠ "")).getD call.id
      name := (name.filter (· ≠ "")).getD call.name
      arguments := call.arguments ++ arguments.getD "" }

structure Received where
  fullText : String := ""
  fullReasoning : String := ""
  fullToolCalls : List WireToolCall := []
  finalUsage : Option String := none
  finalFinishReason : Option String := none
  finalKvTransferParams : Option (List String) := none

variable (s : String) (received : Received)

def Received.add (parsed : ParsedChunk) : Received where
  fullText := received.fullText ++ parsed.content.getD ""
  fullReasoning := received.fullReasoning ++ parsed.reasoning.getD ""
  fullToolCalls := (parsed.toolCalls.getD []).foldl accumulateToolCallDelta received.fullToolCalls
  finalUsage := parsed.usage.or received.finalUsage
  finalFinishReason := parsed.finishReason.or received.finalFinishReason
  finalKvTransferParams := parsed.kvTransferParams.or received.finalKvTransferParams

/-! ### A request -/

/-- The chunks that a request passes on, and what it ends with. -/
structure Streamed (α : Type) where
  chunks : List StreamChunk
  result : Except LlmError α

/-- Go on with what a request has given, if it has not failed. -/
def Streamed.andThen {α β : Type} (s : Streamed α) (f : α → Streamed β) : Streamed β :=
  match s.result with
  | .ok a => { chunks := s.chunks ++ (f a).chunks, result := (f a).result }
  | .error e => { chunks := s.chunks, result := .error e }

def processLine (line : List Char) : Streamed Received :=
  if line.isEmpty then { chunks := [], result := .ok received }
  else
    match parseOpenaiFamilyStreamLine json line with
    | .error e => { chunks := [], result := .error e }
    | .ok none => { chunks := [], result := .ok received }
    | .ok (some parsed) =>
      { chunks := [parsedChunkToStreamChunk json parsed], result := .ok (received.add parsed) }

def processLines (json : Json) : Received → List (List Char) → Streamed Received
  | received, [] => { chunks := [], result := .ok received }
  | received, line :: lines => (processLine json received line).andThen fun received =>
      processLines json received lines

/-- The buffer takes a character, and gives off a line when it ends. -/
def takeChar (buffer : List Char) (c : Char) : List (List Char) × List Char :=
  if c = '\n' then ([buffer], []) else ([], buffer ++ [c])

/-- `StreamUtf8Decoder::push`, of one byte. -/
def takeByte (pending : Option Pending) (b : UInt8) : List Char × Option Pending := decodeByte pending b.toNat

/-- The pieces of the body, with the state of the decoder and the buffer. What is left in them at
the end is dropped. -/
def processPieces (json : Json) : Option Pending → List Char → Received → List (List UInt8) → Streamed Received
  | _, _, received, [] => { chunks := [], result := .ok received }
  | pending, buffer, received, piece :: pieces =>
    let decoded := feed takeByte pending piece
    let lines := feed takeChar buffer decoded.1
    (processLines json received lines.1).andThen fun received => processPieces json decoded.2 lines.2 received pieces

/-- How the body of a response ends. -/
inductive Ending where
  | ended
  | timedOut
  /-- `map_stream_read_error`, with its message. -/
  | broken (message : String)
  deriving DecidableEq

/-- What an endpoint does. -/
inductive Response where
  /-- The request cannot be sent, is not answered, or not with an event stream. -/
  | refused (error : LlmError)
  | stream (pieces : List (List UInt8)) (ending : Ending)

/-- The `stop_reason` of a `finish_reason`. -/
def stopReason : Option String → StopReason
  | some "stop" | some "end_turn" => .endTurn
  | some "length" | some "max_tokens" => .maxTokens
  | some "tool_calls" | some "tool_use" => .toolUse
  | some "content_filter" => .contentFilter
  | _ => .endTurn

/-- The message of a response without content. -/
def emptyStreamMessage : String :=
  "empty stream response: stream completed but received no content. " ++
    "The endpoint may not support SSE streaming or returned an unexpected response."

def nonEmpty? : Option String := if s.isEmpty then none else some s

/-- The response from what has been received. -/
def finish : Except LlmError LlmResponse :=
  if received.fullText.isEmpty ∧ received.fullReasoning.isEmpty ∧ received.fullToolCalls.isEmpty then
    .error (.apiError emptyStreamMessage)
  else
    .ok {
      text := nonEmpty? received.fullText
      reasoningContent := nonEmpty? received.fullReasoning
      toolCalls := received.fullToolCalls.map fun call =>
        { callId := call.id, toolName := call.name, input := json.toolArguments call.arguments }
      usage := received.finalUsage
      stopReason := stopReason received.finalFinishReason
      kvCacheChunkHashes := received.finalKvTransferParams.getD [] }

/-- `try_stream_endpoint`, with what the endpoint does. -/
def tryStreamEndpoint : Response → Streamed LlmResponse
  | .refused error => { chunks := [], result := .error error }
  | .stream pieces ending =>
    (processPieces json none [] {} pieces).andThen fun received =>
      match ending with
      | .ended => { chunks := [], result := finish json received }
      | .timedOut => { chunks := [], result := .error .timeout }
      | .broken message => { chunks := [], result := .error (.streamError message) }

/-! ### Requests one after the other -/

namespace Streamed

variable {α β γ : Type} {s : Streamed α} {f : α → Streamed β}

theorem andThen_assoc (s : Streamed α) (f : α → Streamed β) (g : β → Streamed γ) :
    (s.andThen f).andThen g = s.andThen fun a => (f a).andThen g := by
  obtain ⟨cs, e | a⟩ := s
  · rfl
  · unfold andThen
    dsimp only
    cases (f a).result <;> simp

theorem andThen_ok {b : β} (h : (s.andThen f).result = .ok b) :
    ∃ a, s.result = .ok a ∧ (f a).result = .ok b ∧ (s.andThen f).chunks = s.chunks ++ (f a).chunks := by
  obtain ⟨chunks, e | a⟩ := s
  · cases h
  · exact ⟨a, rfl, h, rfl⟩

theorem andThen_error {e : LlmError} (h : (s.andThen f).result = .error e) :
    s.result = .error e ∧ (s.andThen f).chunks = s.chunks ∨
      ∃ a, s.result = .ok a ∧ (f a).result = .error e ∧ (s.andThen f).chunks = s.chunks ++ (f a).chunks := by
  obtain ⟨chunks, e' | a⟩ := s
  · cases h
    exact .inl ⟨rfl, rfl⟩
  · exact .inr ⟨a, rfl, h, rfl⟩

theorem forall_mem_andThen {p : StreamChunk → Prop} (hs : ∀ c ∈ s.chunks, p c) (hf : ∀ a, ∀ c ∈ (f a).chunks, p c) :
    ∀ c ∈ (s.andThen f).chunks, p c := by
  obtain ⟨chunks, e | a⟩ := s
  · exact hs
  · exact List.forall_mem_append.mpr ⟨hs, hf a⟩

end Streamed

variable {j : Json}

theorem processLines_append (r : Received) (ls lines' : List (List Char)) : processLines j r (ls ++ lines') =
      (processLines j r ls).andThen fun r => processLines j r lines' := by
  induction ls generalizing r with
  | nil => rfl
  | cons l ls ih =>
    rw [List.cons_append, processLines, processLines, Streamed.andThen_assoc]
    simp only [ih]

def bodyLines (pieces : List (List UInt8)) : List (List Char) :=
  (feed takeChar [] (feed takeByte none pieces.flatten).1).1

/-- **The pieces do not matter**, only the lines. -/
theorem processPieces_eq (p : Option Pending) (b : List Char) (r : Received) (ps : List (List UInt8)) :
    processPieces j p b r ps = processLines j r (feed takeChar b (feed takeByte p ps.flatten).1).1 := by
  induction ps generalizing p b r with
  | nil => rfl
  | cons pc ps ih =>
    rw [List.flatten_cons, feed_append, feed_append, processLines_append, processPieces]
    simp only [ih]

/-! ### What is passed on is what is received -/

/-- The two parts of an answer. -/
inductive Part where
  | text
  | reasoning

def Part.delta : Part → StreamChunk → Option String
  | .text, chunk => chunk.deltaText
  | .reasoning, chunk => chunk.deltaReasoning

def Part.full : Part → Received → String
  | .text, received => received.fullText
  | .reasoning, received => received.fullReasoning

def Part.answer : Part → LlmResponse → Option String
  | .text, response => response.text
  | .reasoning, response => response.reasoningContent

variable {part : Part}

/-- The deltas of a part, one after the other, behind a text. -/
def joined (part : Part) (start : String) (chunks : List StreamChunk) : String :=
  chunks.foldl (fun s chunk => s ++ (part.delta chunk).getD "") start

theorem joined_append (cs chunks' : List StreamChunk) :
    joined part s (cs ++ chunks') = joined part (joined part s cs) chunks' :=
  List.foldl_append

theorem processLine_received {r received' : Received} {l : List Char}
    (h : (processLine j r l).result = .ok received') :
    joined part (part.full r) (processLine j r l).chunks = part.full received' := by
  rw [processLine] at h ⊢
  split_ifs at h ⊢
  · cases h
    rfl
  · split at h <;> cases h
    · rfl
    · cases part <;> rfl

/-- **The deltas are what is received.** -/
theorem processLines_received {r received' : Received} {ls : List (List Char)}
    (h : (processLines j r ls).result = .ok received') :
    joined part (part.full r) (processLines j r ls).chunks = part.full received' := by
  induction ls generalizing r with
  | nil =>
    cases h
    rfl
  | cons l ls ih =>
    obtain ⟨next, hln, hl, hc⟩ := Streamed.andThen_ok h
    rw [processLines, hc, joined_append, processLine_received hln, ih hl]

theorem getD_nonEmpty? : (nonEmpty? s).getD "" = s := by
  rw [nonEmpty?]
  split_ifs with he
  · exact (String.isEmpty_iff.mp he).symm
  · rfl

theorem finish_ok {received : Received} {r : LlmResponse} (h : finish j received = .ok r) :
    (part.answer r).getD "" = part.full received := by
  rw [finish] at h
  split_ifs at h
  cases h
  cases part <;> exact getD_nonEmpty? _

/-- **A request that succeeds has passed on its answer.** -/
theorem tryStreamEndpoint_ok {e : Response} {r : LlmResponse} (h : (tryStreamEndpoint j e).result = .ok r) :
    joined part "" (tryStreamEndpoint j e).chunks = (part.answer r).getD "" := by
  cases e with
  | refused => cases h
  | stream ps en =>
    obtain ⟨received, hb, he, hc⟩ := Streamed.andThen_ok h
    rw [tryStreamEndpoint, hc, joined_append]
    rw [processPieces_eq] at hb ⊢
    have hs : part.full {} = "" := by cases part <;> rfl
    have hr : joined part (part.full {}) _ = part.full received := processLines_received hb
    rw [hs] at hr
    cases en with
    | ended =>
      rw [hr, finish_ok he]
      rfl
    | timedOut | broken => cases he

end XiaoO.LlmClient
