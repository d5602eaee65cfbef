import XiaoO.Base.Slots
import XiaoO.LlmClient.OpenAiStream
import XiaoO.LlmClient.ToolArguments

/-!
# What the providers' streams have in common

The Anthropic and the Gemini provider read the body of a streamed response as the OpenAI family
does: bytes are decoded and cut into lines, and what a line carries is added to what has been
received. No line of theirs is an error. The tool calls are put together by
`accumulate_tool_call_deltas`, each delta at its index.

Here inputs of tools are JSON values, `serde_json` is a parameter, and token counts are natural
numbers. An error is given as it is before it is redacted.

The pieces of the body do not matter, only its lines (`foldPieces_eq`). The tool calls are slots
that the deltas fill (`accumulate_eq_fill`).
-/

namespace XiaoO.LlmClient

open XiaoO.Base

/-! ### The answer -/

structure Usage where
  promptTokens : ℕ := 0
  completionTokens : ℕ := 0
  totalTokens : ℕ := 0
  cachedTokens : ℕ := 0
  cacheWriteTokens : ℕ := 0

/-- `WireUsage`, with the `cached_tokens` and the `cache_write_tokens` of its details. -/
structure WireUsage where
  promptTokens : ℕ
  completionTokens : ℕ
  totalTokens : ℕ
  promptTokensDetails : Option (ℕ × ℕ) := none

def wireUsageToUsage (wire : WireUsage) : Usage where
  promptTokens := wire.promptTokens
  completionTokens := wire.completionTokens
  totalTokens := wire.totalTokens
  cachedTokens := (wire.promptTokensDetails.map Prod.fst).getD 0
  cacheWriteTokens := (wire.promptTokensDetails.map Prod.snd).getD 0

/-- `ToolUseBlock`, with its input as a value. -/
structure ToolUse where
  callId : String
  toolName : String
  input : Json.Value
  deriving DecidableEq

structure AssistantMessage where
  text : Option String
  reasoningContent : Option String
  toolCalls : List ToolUse
  usage : Usage
  stopReason : StopReason

/-- The tool calls of the message, from those of the wire. -/
def WireToolCall.toolUse (serde : Json.Codec) (call : WireToolCall) : ToolUse where
  callId := call.id
  toolName := call.name
  input := parseToolArguments serde call.arguments

/-- `ParsedChunk`. -/
structure StreamPart where
  content : Option String := none
  reasoning : Option String := none
  finishReason : Option String := none
  usage : Option WireUsage := none
  toolCalls : Option (List WireToolCallDelta) := none

/-! ### The body -/

/-- The pieces of the body, with the state of the decoder, the buffer and what has been received. -/
def foldPieces {σ : Type} (line : σ → List Char → σ) : Option Pending → List Char → σ → List (List UInt8) → σ
  | _, _, s, [] => s
  | pending, buffer, s, piece :: pieces =>
    let decoded := feed takeByte pending piece
    let lines := feed takeChar buffer decoded.1
    foldPieces line decoded.2 lines.2 (lines.1.foldl line s) pieces

theorem foldPieces_eq {σ : Type} (line : σ → List Char → σ) (p : Option Pending) (b : List Char) (s : σ)
    (ps : List (List UInt8)) :
    foldPieces line p b s ps = (feed takeChar b (feed takeByte p ps.flatten).1).1.foldl line s := by
  induction ps generalizing p b s with
  | nil => rfl
  | cons pc ps ih =>
    rw [List.flatten_cons, feed_append, feed_append, List.foldl_append, foldPieces]
    simp only [ih]

/-- A streamed response, up to the end of its body. -/
def readBody {σ : Type} (line : σ → List Char → σ) (start : σ) : Response → Except LlmError σ
  | .refused error => .error error
  | .stream pieces .ended => .ok (foldPieces line none [] start pieces)
  | .stream _ .timedOut => .error .timeout
  | .stream _ (.broken message) => .error (.streamError message)

theorem readBody_ended {σ : Type} (l : σ → List Char → σ) (s : σ) (ps : List (List UInt8)) :
    readBody l s (.stream ps .ended) = .ok ((bodyLines ps).foldl l s) := by
  rw [readBody, foldPieces_eq]
  rfl

/-! ### Tool calls -/

def blankCall : WireToolCall := { id := "", name := "", arguments := "" }

/-- What a delta does to its tool call. -/
def WireToolCallDelta.change (delta : WireToolCallDelta) (call : WireToolCall) : WireToolCall where
  id := (delta.id.filter (· ≠ "")).getD call.id
  name := ((delta.function.getD (none, none)).1.filter (· ≠ "")).getD call.name
  arguments := call.arguments ++ (delta.function.getD (none, none)).2.getD ""

/-- A name or an id that is empty is the same as none. -/
theorem getD_filter_ne_empty (s : String) : ((some s).filter (· ≠ "")).getD "" = s := by
  by_cases hs : s = ""
  · simp [Option.filter, hs]
  · simp [Option.filter, hs]

/-- **The tool calls are slots** that the deltas fill. -/
theorem accumulate_eq_fill (calls : List WireToolCall) (deltas : List WireToolCallDelta) :
    deltas.foldl accumulateToolCallDelta calls =
      fill blankCall WireToolCallDelta.index WireToolCallDelta.change calls deltas := rfl

end XiaoO.LlmClient
