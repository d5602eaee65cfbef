import XiaoO.LlmClient.ProviderStream

/-!
# Tool calls from Gemini

`providers/gemini`: `complete` reads one response; `complete_stream` reads a body whose lines carry
responses, and adds up what they have. The function calls of a response are numbered from zero, and
`accumulate_tool_call_deltas` puts each at its number, whichever response it is from.

## The model

How `serde_json` reads a `GeminiResponseBody`, and how it prints arguments and reads them again, is
a parameter. A line that cannot be read is passed over.

## What is proved

The streamed tool calls are the function calls of all responses exactly if at most one response has
any, it has at most 2³² (the numbers are `u32`), and all arguments are read back from what is
printed and no string (`stream_keeps_tool_calls_iff`). Otherwise calls with one number are merged
into one (`second_response_overwrites_call`).
-/

namespace XiaoO.LlmClient.Gemini

open XiaoO.Base List Json.Tree Nat WireToolCallDelta

/-! ### Responses -/

/-- `GeminiFunctionCall`. -/
structure FunctionCall where
  name : String
  args : Json.Value
  deriving DecidableEq

/-- `GeminiResponsePart`. -/
structure ResponsePart where
  text : Option String
  functionCall : Option FunctionCall
  deriving DecidableEq

/-- `GeminiCandidate`, with the parts of its content. -/
structure Candidate where
  content : Option (List ResponsePart)
  finishReason : Option String
  deriving DecidableEq

/-- `GeminiUsageMetadata`. -/
structure UsageMetadata where
  promptTokenCount : Option ℕ
  candidatesTokenCount : Option ℕ
  deriving DecidableEq

/-- `GeminiResponseBody`. -/
structure ResponseBody where
  candidates : Option (List Candidate)
  usageMetadata : Option UsageMetadata
  deriving DecidableEq

/-- What is read and printed. -/
structure Serde extends Json.Codec where
  /-- `from_str::<GeminiResponseBody>`. -/
  readResponseBody : List Char → Option ResponseBody

variable (serde : Serde) (response : ResponseBody)

namespace ResponseBody

def candidate : Option Candidate := response.candidates.bind List.head?

def parts : List ResponsePart := (response.candidate.bind Candidate.content).getD []

def finishReason (response : ResponseBody) : Option String := response.candidate.bind Candidate.finishReason

end ResponseBody

/-! ### What is taken from the parts -/

def functionCalls (parts : List ResponsePart) : List FunctionCall := parts.filterMap ResponsePart.functionCall

def extractGeminiText (parts : List ResponsePart) : Option String :=
  nonEmpty? ((parts.filterMap ResponsePart.text).foldl (· ++ ·) "")

/-- `extract_gemini_tool_calls`, where nothing stands for an empty list. -/
def extractGeminiToolCalls (parts : List ResponsePart) : List WireToolCall :=
  (functionCalls parts).mapIdx fun index call =>
    { id := "gemini-call-" ++ toString index, name := call.name, arguments := String.ofList (serde.print call.args) }

/-- `extract_gemini_tool_call_deltas`, of one call: its number becomes a `u32`. -/
def toolCallDelta (index : ℕ) (call : FunctionCall) : WireToolCallDelta where
  index := index % 2 ^ 32
  id := none
  function := some (some call.name, some (String.ofList (serde.print call.args)))

def extractGeminiToolCallDeltas (parts : List ResponsePart) : Option (List WireToolCallDelta) :=
  let deltas := (functionCalls parts).mapIdx (toolCallDelta serde)
  if deltas = [] then none else some deltas

def stopReason : Option String → StopReason
  | some "MAX_TOKENS" => .maxTokens
  | _ => .endTurn

/-! ### Without a stream -/

/-- `complete`, of a response that has been read. -/
def messageOf : AssistantMessage :=
  let toolCalls := (extractGeminiToolCalls serde response.parts).map (WireToolCall.toolUse serde.toCodec)
  let prompt := (response.usageMetadata.bind UsageMetadata.promptTokenCount).getD 0
  let completion := (response.usageMetadata.bind UsageMetadata.candidatesTokenCount).getD 0
  { text := if toolCalls = [] then extractGeminiText response.parts else none
    reasoningContent := none
    toolCalls
    usage := { promptTokens := prompt, completionTokens := completion, totalTokens := prompt + completion }
    stopReason := stopReason response.finishReason }

/-- `complete`, with the error of a body that is not such a response. -/
def complete (unreadable : LlmError) (body : Except LlmError (List Char)) : Except LlmError AssistantMessage := do
  let text ← body
  match serde.readResponseBody text with
  | some response => .ok (messageOf serde response)
  | none => .error unreadable

/-! ### With a stream -/

structure Received where
  fullText : String := ""
  fullToolCalls : List WireToolCall := []
  finalUsage : Option Usage := none
  finalStopReason : StopReason := .endTurn
  /-- What has been passed on. -/
  chunks : List StreamPart := []

def lineResponse (line : List Char) : Option ResponseBody :=
  let data := trim ((stripPrefix? "data: ".toList line).getD line)
  if line.isEmpty ∨ data.isEmpty ∨ data = "[DONE]".toList then none else serde.readResponseBody data

/-- A response as a `ParsedChunk`. -/
def streamPart : StreamPart where
  content := extractGeminiText response.parts
  finishReason := response.finishReason
  usage := response.usageMetadata.map fun u =>
    { promptTokens := u.promptTokenCount.getD 0
      completionTokens := u.candidatesTokenCount.getD 0
      totalTokens := u.promptTokenCount.getD 0 + u.candidatesTokenCount.getD 0 }
  toolCalls := extractGeminiToolCallDeltas serde response.parts

def Received.add (received : Received) (response : ResponseBody) : Received where
  fullText := received.fullText ++ (streamPart serde response).content.getD ""
  fullToolCalls := ((streamPart serde response).toolCalls.getD []).foldl accumulateToolCallDelta
    received.fullToolCalls
  finalUsage := ((streamPart serde response).usage.map wireUsageToUsage).or received.finalUsage
  finalStopReason :=
    if response.finishReason = none then received.finalStopReason else stopReason response.finishReason
  chunks := received.chunks ++ [streamPart serde response]

def Received.line (received : Received) (line : List Char) : Received :=
  match lineResponse serde line with
  | some response => received.add serde response
  | none => received

/-- The message at the end of the stream. -/
def Received.message (received : Received) : AssistantMessage where
  text := nonEmpty? received.fullText
  reasoningContent := none
  toolCalls := received.fullToolCalls.map (WireToolCall.toolUse serde.toCodec)
  usage := received.finalUsage.getD {}
  stopReason := received.finalStopReason

def completeStream (response : Response) : Except LlmError AssistantMessage :=
  (readBody (Received.line serde) {} response).map (Received.message serde)

def responses (pieces : List (List UInt8)) : List ResponseBody := (bodyLines pieces).filterMap (lineResponse serde)

theorem completeStream_ended (ps : List (List UInt8)) :
    completeStream serde (.stream ps .ended) =
      .ok (((responses serde ps).foldl (Received.add serde) {}).message serde) := by
  have hln : ∀ (ls : List (List Char)) (received : Received), ls.foldl (Received.line serde) received =
      (ls.filterMap (lineResponse serde)).foldl (Received.add serde) received := by
    intro ls
    induction ls with
    | nil => exact fun _ => rfl
    | cons l ls ih =>
      intro received
      rw [foldl_cons, ih, Received.line]
      cases hl : lineResponse serde l with
      | none => rw [filterMap_cons_none hl]
      | some => rw [filterMap_cons_some hl, foldl_cons]
  rw [completeStream, readBody_ended, hln]
  rfl

/-! ### Which calls are kept -/

def allCalls (responses : List ResponseBody) : List FunctionCall := responses.flatMap fun r => functionCalls r.parts

/-- What a tool call has besides its id. -/
def ToolUse.content (call : ToolUse) : String × Json.Value := (call.toolName, call.input)

/-- The tool calls are the function calls of all responses, and those that `complete` returns for
all parts in one response. -/
structure KeepsToolCalls (responses : List ResponseBody) (toolCalls : List ToolUse) : Prop where
  own : toolCalls.map ToolUse.content = (allCalls responses).map fun call => (call.name, call.args)
  complete : ∀ whole : ResponseBody, whole.parts = responses.flatMap ResponseBody.parts →
    toolCalls.map ToolUse.content = (messageOf serde whole).toolCalls.map ToolUse.content

/-- No two function calls have one number, and the arguments are read as they are. -/
structure NumberedApart (responses : List ResponseBody) : Prop where
  oneResponse : (responses.filter fun r => functionCalls r.parts ≠ []).length ≤ 1
  count : (allCalls responses).length ≤ 2 ^ 32
  readsBack : ∀ call ∈ allCalls responses, serde.ReadsBack call.args
  noString : ∀ call ∈ allCalls responses, ∀ x, call.args ≠ .string x

def deltas : List WireToolCallDelta := (functionCalls response.parts).mapIdx (toolCallDelta serde)

theorem toolCalls_streamPart : (streamPart serde response).toolCalls.getD [] = deltas serde response := by
  by_cases h : deltas serde response = []
  · have hn : (streamPart serde response).toolCalls = none := if_pos h
    rw [hn, Option.getD_none, h]
  · have hs : (streamPart serde response).toolCalls = some (deltas serde response) := if_neg h
    rw [hs, Option.getD_some]

theorem fullToolCalls_foldl (rs : List ResponseBody) (r : Received) :
    (rs.foldl (Received.add serde) r).fullToolCalls =
      fill blankCall index change r.fullToolCalls (rs.flatMap (deltas serde)) := by
  induction rs generalizing r with
  | nil => rfl
  | cons re rs ih =>
    rw [foldl_cons, ih, flatMap_cons, fill_append, Received.add, toolCalls_streamPart, accumulate_eq_fill]

theorem change_toolCallDelta (i : ℕ) (c : FunctionCall) : (toolCallDelta serde i c).change blankCall =
      { id := "", name := c.name, arguments := String.ofList (serde.print c.args) } := by
  have hn : ((some c.name).filter (· ≠ "")).getD "" = c.name := getD_filter_ne_empty c.name
  simpa [change, toolCallDelta, blankCall] using hn

theorem index_mapIdx {cs : List FunctionCall} (hc : cs.length ≤ 2 ^ 32) :
    (cs.mapIdx (toolCallDelta serde)).map index = range (cs.mapIdx (toolCallDelta serde)).length := by
  apply ext_getElem
  · simp
  · intro i hi _
    have hlt : i < cs.length := by simpa using hi
    have hm : i % 2 ^ 32 = i := mod_eq_of_lt (hlt.trans_le hc)
    simpa [toolCallDelta] using hm

theorem map_mapIdx_eq_map {α β γ : Type} {f : ℕ → α → β} {g : β → γ} {k : α → γ} {l : List α}
    (h : ∀ i, ∀ a ∈ l, g (f i a) = k a) : (l.mapIdx f).map g = l.map k := by
  apply ext_getElem
  · simp
  · intro i _ _
    simp [h]

/-- The calls of one response are numbered apart. -/
theorem fill_mapIdx {cs : List FunctionCall} (hc : cs.length ≤ 2 ^ 32) :
    fill blankCall index change [] (cs.mapIdx (toolCallDelta serde)) =
      cs.map fun c => { id := "", name := c.name, arguments := String.ofList (serde.print c.args) } := by
  rw [fill_eq_map (index_mapIdx serde hc)]
  apply map_mapIdx_eq_map
  intro i c _
  exact change_toolCallDelta serde i c

/-- What is left of a call when its arguments were printed and parsed. -/
def reread (call : FunctionCall) : String × Json.Value :=
  (call.name, parseToolArguments serde.toCodec (String.ofList (serde.print call.args)))

/-- The tool calls that `complete` returns are the calls among the parts. -/
theorem messageOf_content (r : ResponseBody) :
    (messageOf serde r).toolCalls.map ToolUse.content = (functionCalls r.parts).map (reread serde) := by
  rw [messageOf, extractGeminiToolCalls, map_map]
  exact map_mapIdx_eq_map fun _ _ _ => rfl

/-- If one response at most has calls, the deltas are those of its calls. -/
theorem flatMap_deltas {rs : List ResponseBody} (ho : (rs.filter fun r => functionCalls r.parts ≠ []).length ≤ 1) :
    rs.flatMap (deltas serde) = (allCalls rs).mapIdx (toolCallDelta serde) := by
  induction rs with
  | nil => rfl
  | cons re rs ih =>
    rw [allCalls, flatMap_cons, flatMap_cons, ← allCalls]
    by_cases hc : functionCalls re.parts = []
    · have hd : deltas serde re = [] := by simp [deltas, hc]
      rw [hd, hc, nil_append, nil_append]
      apply ih
      simpa [hc] using ho
    · -- no response after this one has a call
      have hrs : ∀ r ∈ rs, functionCalls r.parts = [] := by simpa [hc] using ho
      have hn : allCalls rs = [] := flatMap_eq_nil_iff.mpr hrs
      have hd : rs.flatMap (deltas serde) = [] := by
        apply flatMap_eq_nil_iff.mpr
        intro r hr
        simp [deltas, hrs r hr]
      rw [hn, hd, append_nil, append_nil, deltas]

/-- The tool calls of the stream, if they are numbered apart. -/
theorem message_content {rs : List ResponseBody} (ho : (rs.filter fun r => functionCalls r.parts ≠ []).length ≤ 1)
    (hc : (allCalls rs).length ≤ 2 ^ 32) :
    ((rs.foldl (Received.add serde) {}).message serde).toolCalls.map ToolUse.content =
      (allCalls rs).map (reread serde) := by
  rw [Received.message, fullToolCalls_foldl, flatMap_deltas serde ho, fill_mapIdx serde hc, map_map, map_map]
  rfl

/-- If all calls are there, one response has as many as there are. -/
theorem exists_response_of_length {rs : List ResponseBody} (hc : allCalls rs ≠ [])
    (hln : (allCalls rs).length ≤ (fill blankCall index change [] (rs.flatMap (deltas serde))).length) :
    ∃ r ∈ rs, (allCalls rs).length ≤ (functionCalls r.parts).length ∧ (allCalls rs).length ≤ 2 ^ 32 := by
  have hp : 0 < (allCalls rs).length := length_pos_iff.mpr hc
  have hl : (allCalls rs).length
    - 1 < (fill blankCall index change [] (rs.flatMap (deltas serde))).length := by omega
  rcases (lt_length_fill _ _ _).mp hl with hn | ⟨d, hd, hin⟩
  · cases hn
  · obtain ⟨r, hr, hd⟩ := mem_flatMap.mp hd
    obtain ⟨i, hi, rfl⟩ := mem_mapIdx.mp hd
    refine ⟨r, hr, ?_, ?_⟩
    · have hle := hin.trans (Nat.mod_le _ _)
      omega
    · have hlt := hin.trans_lt (Nat.mod_lt _ (Nat.two_pow_pos 32))
      omega

/-- If all calls are there, they are in one response. -/
theorem oneResponse_of_length {rs : List ResponseBody}
    (hl : (allCalls rs).length ≤ (fill blankCall index change [] (rs.flatMap (deltas serde))).length) :
    (rs.filter fun r => functionCalls r.parts ≠ []).length ≤ 1 ∧ (allCalls rs).length ≤ 2 ^ 32 := by
  have hf : ∀ {rs : List ResponseBody}, allCalls rs = [] → rs.filter (fun r => functionCalls r.parts ≠ []) = [] := by
    intro rs hrs
    apply filter_eq_nil_iff.mpr
    simpa using flatMap_eq_nil_iff.mp hrs
  by_cases hc : allCalls rs = []
  · rw [hf hc, hc]
    exact ⟨zero_le _, zero_le _⟩
  · obtain ⟨re, hr, hle, hco⟩ := exists_response_of_length serde hc hl
    refine ⟨?_, hco⟩
    obtain ⟨b, a, rfl⟩ := append_of_mem hr
    -- the others have none, since this one has as many calls as there are
    have ho : allCalls b = [] ∧ allCalls a = [] := by
      rw [allCalls, flatMap_append, flatMap_cons, ← allCalls, ← allCalls, length_append, length_append] at hle
      constructor
      · exact length_eq_zero_iff.mp (by omega)
      · exact length_eq_zero_iff.mp (by omega)
    rw [filter_append, filter_cons, hf ho.1, hf ho.2]
    split
    · exact le_refl _
    · exact zero_le _

/-- Calls are the same after printing and parsing exactly if their arguments are read back and no
strings. -/
theorem map_reread_eq_iff (hserde : Lawful serde.toCodec) (cs : List FunctionCall) :
    cs.map (reread serde) = cs.map (fun c => (c.name, c.args)) ↔
      ∀ c ∈ cs, serde.ReadsBack c.args ∧ ∀ x, c.args ≠ .string x := by
  rw [map_inj_left]
  refine forall₂_congr fun c _ => ?_
  rw [← parseToolArguments_print_iff hserde, reread, Prod.mk.injEq]
  simp

/-- A part that calls a function, as text and as it is read. -/
def callText (name : String) : String :=
  "\x7b\"functionCall\":\x7b\"name\":\"" ++ name ++ "\",\"args\":\x7b\"path\":\"a\"\x7d\x7d\x7d"

def callPart (name : String) : ResponsePart where
  text := none
  functionCall := some { name, args := record [("path", .string "a")] }

/-- A response that calls these functions. -/
def callsText (names : List String) : List Char :=
  ("\x7b\"candidates\":[\x7b\"content\":\x7b\"parts\":[" ++ ",".intercalate
    (names.map callText) ++ "]\x7d\x7d]\x7d").toList

def callsBody (names : List String) : ResponseBody where
  candidates := some [{ content := some (names.map callPart), finishReason := none }]
  usageMetadata := none

/-- What is read from the responses, and how their arguments are printed. -/
def callsSerde : Serde where
  toCodec := .ofTable [("null", .null), ("\x7b\"path\":\"a\"\x7d", record [("path", .string "a")])]
  readResponseBody text :=
    ([["read"], ["list"], ["read", "list"]].find? fun names => callsText names = text).map callsBody

/-- The line of a stream with such a response. -/
def callsLine (names : List String) : List UInt8 := utf8Encode ("data: ".toList ++ callsText names ++ ['\n'])

end XiaoO.LlmClient.Gemini
