import XiaoO.Base.Pairing

/-!
# The messages of a conversation

The data of `agent-types/src/llm/message.rs` and the constructors of
`agent-llm/src/message_ext.rs`: a conversation is a list of messages, a message
has a role and a list of content blocks, and two kinds of block carry a call id,
the model's `ToolUse` and the runtime's `ToolResult`.

## The model

The JSON arguments of a `ToolUse` are kept as their text: no function of this
development looks into them. The tool blocks of a conversation, in order, are a
log of calls and answers (`toolEvents`), and the property every provider asks
of a request, that each `ToolUse` is answered by exactly one later `ToolResult`
and each `ToolResult` answers an earlier `ToolUse`, is pairing of that log
(`ToolPaired`).
-/

namespace XiaoO.Conversation

open XiaoO.Base

inductive MessageRole where
  | system
  | user
  | assistant
  | tool
  deriving DecidableEq

inductive ContentBlock where
  | text (text : String)
  /-- A tool call of the model; `input` is the text of its JSON arguments. -/
  | toolUse (callId toolName input : String)
  /-- The result of a tool call. -/
  | toolResult (callId toolName output : String) (isError : Bool)
  | image (description : String)
  | document (description : String)
  deriving DecidableEq

structure ChatMessage where
  role : MessageRole
  blocks : List ContentBlock
  messageId : Option String := none
  timestampMs : ℕ := 0
  apiUsageTokens : Option ℕ := none
  reasoningContent : Option String := none
  estimatedTokens : Option ℕ := none
  deriving DecidableEq

namespace ChatMessage

def text (role : MessageRole) (t : String) (timestampMs : ℕ) : ChatMessage :=
  { role, blocks := [.text t], timestampMs }

def user (t : String) : ChatMessage := text .user t 0

def toolResult (callId toolName output : String) (isError : Bool) (timestampMs : ℕ) : ChatMessage :=
  { role := .tool, blocks := [.toolResult callId toolName output isError], timestampMs }

end ChatMessage

/-! ### The log of tool blocks -/

/-- The event a block stands for in the log of calls and answers. -/
def ContentBlock.toolEvent? : ContentBlock → Option (CallEvent String)
  | .toolUse callId _ _ => some (.call callId)
  | .toolResult callId _ _ _ => some (.answer callId)
  | _ => none

/-- The tool blocks of one message, in order. -/
def ChatMessage.toolEvents (m : ChatMessage) : List (CallEvent String) :=
  m.blocks.filterMap ContentBlock.toolEvent?

/-- The tool blocks of a conversation, in order. -/
def toolEvents (messages : List ChatMessage) : List (CallEvent String) :=
  messages.flatMap ChatMessage.toolEvents

/-- **Tool pairing**: every `ToolUse` is answered by exactly one later
`ToolResult` with its call id, and every `ToolResult` answers an earlier
`ToolUse`. -/
def ToolPaired (messages : List ChatMessage) : Prop := Paired (toolEvents messages)
  deriving Decidable

@[simp] theorem toolEvents_nil : toolEvents [] = [] := rfl

@[simp] theorem toolEvents_cons (m : ChatMessage) (ms : List ChatMessage) :
    toolEvents (m :: ms) = m.toolEvents ++ toolEvents ms := rfl

@[simp] theorem toolEvents_append (ms ms' : List ChatMessage) :
    toolEvents (ms ++ ms') = toolEvents ms ++ toolEvents ms' := List.flatMap_append

theorem mem_toolEvents {e : CallEvent String} {ms : List ChatMessage} :
    e ∈ toolEvents ms ↔ ∃ m ∈ ms, e ∈ m.toolEvents := List.mem_flatMap

@[simp] theorem toolEvents_text (r : MessageRole) (t : String) (n : ℕ) :
    (ChatMessage.text r t n).toolEvents = [] := rfl

@[simp] theorem toolEvents_toolResult (c t o : String) (i : Bool) (n : ℕ) :
    (ChatMessage.toolResult c t o i n).toolEvents = [.answer c] := rfl

/-- A call of the log is a `ToolUse` block. -/
theorem call_mem_toolEvents {m : ChatMessage} {c : String} :
    .call c ∈ m.toolEvents ↔ ∃ n i, .toolUse c n i ∈ m.blocks := by
  simp only [ChatMessage.toolEvents, List.mem_filterMap]
  constructor
  · rintro ⟨b, hb, he⟩
    cases b <;> simp [ContentBlock.toolEvent?] at he
    case toolUse ci n i => exact ⟨n, i, he ▸ hb⟩
  · rintro ⟨n, i, hb⟩
    exact ⟨_, hb, rfl⟩

/-- An answer of the log is a `ToolResult` block. -/
theorem answer_mem_toolEvents {m : ChatMessage} {c : String} :
    .answer c ∈ m.toolEvents ↔ ∃ n o i, .toolResult c n o i ∈ m.blocks := by
  simp only [ChatMessage.toolEvents, List.mem_filterMap]
  constructor
  · rintro ⟨b, hb, he⟩
    cases b <;> simp [ContentBlock.toolEvent?] at he
    case toolResult ci n o i => exact ⟨n, o, i, he ▸ hb⟩
  · rintro ⟨n, o, i, hb⟩
    exact ⟨_, hb, rfl⟩

end XiaoO.Conversation
