import XiaoO.Conversation.Messages
import XiaoO.LlmClient.OpenAiStream

/-!
# What a request says of a conversation

`chat_message_to_wire` (`llm-client/src/convert.rs`) writes the blocks of a message into a wire
message, which has one place for a content and one for a call id. `build_body`
(`providers/anthropic/mod.rs`) writes each block as a block and marks some with `cache_control`; the
API takes four marks at most.

## The model

The input of a call is its JSON text, so a null input is the text `null`. A block of an Anthropic
body is the block that it is written from, with its mark. Tools and the settings of the model have
no marks and are left out of the body.

## What is proved

A message is written whole exactly if it has at most one block besides its calls, and no call has a
null input (`chatMessageToWire_whole_iff`); of two results only the last is written
(`first_result_is_lost`). `marks_buildBody` is the number of marks of a body; each system text after
the second adds one, and nothing bounds them (`buildBody_marks_iff`, `four_system_texts`).
-/

namespace XiaoO.LlmClient.Requests

open Conversation List

/-! ### Wire messages -/

structure WireMessage where
  role : MessageRole
  content : Option String := none
  reasoningContent : Option String
  toolCalls : Option (List WireToolCall) := none
  toolCallId : Option String := none

/-- The loop of `chat_message_to_wire` at one block. -/
def WireMessage.add (wire : WireMessage) : ContentBlock → WireMessage
  | .text t | .image t | .document t => { wire with content := some t }
  | .toolUse callId toolName input =>
    let call := { id := callId, name := toolName, arguments := if input = "null" then "\x7b\x7d" else input }
    { wire with toolCalls := some (wire.toolCalls.getD [] ++ [call]) }
  | .toolResult callId _ output _ => { wire with toolCallId := some callId, content := some output }

def call? : ContentBlock → Option WireToolCall
  | .toolUse callId toolName input => some ⟨callId, toolName, input⟩
  | _ => none

def chatMessageToWire (m : ChatMessage) : WireMessage :=
  m.blocks.foldl .add
    { role := m.role
      reasoningContent :=
        if m.role = .assistant ∧ m.blocks.any (call? · |>.isSome) then m.reasoningContent else none }

/-- The content of a block that is no call, for a result with its call id. -/
def content? : ContentBlock → Option (Option String × String)
  | .text t | .image t | .document t => some (none, t)
  | .toolResult callId _ output _ => some (some callId, output)
  | .toolUse .. => none

/-- The content of a wire message with its call id. -/
def WireMessage.contents (wire : WireMessage) : List (Option String × String) :=
  wire.content.toList.map (wire.toolCallId, ·)

variable {blocks : List ContentBlock} {wire : WireMessage}

theorem contents_foldl (h : (wire.contents ++ blocks.filterMap content?).length ≤ 1)
    (hi : wire.content = none → wire.toolCallId = none) :
    (blocks.foldl .add wire).contents = wire.contents ++ blocks.filterMap content? := by
  induction blocks generalizing wire with
  | nil => simp
  | cons b rest ih =>
    cases b with
    | toolUse _ _ _ => exact ih h hi
    | _ =>
      cases hc : wire.content with
      | some _ => simp [WireMessage.contents, hc, content?] at h
      | none =>
        -- The block takes the place, which nothing after it asks for.
        rw [foldl_cons, ih] <;> simp_all [WireMessage.contents, WireMessage.add, content?]

/-- A call as it is written: a null input is an empty object. -/
def written (call : WireToolCall) : WireToolCall :=
  { call with arguments := if call.arguments = "null" then "\x7b\x7d" else call.arguments }

theorem toolCalls_foldl (blocks : List ContentBlock) (wire : WireMessage) :
    (blocks.foldl .add wire).toolCalls.getD [] = wire.toolCalls.getD [] ++ (blocks.filterMap call?).map written := by
  induction blocks generalizing wire with
  | nil => simp
  | cons b rest ih =>
    rw [foldl_cons, ih]
    cases b with
    | toolUse c n input => simp [WireMessage.add, call?, written]
    | _ => rfl

theorem map_written_eq_self_iff (calls : List WireToolCall) :
    calls.map written = calls ↔ ∀ call ∈ calls, call.arguments ≠ "null" := by
  conv_lhs => rw [← map_id calls, map_map, map_inj_left]
  refine forall₂_congr fun call _ => ?_
  obtain ⟨id, name, arguments⟩ := call
  by_cases h : arguments = "null"
  · subst h
    simp [written]
  · simp [written, h]

/-- **When a message is written whole**: the contents of its blocks and its calls are those of the
wire message exactly if it has at most one block besides its calls, and no call has a null input. -/
theorem chatMessageToWire_whole_iff (m : ChatMessage) :
    (chatMessageToWire m).contents = m.blocks.filterMap content? ∧
        (chatMessageToWire m).toolCalls.getD [] = m.blocks.filterMap call? ↔
      (m.blocks.filterMap content?).length ≤ 1 ∧ ∀ call ∈ m.blocks.filterMap call?, call.arguments ≠ "null" := by
  have hcalls : (chatMessageToWire m).toolCalls.getD [] = (m.blocks.filterMap call?).map written :=
    toolCalls_foldl m.blocks _
  rw [hcalls, map_written_eq_self_iff]
  refine and_congr_left' ⟨fun h => ?_, fun h => contents_foldl h fun _ => rfl⟩
  -- a wire message has one place for a content
  rw [← h, WireMessage.contents, length_map]
  exact Option.length_toList_le

/-- **The first of two results is lost.** -/
theorem first_result_is_lost : let result callId := .toolResult callId "ls" callId false
    (chatMessageToWire { role := .tool, blocks := [result "c", result "d"] }).contents = [(some "d", "d")] := rfl

/-! ### Cache marks -/

def blockTextForSystem : ContentBlock → Option String
  | .text t | .image t | .document t => some t
  | _ => none

def anthropicSystemBlocks (messages : List ChatMessage) : List String :=
  ((messages.filter (·.role = .system)).map fun m =>
    "\n\n".intercalate (m.blocks.filterMap blockTextForSystem)).filter (· ≠ "")

structure Block where
  block : ContentBlock
  cacheControl : Bool := false

/-- `anthropic_message_content`: what is sent as the user's has its results first. -/
def anthropicMessageContent (m : ChatMessage) : List Block :=
  let isResult | .toolResult .. => true | _ => false
  (match m.role with
    | .user | .tool => m.blocks.filter isResult ++ m.blocks.filter (!isResult ·)
    | _ => m.blocks).map ({ block := · })

def anthropicMessage (m : ChatMessage) : Option (String × List Block) :=
  match m.role with
  | .system => none
  | .assistant => some ("assistant", anthropicMessageContent m)
  | _ => some ("user", anthropicMessageContent m)

/-- The last block of a message is marked, if there is one. -/
def markLast (m : String × List Block) : String × List Block :=
  (m.1, m.2.dropLast ++ m.2.getLast?.toList.map ({ · with cacheControl := true }))

structure Body where
  messages : List (String × List Block)
  system : List Block

def buildBody (messages : List ChatMessage) : Body :=
  let other := messages.filterMap anthropicMessage
  let texts := anthropicSystemBlocks messages
  { messages := other.take (other.length - 2) ++ (other.drop (other.length - 2)).map markLast
    system := texts.zipIdx.map fun t =>
      { block := .text t.1, cacheControl := texts.length = 1 ∨ t.2 + 1 < texts.length } }

def marks (content : List Block) : ℕ := content.countP (·.cacheControl)

def Body.marks (b : Body) : ℕ := Requests.marks (b.system ++ b.messages.flatMap (·.2))

theorem marks_append (l l' : List Block) : marks (l ++ l') = marks l + marks l' := countP_append

theorem marks_markLast {m : String × List Block} (h : marks m.2 = 0) :
    marks (markLast m).2 = if m.2 = [] then 0 else 1 := by
  obtain ⟨role, content⟩ := m
  obtain rfl | ⟨init, b, rfl⟩ := eq_nil_or_concat content
  · rfl
  · have hb : (∀ a ∈ init, a.cacheControl = false) ∧ b.cacheControl = false := by simpa [marks] using h
    simpa [marks, markLast] using hb.1

theorem marks_map_markLast {l : List (String × List Block)} (h : ∀ m ∈ l, marks m.2 = 0) :
    marks ((l.map markLast).flatMap (·.2)) = l.countP (·.2 ≠ []) := by
  induction l with
  | nil => rfl
  | cons m l ih =>
    obtain ⟨hm, hl⟩ := forall_mem_cons.mp h
    rw [map_cons, flatMap_cons, marks_append, marks_markLast hm, ih hl, countP_cons]
    by_cases hn : m.2 = [] <;> simp [hn, Nat.add_comm]

theorem marks_flatMap {l : List (String × List Block)} (h : ∀ m ∈ l, marks m.2 = 0) :
    marks (l.flatMap (·.2)) = 0 := by
  induction l with
  | nil => rfl
  | cons m l ih =>
    obtain ⟨hm, hl⟩ := forall_mem_cons.mp h
    rw [flatMap_cons, marks_append, hm, ih hl]

theorem marks_anthropicMessageContent (m : ChatMessage) : marks (anthropicMessageContent m) = 0 := by
  refine countP_eq_zero.2 fun b hb => ?_
  obtain ⟨_, -, rfl⟩ := mem_map.1 hb
  exact Bool.false_ne_true

theorem anthropicMessageContent_eq_nil (m : ChatMessage) : anthropicMessageContent m = [] ↔ m.blocks = [] := by
  obtain ⟨role, blocks⟩ := m
  cases blocks with
  | nil => cases role <;> simp [anthropicMessageContent]
  | cons b rest =>
    cases role with
    | user | tool =>
      cases b <;> simp [anthropicMessageContent]
    | _ => simp [anthropicMessageContent]

/-- The messages that are sent besides the system texts. -/
def conversation (messages : List ChatMessage) : List ChatMessage := messages.filter (·.role ≠ .system)

theorem map_snd_anthropicMessages (messages : List ChatMessage) :
    (messages.filterMap anthropicMessage).map (·.2) = (conversation messages).map anthropicMessageContent := by
  induction messages with
  | nil => rfl
  | cons m messages ih =>
    rw [conversation, filterMap_cons, filter_cons, ← conversation]
    cases hr : m.role <;> simp [anthropicMessage, hr, ih]

theorem marks_system (texts : List String) :
    marks (texts.zipIdx.map fun t =>
        { block := .text t.1, cacheControl := texts.length = 1 ∨ t.2 + 1 < texts.length }) =
      if texts.length = 1 then 1 else texts.length - 1 := by
  have hr : marks (texts.zipIdx.map fun t =>
        { block := .text t.1, cacheControl := texts.length = 1 ∨ t.2 + 1 < texts.length }) =
      (range texts.length).countP fun i => decide (texts.length = 1 ∨ i + 1 < texts.length) := by
    rw [range_eq_range', ← zipIdx_map_snd, countP_map, marks, countP_map]
    rfl
  rw [hr]
  generalize texts.length = n
  match n with
  | 0 => rfl
  | 1 => rfl
  | n + 2 =>
    have hall : (range (n + 1)).countP (fun i => decide (n + 2 = 1 ∨ i + 1 < n + 2)) = n + 1 := by
      rw [countP_eq_length.mpr, length_range]
      intro i hi
      have hi := mem_range.mp hi
      simp
      omega
    rw [range_succ, countP_append, hall]
    simp

/-- How many of the last two messages have a block. -/
def markedMessages (messages : List ChatMessage) : ℕ :=
  ((conversation messages).drop ((conversation messages).length - 2)).countP (·.blocks ≠ [])

theorem marks_buildBody (messages : List ChatMessage) :
    (buildBody messages).marks =
      (if (anthropicSystemBlocks messages).length = 1 then 1 else (anthropicSystemBlocks messages).length - 1) +
        markedMessages messages := by
  have hsnd := map_snd_anthropicMessages messages
  have hz : ∀ m ∈ messages.filterMap anthropicMessage, marks m.2 = 0 := by
    intro m hm
    have h2 : m.2 ∈ (conversation messages).map anthropicMessageContent := hsnd ▸ mem_map_of_mem hm
    obtain ⟨c, -, hc⟩ := mem_map.mp h2
    rw [← hc]
    exact marks_anthropicMessageContent c
  have hl : (messages.filterMap anthropicMessage).length = (conversation messages).length := by
    simpa using congrArg length hsnd
  rw [Body.marks, marks_append]
  dsimp only [buildBody]
  rw [marks_system, flatMap_append, marks_append, marks_flatMap fun m hm => hz m (mem_of_mem_take hm),
    marks_map_markLast fun m hm => hz m (mem_of_mem_drop hm), Nat.zero_add, markedMessages, hl]
  have hd := congrArg (fun l => (l.drop ((conversation messages).length - 2)).countP (· ≠ [])) hsnd
  simp only [← map_drop, countP_map] at hd
  congr 1
  refine hd.trans (countP_congr fun m _ => ?_)
  simp [anthropicMessageContent_eq_nil]

/-- **When a body has at most four marks**: all system texts but the last have one, or the only one,
and so have those of the last two messages that have a block. -/
theorem buildBody_marks_iff (messages : List ChatMessage) :
    (buildBody messages).marks ≤ 4 ↔
      (if (anthropicSystemBlocks messages).length = 1 then 1 else (anthropicSystemBlocks messages).length - 1) +
        markedMessages messages ≤ 4 := by
  rw [marks_buildBody]

/-- A system message for each of `texts`, and two messages of the user. -/
def asked (texts : List String) : List ChatMessage := texts.map (.text .system · 0) ++ [.user "a", .user "b"]

/-- **Four system texts** and two messages have five marks. -/
theorem four_system_texts : (buildBody (asked ["k", "l", "m", "n"])).marks = 5 := by decide

end XiaoO.LlmClient.Requests
