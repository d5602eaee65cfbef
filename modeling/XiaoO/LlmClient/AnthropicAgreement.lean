import XiaoO.LlmClient.Anthropic

/-!
# The same message with and without a stream

A message of Anthropic's is a list of content blocks. `complete` reads it from its JSON,
`complete_stream` from the events that carry its blocks one after the other, each in fragments and
with its index.

## The model

`IsMessage` says when a value is the JSON of a message, and `MessageEvents` when events carry it.
Both ask only for the fields that tell what the blocks are. A block comes with the fragments in
which it is sent (`SentBlock`), and those of a tool are read as the input that its JSON has. A
message has at most 2³² blocks.

## What is proved

The two agree on text, reasoning and tool calls exactly if the message has no tools, or has no text,
its tools are its first blocks, and their inputs are read back from what is printed
(`stream_agrees_iff`). The index of a tool's block is taken for the number of its call, so a block
before it makes a call that is not there, and `complete` drops the text of a message with tools,
which the stream keeps (`text_before_tool_disagrees`). Only `complete` prints the inputs and reads
them again.
-/

namespace XiaoO.LlmClient.Anthropic

open XiaoO.Base List Json.Tree

variable (serde : Json.Codec)

/-! ### Messages -/

inductive ContentBlock where
  | text (text : String)
  | thinking (thinking : String)
  | toolUse (id name : String) (input : Json.Tree .entries)

open ContentBlock

namespace ContentBlock

def type : ContentBlock → String
  | text _ => "text"
  | thinking _ => "thinking"
  | toolUse _ _ _ => "tool_use"

def text? : ContentBlock → Option String
  | text t => some t
  | _ => none

def thinking? : ContentBlock → Option String
  | thinking t => some t
  | _ => none

def toolUse? : ContentBlock → Option ToolUse
  | toolUse id name input => some { callId := id, toolName := name, input := .object input }
  | _ => none

/-- The block is sent in these fragments; of a tool, they are a text of its input. -/
def Splits : ContentBlock → List String → Prop
  | text t, fragments => String.join fragments = t
  | thinking t, fragments => String.join fragments = t
  | toolUse _ _ input, fragments => serde.fromStr (trim (String.join fragments).toList) = some (.object input)

end ContentBlock

/-- A block with the fragments in which it is sent. -/
structure SentBlock where
  block : ContentBlock
  fragments : List String
  splits : block.Splits serde fragments

open SentBlock

/-! ### The JSON of a message -/

/-- The value is the JSON of a block. -/
structure IsBlock (block : ContentBlock) (v : Json.Value) : Prop where
  type : v.get "type" = .string block.type
  text : (v.get "text").asStr = block.text?
  thinking : (v.get "thinking").asStr = block.thinking?
  toolUse : ∀ id name input, block = .toolUse id name input →
    v.get "id" = .string id ∧ v.get "name" = .string name ∧ v.get "input" = .object input

/-- The value is the JSON of a message with these blocks, and has nothing else that is taken for
text. -/
structure IsMessage (blocks : List ContentBlock) (v : Json.Value) : Prop where
  content : ∃ items, (v.get "content").asArray = some items ∧ List.Forall₂ IsBlock blocks items
  explanation : ((v.get "stop_details").get "explanation").asStr = none

/-! ### The events of a message -/

variable (index : ℕ)

/-- The data of a `content_block_start`. -/
structure IsStart (block : ContentBlock) (v : Json.Value) : Prop where
  index : (v.get "index").asU64 = some index
  type : (v.get "content_block").get "type" = .string block.type
  toolUse : ∀ id name input, block = .toolUse id name input →
    (v.get "content_block").get "id" = .string id ∧ (v.get "content_block").get "name" = .string name

/-- The data of a `content_block_delta` that carries a fragment of a block. Text and thinking may
also have deltas that carry neither, such as a signature. -/
inductive IsDelta (index : ℕ) : ContentBlock → String → Json.Value → Prop
  | text {t fragment : String} {v : Json.Value} (htype : (v.get "delta").get "type" = .string "text_delta")
    (htext : (v.get "delta").get "text" = .string fragment) (hthinking : (v.get "delta").get "thinking" = .null) :
    IsDelta index (.text t) fragment v
  | thinking {t fragment : String} {v : Json.Value}
    (htype : (v.get "delta").get "type" = .string "thinking_delta")
    (htext : (v.get "delta").get "text" = .null) (hthinking : (v.get "delta").get "thinking" = .string fragment) :
    IsDelta index (.thinking t) fragment v
  | other {block : ContentBlock} {type : String} {v : Json.Value} (hblock : block.toolUse? = none)
    (htype : (v.get "delta").get "type" = .string type) (hother : type ≠ "input_json_delta")
    (htext : (v.get "delta").get "text" = .null) (hthinking : (v.get "delta").get "thinking" = .null) :
    IsDelta index block "" v
  | toolUse {id name fragment : String} {input : Json.Tree .entries} {v : Json.Value}
    (hindex : (v.get "index").asU64 = some index) (htype : (v.get "delta").get "type" = .string "input_json_delta")
    (htext : (v.get "delta").get "text" = .null) (hthinking : (v.get "delta").get "thinking" = .null)
    (hjson : (v.get "delta").get "partial_json" = .string fragment) :
    IsDelta index (.toolUse id name input) fragment v

/-- The event has a name, and data that are of some form. -/
structure Carries (name : String) (P : Json.Value → Prop) (event : Event) : Prop where
  name : event.name = name
  json : ∃ v, serde.fromStr event.data = some v ∧ P v

variable {serde}

/-- The events of a block. -/
inductive BlockEvents (index : ℕ) (sent : SentBlock serde) : List Event → Prop
  | intro {start stop : Event} {deltas : List Event}
    (hstart : Carries serde "content_block_start" (IsStart index sent.block) start)
    (hdeltas : List.Forall₂ (fun fragment => Carries serde "content_block_delta" (IsDelta index sent.block fragment))
      sent.fragments deltas)
    (hstop : stop.name = "content_block_stop") : BlockEvents index sent ([start] ++ deltas ++ [stop])

/-- The events of blocks, the first of which has an index. -/
inductive BlocksEvents : ℕ → List (SentBlock serde) → List Event → Prop
  | nil {index : ℕ} : BlocksEvents index [] []
  | cons {index : ℕ} {sent : SentBlock serde} {blocks : List (SentBlock serde)} {events rest : List Event}
    (h : BlockEvents index sent events) (hrest : BlocksEvents (index + 1) blocks rest) :
    BlocksEvents index (sent :: blocks) (events ++ rest)

/-- The events of a message. -/
inductive MessageEvents (blocks : List (SentBlock serde)) : List Event → Prop
  | intro {start delta stop : Event} {events : List Event} (hstart : start.name = "message_start")
    (hblocks : BlocksEvents 0 blocks events) (hdelta : delta.name = "message_delta")
    (hstop : stop.name = "message_stop") :
    MessageEvents blocks ([start] ++ events ++ [delta, stop])

/-! ### What the JSON gives -/

variable {n : String} {v : Json.Value}

section Json

variable {bs : List ContentBlock} {xs : List Json.Value}

theorem filterMap_of_isBlock {α : Type} {f : Json.Value → Option α} {g : ContentBlock → Option α}
    (hfg : ∀ b v, IsBlock b v → f v = g b) (h : List.Forall₂ IsBlock bs xs) : xs.filterMap f = bs.filterMap g := by
  induction h with
  | nil => rfl
  | cons hb _ ih => rw [filterMap_cons, filterMap_cons, hfg _ _ hb, ih]

/-- A tool call whose input is printed and parsed once more. -/
def reread (serde : Json.Codec) (call : ToolUse) : ToolUse :=
  { call with input := parseToolArguments serde (String.ofList (serde.print call.input)) }

theorem toolUse_extractToolCalls (serde : Json.Codec) {c : Json.Value} (hc : c.asArray = some xs)
    (h : List.Forall₂ IsBlock bs xs) :
    (extractToolCalls serde c).map (WireToolCall.toolUse serde) = (bs.filterMap toolUse?).map (reread serde) := by
  rw [extractToolCalls, hc, Option.getD_some, map_map]
  clear hc
  induction h with
  | nil => rfl
  | @cons b v bs xs hb _ ih =>
    cases b with
    | text | thinking =>
      have ht : ¬((v.get "type").asStr = some "tool_use") := by
        simp [hb.type, type, asStr]
      rw [filter_cons_of_neg (by simpa using ht), filterMap_cons_none rfl, ih]
    | toolUse id n input =>
      have ht : (v.get "type").asStr = some "tool_use" := by
        rw [hb.type]
        rfl
      have hcall : (blockCall serde v).toolUse serde =
          reread serde { callId := id, toolName := n, input := .object input } := by
        obtain ⟨hid, hn, hi⟩ := hb.toolUse id n input rfl
        rw [WireToolCall.toolUse, blockCall, hid, hn, hi]
        rfl
      rw [filter_cons_of_pos (by simpa using ht), map_cons, ih, Function.comp_apply, hcall]
      rfl

/-- **What `complete` returns** for a message. -/
theorem messageOf_spec (serde : Json.Codec) {r : Json.Value} (h : IsMessage bs r) :
    (messageOf serde r).toolCalls = (bs.filterMap toolUse?).map (reread serde) ∧
      (messageOf serde r).reasoningContent = nonEmpty? (String.join (bs.filterMap thinking?)) ∧
      (messageOf serde r).text =
        if bs.filterMap toolUse? = [] then nonEmpty? (String.join (bs.filterMap text?))
        else none := by
  obtain ⟨xs, hi, hb⟩ := h.content
  have hc := toolUse_extractToolCalls serde hi hb
  have htx : joinField "text" xs = String.join (bs.filterMap text?) :=
    congrArg String.join (filterMap_of_isBlock (fun _ _ h => h.text) hb)
  have ht : joinField "thinking" xs = String.join (bs.filterMap thinking?) :=
    congrArg String.join (filterMap_of_isBlock (fun _ _ h => h.thinking) hb)
  refine ⟨hc, ?_, ?_⟩
  · rw [messageOf, hi, Option.bind_some, ht]
  · rw [messageOf, hc, responseText, hi, Option.bind_some, htx, h.explanation, Option.bind_none, Option.or_none]
    simp only [map_eq_nil_iff]

end Json

/-! ### What the events give -/

/-- A tool of a message, with the index of its block. -/
structure SentTool (serde : Json.Codec) where
  index : ℕ
  id : String
  name : String
  input : Json.Tree .entries
  fragments : List String
  reads : serde.fromStr (trim (String.join fragments).toList) = some (.object input)

namespace SentTool

/-- The tool call that is meant. -/
def toolUse (tool : SentTool serde) : ToolUse :=
  { callId := tool.id, toolName := tool.name, input := .object tool.input }

def startDelta (id name : String) : WireToolCallDelta where
  index := index % 2 ^ 32
  id := some id
  function := some (some name, none)

def inputDelta (fragment : String) : WireToolCallDelta where
  index := index % 2 ^ 32
  id := none
  function := some (none, some fragment)

def deltas (tool : SentTool serde) : List WireToolCallDelta :=
  startDelta tool.index tool.id tool.name :: tool.fragments.map (inputDelta tool.index)

end SentTool

def SentBlock.tool? : SentBlock serde → Option (SentTool serde)
  | ⟨.toolUse id name input, fragments, splits⟩ => some ⟨index, id, name, input, fragments, splits⟩
  | _ => none

/-- The tools among blocks, the first of which has an index. -/
def sentTools : ℕ → List (SentBlock serde) → List (SentTool serde)
  | _, [] => []
  | index, sent :: blocks => (sent.tool? index).toList ++ sentTools (index + 1) blocks

/-- What events give, all together. -/
structure Gives (serde : Json.Codec) (events : List Event) (text reasoning : String)
    (deltas : List WireToolCallDelta) : Prop where
  text : String.join (events.map (Event.content serde)) = text
  reasoning : String.join (events.map (Event.reasoning serde)) = reasoning
  toolCalls : events.flatMap (Event.toolCalls serde) = deltas

variable {es : List Event}

namespace Gives

variable {ev en : List Event} {t tx r rs : String} {d dl : List WireToolCallDelta}

theorem nil : Gives serde [] "" "" [] := ⟨rfl, rfl, rfl⟩

theorem append (h₁ : Gives serde ev t r d) (h₂ : Gives serde en tx rs dl) :
    Gives serde (ev ++ en) (t ++ tx) (r ++ rs) (d ++ dl) := by
  constructor
  · rw [map_append, String.join_append, h₁.text, h₂.text]
  · rw [map_append, String.join_append, h₁.reasoning, h₂.reasoning]
  · rw [flatMap_append, h₁.toolCalls, h₂.toolCalls]

theorem of_part {e : Event} {p : StreamPart} (h : e.part serde = p) :
    Gives serde [e] (p.content.getD "") (p.reasoning.getD "") (p.toolCalls.getD []) := by
  subst h
  constructor
  · simp [Event.content]
  · simp [Event.reasoning]
  · simp [Event.toolCalls]

theorem of_forall₂ {R : String → Event → Prop} {fs : List String} {te re : String → String}
    {ds : String → List WireToolCallDelta} (hs : ∀ f e, R f e → Gives serde [e] (te f) (re f) (ds f))
    (h : List.Forall₂ R fs es) :
    Gives serde es (String.join (fs.map te)) (String.join (fs.map re)) (fs.flatMap ds) := by
  induction h with
  | nil => exact nil
  | cons hf _ ih =>
    rw [map_cons, map_cons, String.join_cons, String.join_cons, flatMap_cons]
    exact (hs _ _ hf).append ih

end Gives

variable {e : Event} {index : ℕ}

theorem part_of_carries {P : Json.Value → Prop} (h : Carries serde n P e) :
    ∃ v, P v ∧ e.part serde = (part (some n) v).getD {} := by
  obtain ⟨v, hv, hP⟩ := h.json
  refine ⟨v, hP, ?_⟩
  rw [Event.part, hv, h.name]
  rfl

/-- The other events of a message give nothing. -/
theorem gives_of_name
    (h : e.name ∈ ["message_start", "content_block_stop", "message_delta", "message_stop"]) :
    Gives serde [e] "" "" [] := by
  cases hj : serde.fromStr e.data with
  | none =>
    have hp : e.part serde = {} := by
      rw [Event.part, hj]
      rfl
    exact Gives.of_part hp
  | some v =>
    have hp : e.part serde = (part (some e.name) v).getD {} := by
      rw [Event.part, hj]
      rfl
    simp only [mem_cons, not_mem_nil, or_false] at h
    rcases h with h | h | h | h
    all_goals
      rw [h] at hp
      exact Gives.of_part hp

theorem blockIndex_of_get (h : (v.get "index").asU64 = some index) : blockIndex v = index % 2 ^ 32 := by
  rw [blockIndex, count, h, Option.getD_some]

/-! ### What a block gives -/

namespace ContentBlock

def textOf : ContentBlock → String → String
  | text _, fragment => fragment
  | _, _ => ""

def thinkingOf : ContentBlock → String → String
  | thinking _, fragment => fragment
  | _, _ => ""

def inputOf (index : ℕ) : ContentBlock → String → List WireToolCallDelta
  | toolUse _ _ _, fragment => [SentTool.inputDelta index fragment]
  | _, _ => []

def startOf (index : ℕ) : ContentBlock → List WireToolCallDelta
  | toolUse id name _ => [SentTool.startDelta index id name]
  | _ => []

end ContentBlock

theorem gives_start {b : ContentBlock}
    (h : Carries serde "content_block_start" (IsStart index b) e) : Gives serde [e] "" "" (b.startOf index) := by
  obtain ⟨v, hs, hpr⟩ := part_of_carries h
  cases b with
  | text | thinking =>
    have hp : part (some "content_block_start") v = some {} := by
      simp [part, hs.type, type, asStr]
    rw [hp] at hpr
    exact Gives.of_part hpr
  | toolUse id name i =>
    obtain ⟨hid, hn⟩ := hs.toolUse id name i rfl
    have hc : startCall v = SentTool.startDelta index id name := by
      rw [startCall, blockIndex_of_get hs.index, hid, hn]
      rfl
    have hp : part (some "content_block_start") v =
        some { toolCalls := some [SentTool.startDelta index id name] } := by
      simp [part, hs.type, type, asStr, hc]
    rw [hp] at hpr
    exact Gives.of_part hpr

theorem gives_delta {b : ContentBlock} {fragment : String}
    (h : Carries serde "content_block_delta" (IsDelta index b fragment) e) :
    Gives serde [e] (b.textOf fragment) (b.thinkingOf fragment) (b.inputOf index fragment) := by
  obtain ⟨v, hd, hpr⟩ := part_of_carries h
  cases hd with
  | text hty htx ht =>
    have hp : part (some "content_block_delta") v = some { content := some fragment } := by
      simp [part, hty, htx, ht, asStr]
    rw [hp] at hpr
    exact Gives.of_part hpr
  | thinking hty htx ht =>
    have hp : part (some "content_block_delta") v = some { reasoning := some fragment } := by
      simp [part, hty, htx, ht, asStr]
    rw [hp] at hpr
    exact Gives.of_part hpr
  | other hb hty ho htx ht =>
    have hp : part (some "content_block_delta") v = some {} := by
      simp [part, hty, htx, ht, asStr, ho]
    rw [hp] at hpr
    have hg := Gives.of_part hpr
    cases b with
    | text | thinking => exact hg
    | toolUse => cases hb
  | toolUse hi hty htx ht hj =>
    have hc : deltaCall v = SentTool.inputDelta index fragment := by
      rw [deltaCall, blockIndex_of_get hi, hj]
      rfl
    have hp : part (some "content_block_delta") v =
        some { toolCalls := some [SentTool.inputDelta index fragment] } := by
      simp [part, hty, htx, ht, asStr, hc]
    rw [hp] at hpr
    exact Gives.of_part hpr

theorem join_map_empty (fs : List String) : String.join (fs.map fun _ => "") = "" := by
  induction fs with
  | nil => rfl
  | cons _ _ ih => rw [map_cons, String.join_cons, ih, String.empty_append]

/-- **The events of a block give its content**, or its tool call. -/
theorem gives_block {s : SentBlock serde} (h : BlockEvents index s es) :
    Gives serde es (s.block.text?.getD "") (s.block.thinking?.getD "")
      ((s.tool? index).toList.flatMap SentTool.deltas) := by
  obtain @⟨sr, st, deltas, hs, hd, hst⟩ := h
  have hm : Gives serde deltas (String.join (s.fragments.map s.block.textOf))
      (String.join (s.fragments.map s.block.thinkingOf)) (s.fragments.flatMap (s.block.inputOf index)) :=
    Gives.of_forall₂ (fun _ _ h => gives_delta h) hd
  have he : Gives serde [st] "" "" [] := gives_of_name (by rw [hst]; decide)
  have ha := ((gives_start hs).append hm).append he
  rw [String.empty_append, String.empty_append, String.append_empty, String.append_empty, append_nil] at ha
  obtain ⟨block, fs, ss⟩ := s
  cases block with
  | text t =>
    have ho : String.join (fs.map (text t).textOf) = t := by
      rw [← ss]
      exact congrArg String.join (map_id fs)
    have hn : fs.flatMap ((text t).inputOf index) = [] := flatMap_eq_nil_iff.mpr fun _ _ => rfl
    exact ⟨ha.text.trans ho, ha.reasoning.trans (join_map_empty fs), ha.toolCalls.trans hn⟩
  | thinking t =>
    have ho : String.join (fs.map (thinking t).thinkingOf) = t := by
      rw [← ss]
      exact congrArg String.join (map_id fs)
    have hn : fs.flatMap ((thinking t).inputOf index) = [] :=
      flatMap_eq_nil_iff.mpr fun _ _ => rfl
    exact ⟨ha.text.trans (join_map_empty fs), ha.reasoning.trans ho, ha.toolCalls.trans hn⟩
  | toolUse id n i =>
    have hi : fs.flatMap ((toolUse id n i).inputOf index) =
        fs.map (SentTool.inputDelta index) := flatMap_pure_eq_map _ fs
    refine ⟨ha.text.trans (join_map_empty fs), ha.reasoning.trans (join_map_empty fs), ?_⟩
    rw [ha.toolCalls, hi]
    exact (append_nil _).symm

theorem getD_join {α : Type} (f : α → Option String) (as : List α) :
    String.join (as.filterMap f) = String.join (as.map fun a => (f a).getD "") := by
  induction as with
  | nil => rfl
  | cons a as ih =>
    rw [map_cons, String.join_cons, ← ih]
    cases h : f a with
    | none => rw [filterMap_cons_none h, Option.getD_none, String.empty_append]
    | some => rw [filterMap_cons_some h, Option.getD_some, String.join_cons]

theorem gives_blocks {bs : List (SentBlock serde)} (h : BlocksEvents index bs es) :
    Gives serde es (String.join ((bs.map block).filterMap text?))
      (String.join ((bs.map block).filterMap thinking?))
      ((sentTools index bs).flatMap SentTool.deltas) := by
  simp only [getD_join, map_map]
  induction h with
  | nil => exact Gives.nil
  | cons hb _ ih =>
    rw [map_cons, map_cons, String.join_cons, String.join_cons, sentTools, flatMap_append]
    exact (gives_block hb).append ih

/-- **The events of a message give its text, its thinking and the deltas of its tools.** -/
theorem gives_message {bs : List (SentBlock serde)} (h : MessageEvents bs es) :
    Gives serde es (String.join ((bs.map block).filterMap text?))
      (String.join ((bs.map block).filterMap thinking?))
      ((sentTools 0 bs).flatMap SentTool.deltas) := by
  obtain @⟨s, d, st, es, hs, hb, hd, hst⟩ := h
  have hf : Gives serde [s] "" "" [] := gives_of_name (by rw [hs]; decide)
  have hl : Gives serde [d, st] "" "" [] :=
    (gives_of_name (by rw [hd]; decide)).append (gives_of_name (by rw [hst]; decide))
  have ha := (hf.append (gives_blocks hb)).append hl
  rwa [String.empty_append, String.empty_append, String.append_empty, String.append_empty,
    append_nil, nil_append] at ha

/-! ### The tool calls of the stream -/

namespace SentTool

theorem index_of_mem_deltas {t : SentTool serde} {d : WireToolCallDelta} (h : d ∈ t.deltas) :
    d.index = t.index % 2 ^ 32 := by
  rcases mem_cons.mp h with rfl | h
  · rfl
  · obtain ⟨f, -, rfl⟩ := mem_map.mp h
    rfl

theorem foldl_inputDelta (index : ℕ) (fragments : List String) (call : WireToolCall) :
    (fragments.map (inputDelta index)).foldl (fun call d => d.change call) call =
      { call with arguments := call.arguments ++ String.join fragments } := by
  induction fragments generalizing call with
  | nil => simp
  | cons f fragments ih =>
    rw [map_cons, foldl_cons, ih, String.join_cons]
    simp [WireToolCallDelta.change, inputDelta, String.append_assoc]

/-- A slot that only one tool has is its tool call. -/
theorem toolUse_foldl_deltas (hserde : Lawful serde) (t : SentTool serde) :
    (t.deltas.foldl (fun c d => d.change c) blankCall).toolUse serde = t.toolUse := by
  have hs : (startDelta t.index t.id t.name).change blankCall = { id := t.id, name := t.name, arguments := "" } := by
    have hid := getD_filter_ne_empty t.id
    have hn := getD_filter_ne_empty t.name
    simp only [WireToolCallDelta.change, startDelta, blankCall, Option.getD_some, Option.getD_none,
      String.append_empty]
    rw [hid, hn]
  rw [deltas, foldl_cons, hs, foldl_inputDelta, WireToolCall.toolUse, String.empty_append,
    parseToolArguments_of_fromStr hserde t.reads (by simp), toolUse]

end SentTool

/-- The tool calls that the deltas of tools make. -/
def streamedCalls (tools : List (SentTool serde)) : List WireToolCall :=
  fill blankCall WireToolCallDelta.index WireToolCallDelta.change [] (tools.flatMap SentTool.deltas)

section Slots

variable {ts : List (SentTool serde)} {bs : List (SentBlock serde)}

theorem deltas_ne_nil (t : SentTool serde) : t.deltas ≠ [] := cons_ne_nil _ _

/-- The indices are those of the blocks. -/
theorem index_sentTools (index : ℕ) (bs : List (SentBlock serde)) :
    ((sentTools index bs).map SentTool.index).Pairwise (· < ·) ∧
      ∀ t ∈ sentTools index bs, index ≤ t.index ∧ t.index < index + bs.length := by
  induction bs generalizing index with
  | nil => exact ⟨.nil, fun _ h => by cases h⟩
  | cons s bs ih =>
    obtain ⟨hs, hr⟩ := ih (index + 1)
    have hr : ∀ t ∈ sentTools (index + 1) bs, index < t.index ∧ t.index < index + (bs.length + 1) := by
      intro t ht
      have := hr t ht
      omega
    obtain ⟨block, fs, ss⟩ := s
    cases block with
    | text | thinking => exact ⟨hs, fun t ht => ⟨(hr t ht).1.le, (hr t ht).2⟩⟩
    | toolUse =>
      refine ⟨pairwise_cons.mpr ⟨?_, hs⟩, forall_mem_cons.mpr ⟨⟨le_rfl, by simp⟩, fun t ht => ?_⟩⟩
      · intro i hi
        obtain ⟨t, ht, rfl⟩ := mem_map.mp hi
        exact (hr t ht).1
      · exact ⟨(hr t ht).1.le, (hr t ht).2⟩

/-- The numbers are the indices, in a message that is not too long. -/
theorem mod_index (hcount : bs.length ≤ 2 ^ 32) {t : SentTool serde} (ht : t ∈ sentTools 0 bs) :
    t.index % 2 ^ 32 = t.index := by
  have hlt := ((index_sentTools 0 bs).2 t ht).2
  exact Nat.mod_eq_of_lt (by omega)

/-- Tools whose blocks come first, in order, have their own calls. -/
theorem toolUse_streamedCalls (hserde : Lawful serde)
    (h : (ts.map fun t => t.index % 2 ^ 32) = range ts.length) :
    (streamedCalls ts).map (WireToolCall.toolUse serde) = ts.map SentTool.toolUse := by
  rw [streamedCalls, fill_flatMap (fun t _ => deltas_ne_nil t)
    (fun _ _ _ => SentTool.index_of_mem_deltas) h, map_map]
  apply map_congr_left
  intro t _
  exact t.toolUse_foldl_deltas hserde

/-- If there are as many calls as tools, the tools come first. -/
theorem index_eq_range (hcount : bs.length ≤ 2 ^ 32)
    (hl : (streamedCalls (sentTools 0 bs)).length = (sentTools 0 bs).length) :
    (sentTools 0 bs).map SentTool.index = range (sentTools 0 bs).length := by
  have hs := (index_sentTools 0 bs).1
  have hlt : (sentTools 0 bs).map SentTool.index ⊆ range (sentTools 0 bs).length := by
    intro i hi
    obtain ⟨t, ht, rfl⟩ := mem_map.mp hi
    rw [mem_range, ← hl, ← mod_index hcount ht]
    apply (lt_length_fill _ _ _).mpr
    exact .inr ⟨_, mem_flatMap.mpr ⟨t, ht, mem_cons_self⟩, Nat.le_refl _⟩
  have hp : ((sentTools 0 bs).map SentTool.index).Perm (range (sentTools 0 bs).length) :=
    (subperm_of_subset (hs.imp Nat.ne_of_lt) hlt).perm_of_length_le (by simp)
  exact hp.eq_of_pairwise (fun _ _ _ _ h h' => absurd h (Nat.lt_asymm h')) hs pairwise_lt_range

end Slots

/-! ### Agreement -/

/-- The messages have the same text, reasoning and tool calls. -/
structure Agree (whole streamed : AssistantMessage) : Prop where
  text : whole.text = streamed.text
  reasoningContent : whole.reasoningContent = streamed.reasoningContent
  toolCalls : whole.toolCalls = streamed.toolCalls

/-- A message with tools has no text, the index of the block of each tool is the tool's number, and
inputs are read back. -/
structure StreamsAlike (blocks : List (SentBlock serde)) : Prop where
  noText : sentTools 0 blocks ≠ [] → String.join ((blocks.map block).filterMap text?) = ""
  inPlace : (sentTools 0 blocks).map SentTool.index = List.range (sentTools 0 blocks).length
  readsBack : ∀ tool ∈ sentTools 0 blocks, serde.ReadsBack (.object tool.input)

theorem toolUse_sentTools (index : ℕ) (bs : List (SentBlock serde)) :
    (sentTools index bs).map SentTool.toolUse = (bs.map block).filterMap toolUse? := by
  induction bs generalizing index with
  | nil => rfl
  | cons s bs ih =>
    rw [sentTools, map_append, ih, map_cons]
    obtain ⟨block, fs, ss⟩ := s
    cases block with
    | text | thinking => rfl
    | toolUse => rfl

/-- **What `complete_stream` returns** for a message. -/
theorem completeStream_spec {bs : List (SentBlock serde)} {ps : List (List UInt8)}
    (he : MessageEvents bs es) (hl : bodyLines ps = es.flatMap Event.lines) :
    ∃ s, completeStream serde (.stream ps .ended) = .ok s ∧
      s.toolCalls = (streamedCalls (sentTools 0 bs)).map (WireToolCall.toolUse serde) ∧
      s.reasoningContent = nonEmpty? (String.join ((bs.map block).filterMap thinking?)) ∧
      s.text = nonEmpty? (String.join ((bs.map block).filterMap text?)) := by
  have hgn := gain_events serde {} es
  have hg := gives_message he
  rw [hg.text, hg.reasoning, hg.toolCalls, ← hl] at hgn
  refine ⟨_, completeStream_ended serde ps, ?_, ?_, ?_⟩
  · rw [Received.message, hgn.toolCalls]
    rfl
  · rw [Received.message, hgn.reasoning, String.empty_append]
  · rw [Received.message, hgn.text, String.empty_append]

/-- Calls are the same after printing and parsing exactly if the inputs are read back. -/
theorem map_reread_eq_self_iff (hserde : Lawful serde) (ts : List (SentTool serde)) :
    (ts.map SentTool.toolUse).map (reread serde) = ts.map SentTool.toolUse ↔
      ∀ t ∈ ts, serde.ReadsBack (.object t.input) := by
  rw [map_map, map_inj_left]
  refine forall₂_congr fun t _ => ?_
  have hp := parseToolArguments_print_iff hserde (.object t.input)
  simp only [ne_eq, reduceCtorEq, not_false_eq_true, implies_true, and_true] at hp
  rw [← hp, Function.comp_apply, reread, SentTool.toolUse, ToolUse.mk.injEq]
  simp

/-- **When stream and JSON agree**: `complete` and `complete_stream` return the same text, reasoning
and tool calls for a message exactly if the message has no tools, or has no text, its tools come
first and their inputs are read back. -/
theorem stream_agrees_iff (hserde : Lawful serde) {blocks : List (SentBlock serde)} (hcount : blocks.length ≤ 2 ^ 32)
    {body : List Char} {response : Json.Value} {events : List Event} {pieces : List (List UInt8)}
    (hbody : serde.fromStr body = some response) (hmessage : IsMessage (blocks.map block) response)
    (hevents : MessageEvents blocks events) (hlines : bodyLines pieces = events.flatMap Event.lines)
    (unreadable : LlmError) :
    (∃ whole streamed, complete serde unreadable (.ok body) = .ok whole ∧
      completeStream serde (.stream pieces .ended) = .ok streamed ∧ Agree whole streamed) ↔ StreamsAlike blocks := by
  obtain ⟨hw, hwr, hwt⟩ := messageOf_spec serde hmessage
  obtain ⟨streamed, hs, hc, hr, ht⟩ := completeStream_spec hevents hlines
  have hwh : complete serde unreadable (.ok body) = .ok (messageOf serde response) := by
    simp [complete, hbody, bind, Except.bind]
  rw [← toolUse_sentTools 0 blocks] at hw hwt
  have hmod : (sentTools 0 blocks).map (fun t => t.index % 2 ^ 32) = (sentTools 0 blocks).map SentTool.index :=
    map_congr_left fun t ht => mod_index hcount ht
  constructor
  · rintro ⟨whole, s', hw', hs', ha⟩
    rw [hwh] at hw'
    rw [hs] at hs'
    cases hw'
    cases hs'
    have hcalls := ha.toolCalls
    rw [hw, hc] at hcalls
    have hp := index_eq_range hcount (by simpa using (congrArg length hcalls).symm)
    refine ⟨?_, hp, ?_⟩
    · intro hne
      have hsm := ha.text
      rw [hwt, if_neg (by simpa using hne), ht] at hsm
      rw [← getD_nonEmpty? (String.join _), ← hsm]
      rfl
    · rw [toolUse_streamedCalls hserde (hmod.trans hp)] at hcalls
      exact (map_reread_eq_self_iff hserde _).mp hcalls
  · intro hal
    refine ⟨_, streamed, hwh, hs, ?_, ?_, ?_⟩
    · rw [hwt, ht]
      by_cases hn : sentTools 0 blocks = []
      · rw [if_pos (by simpa using hn)]
      · rw [if_neg (by simpa using hn), hal.noText hn]
        rfl
    · rw [hwr, hr]
    · rw [hw, hc, toolUse_streamedCalls hserde (hmod.trans hal.inPlace)]
      exact (map_reread_eq_self_iff hserde _).mpr hal.readsBack

/-! ### Two messages -/

abbrev JsonText := String × Json.Value

def noText : JsonText := ("\x7b\x7d", record [])

/-- The block of a call of a tool without arguments. -/
def toolText : JsonText :=
  ("\x7b\"id\":\"t1\",\"input\":\x7b\x7d,\"name\":\"list\",\"type\":\"tool_use\"\x7d",
    record [("id", .string "t1"), ("input", record []), ("name", .string "list"), ("type", .string "tool_use")])

def inputText : JsonText :=
  ("\x7b\"partial_json\":\"\x7b\x7d\",\"type\":\"input_json_delta\"\x7d",
    record [("partial_json", .string "\x7b\x7d"), ("type", .string "input_json_delta")])

def hiText (type : String) : JsonText :=
  ("\x7b\"text\":\"Hi\",\"type\":\"" ++ type ++ "\"\x7d", record [("text", .string "Hi"), ("type", .string type)])

def messageText (blocks : List JsonText) : JsonText :=
  ("\x7b\"content\":[" ++ ",".intercalate (blocks.map Prod.fst) ++ "]\x7d",
    record [("content", .array (ofList (blocks.map Prod.snd)))])

def blockText (index : JsonText) (key : String) (block : JsonText) : JsonText :=
  ("\x7b\"" ++ key ++ "\":" ++ block.1 ++ ",\"index\":" ++ index.1 ++ "\x7d",
    record [(key, block.2), ("index", index.2)])

def zeroText : JsonText := ("0", .number (.posInt 0))

def oneText : JsonText := ("1", .number (.posInt 1))

/-- All that is sent in the two messages. -/
def sentTexts : List JsonText :=
  [("null", .null), noText, messageText [toolText], messageText [hiText "text", toolText],
    blockText zeroText "content_block" toolText, blockText zeroText "delta" inputText,
    blockText oneText "content_block" toolText, blockText oneText "delta" inputText,
    blockText zeroText "content_block" (hiText "text"), blockText zeroText "delta" (hiText "text_delta")]

def sentSerde : Json.Codec := .ofTable sentTexts

theorem nodup_sentTexts : (sentTexts.map Prod.fst).Nodup := by decide +kernel

theorem lawful_sentSerde : Lawful sentSerde :=
  lawful_ofTable (by decide +kernel) nodup_sentTexts (by decide +kernel)

def listTool : SentBlock sentSerde where
  block := .toolUse "t1" "list" .noEntries
  fragments := ["\x7b\x7d"]
  splits := by
    rw [Splits]
    decide +kernel

def greeting : SentBlock sentSerde where
  block := .text "Hi"
  fragments := ["Hi"]
  splits := by
    rw [Splits]
    decide +kernel

def eventOf (name : String) (text : JsonText) : Event := { name, data := text.1.toList }

theorem carries_eventOf {P : Json.Value → Prop} {text : JsonText} (ht : text ∈ sentTexts) (hv : P text.2) :
    Carries sentSerde n P (eventOf n text) :=
  ⟨rfl, text.2, Json.Codec.fromStr_ofTable nodup_sentTexts ht, hv⟩

/-- The events of a block that is sent in one fragment. -/
def blockEvents (index start delta : JsonText) : List Event :=
  [eventOf "content_block_start" (blockText index "content_block" start)] ++
    [eventOf "content_block_delta" (blockText index "delta" delta)] ++ [eventOf "content_block_stop" noText]

theorem blockEvents_listTool {index : ℕ} {text : JsonText} (hi : (text, index) ∈ [(zeroText, 0), (oneText, 1)]) :
    BlockEvents index listTool (blockEvents text toolText inputText) := by
  simp only [mem_cons, Prod.mk.injEq, not_mem_nil, or_false] at hi
  rcases hi with ⟨rfl, rfl⟩ | ⟨rfl, rfl⟩
  all_goals
    refine .intro (carries_eventOf (by simp [sentTexts]) ⟨rfl, rfl, fun _ _ _ h => ?_⟩)
      (.cons (carries_eventOf (by simp [sentTexts]) (.toolUse rfl rfl rfl rfl rfl)) .nil) rfl
    cases h
    exact ⟨rfl, rfl⟩

theorem blockEvents_greeting :
    BlockEvents 0 greeting (blockEvents zeroText (hiText "text") (hiText "text_delta")) :=
  .intro (carries_eventOf (by simp [sentTexts]) ⟨rfl, rfl, fun _ _ _ h => by cases h⟩)
    (.cons (carries_eventOf (by simp [sentTexts]) (.text rfl rfl rfl)) .nil) rfl

def eventsOf (events : List Event) : List Event :=
  [eventOf "message_start" noText] ++ events ++ [eventOf "message_delta" noText, eventOf "message_stop" noText]

def bodyOf (events : List Event) : List UInt8 :=
  utf8Encode ((events.flatMap Event.lines).flatMap fun line => line ++ ['\n'])

def toolEvents : List Event := eventsOf (blockEvents zeroText toolText inputText ++ [])

def greetingEvents : List Event :=
  eventsOf (blockEvents zeroText (hiText "text")
    (hiText "text_delta") ++ (blockEvents oneText toolText inputText ++ []))

theorem isBlock_toolText : IsBlock listTool.block toolText.2 := by
  refine ⟨rfl, rfl, rfl, fun id n i h => ?_⟩
  cases h
  exact ⟨rfl, rfl, rfl⟩

theorem isBlock_hiText : IsBlock greeting.block (hiText "text").2 := ⟨rfl, rfl, rfl, fun _ _ _ h => by cases h⟩

theorem stream_agrees_tool :
    ∃ whole streamed, complete sentSerde .timeout (.ok (messageText [toolText]).1.toList) = .ok whole ∧
      completeStream sentSerde (.stream [bodyOf toolEvents] .ended) = .ok streamed ∧ Agree whole streamed := by
  have hb : sentSerde.fromStr (messageText [toolText]).1.toList = some (messageText [toolText]).2 :=
    Json.Codec.fromStr_ofTable nodup_sentTexts (by simp [sentTexts])
  have hm : IsMessage ([listTool].map block) (messageText [toolText]).2 :=
    ⟨⟨[toolText.2], rfl, .cons isBlock_toolText .nil⟩, rfl⟩
  have he : MessageEvents [listTool] toolEvents := .intro rfl (.cons (blockEvents_listTool (by simp)) .nil) rfl rfl
  have hl : bodyLines [bodyOf toolEvents] = toolEvents.flatMap Event.lines := by decide +kernel
  refine (stream_agrees_iff lawful_sentSerde (by simp) hb hm he hl .timeout).mpr ⟨fun _ => rfl, rfl, ?_⟩
  intro tool ht
  cases mem_singleton.mp ht
  exact Json.Codec.readsBack_ofTable nodup_sentTexts (by decide +kernel)

/-- **Text before a tool**: the stream keeps the text that `complete` drops, and has a call with
neither id nor name. -/
theorem text_before_tool_disagrees :
    IsMessage ([greeting, listTool].map block) (messageText [hiText "text", toolText]).2 ∧
      (complete sentSerde .timeout (.ok (messageText [hiText "text", toolText]).1.toList)).toOption.map
        (fun message => (message.text, message.toolCalls)) =
        some (none, [{ callId := "t1", toolName := "list", input := .object .noEntries }]) ∧
      MessageEvents [greeting, listTool] greetingEvents ∧
      bodyLines [bodyOf greetingEvents] = greetingEvents.flatMap Event.lines ∧
      (completeStream sentSerde (.stream [bodyOf greetingEvents] .ended)).toOption.map
        (fun message => (message.text, message.toolCalls)) =
        some (some "Hi", [{ callId := "", toolName := "", input := .null },
          { callId := "t1", toolName := "list", input := .object .noEntries }]) := by
  refine ⟨⟨⟨[(hiText "text").2, toolText.2], rfl, .cons isBlock_hiText (.cons isBlock_toolText .nil)⟩, rfl⟩,
    ?_, .intro rfl (.cons blockEvents_greeting (.cons (blockEvents_listTool (by simp)) .nil)) rfl rfl, ?_, ?_⟩
  · decide +kernel
  · decide +kernel
  · decide +kernel

end XiaoO.LlmClient.Anthropic
