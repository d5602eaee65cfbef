import XiaoO.Base.Text
import Mathlib.Data.List.Sort
import Mathlib.Data.String.Basic

/-!
# Hook points

A hooker is registered under a pattern of segments with dots between them
(`hook/src/framework/registry`), and it is called at every hook point that has as many segments and
matches each, where `*` matches any segment.

Three places fire hook points. A tool call (`build_tool_hook_point`) escapes the agent id and the
name of the tool, so that its points have four segments. The calls of a model
(`build_llm_hook_point`) and the chat hooks of the agent loop (`chat_agent_segment`) put the agent
id into the point as it is.

## What is proved

The hookers of all agents and tools are called at every point of a tool, and at those of a model or
a chat exactly if the agent id has no dot (`wildcard_covers_iff`). An agent whose id has one is not
covered by a hooker for all agents (`dotted_agent_escapes_wildcard`). The category of a tool's point
is that of its stage (`resolve_toolHookPoint`).
-/

namespace XiaoO.Hook

open XiaoO.Base List

/-! ### Matching -/

/-- The parts of a text between dots. -/
def segments (point : String) : List (List Char) := point.toList.splitOn '.'

def hookPointMatches (pattern candidate : String) : Bool :=
  (segments pattern).length = (segments candidate).length &&
    ((segments pattern).zip (segments candidate)).all fun (p, c) => p = c || p = ['*']

/-- A `Hooker`, with what it does when it is invoked. -/
structure Hooker (ω : Type*) where
  id : String
  hookPoint : String
  invoke : ω

/-- `HookerRegistryImpl`: the hookers, in the order in which the map gives them, and the ids of
those that are enabled. -/
structure HookerRegistry (ω : Type*) where
  hookers : List (Hooker ω)
  enabledHookers : List String

namespace HookerRegistry

variable {ω : Type*} (registry : HookerRegistry ω)

def listForHookPoint (hookPoint : String) : List (Hooker ω) :=
  registry.hookers.filter fun hooker => hookPointMatches hooker.hookPoint hookPoint

def isEnabled (id : String) : Bool := registry.enabledHookers.contains id

/-- The hookers that are run at a point: those that are enabled, in the order of their ids. -/
def enabledHookersFor (hookPoint : String) : List (Hooker ω) :=
  ((registry.listForHookPoint hookPoint).filter fun hooker => registry.isEnabled hooker.id).insertionSort
    fun left right => left.id ≤ right.id

end HookerRegistry

/-! ### Points -/

def escapeHookPointSegment (segment : String) : String := replaceChar '.' "%2E" (replaceChar '%' "%25" segment)

inductive Stage where
  | pre
  | post
  | error
  deriving DecidableEq

def Stage.text : Stage → String
  | .pre => "pre"
  | .post => "post"
  | .error => "error"

/-- `build_tool_hook_point`. -/
def toolHookPoint (agentId toolName : String) (stage : Stage) : String :=
  escapeHookPointSegment agentId ++ ".Tool." ++ escapeHookPointSegment toolName ++ "." ++ stage.text

/-- `build_llm_hook_point`, of a wrapper with an agent id. -/
def llmHookPoint (agentId : String) (stage : Stage) : String := agentId ++ ".Llm.complete." ++ stage.text

def chatAgentSegment (agentId : Option String) : String := agentId.getD "anonymous"

/-- The hooks of the agent loop. -/
inductive ChatHook where
  /-- `run_chat_system_transform_sequence`. -/
  | systemTransform
  /-- `run_chat_message_hook`. -/
  | messageReceived
  /-- `run_command_execute_before_hook`. -/
  | commandBefore
  deriving DecidableEq

def ChatHook.text : ChatHook → String
  | .systemTransform => "Chat.system.transform"
  | .messageReceived => "Chat.message.received"
  | .commandBefore => "Chat.command.before"

def chatHookPoint (agentId : Option String) (hook : ChatHook) : String :=
    chatAgentSegment agentId ++ "." ++ hook.text

inductive Fired where
  | tool (agentId toolName : String) (stage : Stage)
  | llm (agentId : String) (stage : Stage)
  | chat (agentId : Option String) (hook : ChatHook)

namespace Fired

def hookPoint : Fired → String
  | tool agentId toolName stage => toolHookPoint agentId toolName stage
  | llm agentId stage => llmHookPoint agentId stage
  | chat agentId hook => chatHookPoint agentId hook

/-- The pattern for all agents and tools, with the other segments of the point. -/
def wildcard : Fired → String
  | tool _ _ stage => "*.Tool.*." ++ stage.text
  | llm _ stage => "*.Llm.complete." ++ stage.text
  | chat _ hook => "*." ++ hook.text

/-- The agent id, where it is put into the point as it is, has no dot. -/
def Undotted : Fired → Prop
  | tool _ _ _ => True
  | llm agentId _ => '.' ∉ agentId.toList
  | chat agentId _ => '.' ∉ (chatAgentSegment agentId).toList

end Fired

/-! ### Categories -/

inductive HookPointCategory where
  | toolPre
  | toolPost
  | toolError
  | llmPre
  | llmPost
  | llmError
  | sessionCreated
  | sessionClosed
  | sessionState
  | chatSystemTransform
  | chatMessage
  | commandExecuteBefore
  deriving DecidableEq

def HookPointCategory.debug : HookPointCategory → String
  | .toolPre => "ToolPre"
  | .toolPost => "ToolPost"
  | .toolError => "ToolError"
  | .llmPre => "LlmPre"
  | .llmPost => "LlmPost"
  | .llmError => "LlmError"
  | .sessionCreated => "SessionCreated"
  | .sessionClosed => "SessionClosed"
  | .sessionState => "SessionState"
  | .chatSystemTransform => "ChatSystemTransform"
  | .chatMessage => "ChatMessage"
  | .commandExecuteBefore => "CommandExecuteBefore"

/-- `str::to_lowercase`, of ASCII letters. -/
def lowercase (s : List Char) : String := String.ofList (s.map Char.toLower)

/-- `resolve_hook_point_category`, with the message of the error. -/
def resolveHookPointCategory (hookPoint : String) : Except String HookPointCategory :=
  match segments hookPoint with
  | [_, action, _, stage] =>
    if action.all isWhitespace ∨ stage.all isWhitespace then
      .error ("hook_point action/stage segments must not be empty: " ++ hookPoint)
    else
      match lowercase action, lowercase stage with
      | "tool", "pre" => .ok .toolPre
      | "tool", "post" => .ok .toolPost
      | "tool", "error" => .ok .toolError
      | "llm", "pre" => .ok .llmPre
      | "llm", "post" => .ok .llmPost
      | "llm", "error" => .ok .llmError
      | "session", "created" => .ok .sessionCreated
      | "session", "closed" => .ok .sessionClosed
      | "session", "state" => .ok .sessionState
      | "chat", "transform" => .ok .chatSystemTransform
      | "chat", "received" => .ok .chatMessage
      | "chat", "before" => .ok .commandExecuteBefore
      | action, stage =>
        .error ("unsupported hook_point category for action='" ++ action ++ "' stage='" ++ stage ++ "': " ++ hookPoint)
  | _ => .error ("hook_point must have 4 dot-separated segments: " ++ hookPoint)

/-! ### Segments of the points -/

theorem segments_append (left right : String) :
    segments (left ++ "." ++ right) = segments left ++ segments right := by
  have hd : (left ++ "." ++ right).toList = left.toList ++ '.' :: right.toList := by simp
  rw [segments, hd, splitOn_append_cons_self]
  rfl

theorem segments_of_undotted {s : String} (h : '.' ∉ s.toList) : segments s = [s.toList] := splitOn_eq_singleton h

theorem length_segments_eq_one_iff {s : String} : (segments s).length = 1 ↔ '.' ∉ s.toList := by
  constructor
  · intro h hd
    obtain ⟨left, right, hs⟩ := append_of_mem hd
    have hsg : segments s = left.splitOn '.' ++ right.splitOn '.' := by
      rw [segments, hs, splitOn_append_cons_self]
    have hl : 0 < (left.splitOn '.').length := length_pos_iff.mpr (splitOnP_ne_nil _ _)
    have hr : 0 < (right.splitOn '.').length := length_pos_iff.mpr (splitOnP_ne_nil _ _)
    rw [hsg, length_append] at h
    omega
  · intro h
    rw [segments_of_undotted h]
    rfl

def escapeChar (c : Char) : List Char :=
  if c = '%' then "%25".toList else if c = '.' then "%2E".toList else [c]

theorem toList_escapeHookPointSegment (s : String) :
    (escapeHookPointSegment s).toList = s.toList.flatMap escapeChar := by
  simp only [escapeHookPointSegment, replaceChar, String.toList_ofList, flatMap_assoc]
  congr 1
  funext c
  by_cases hp : c = '%'
  · simp [escapeChar, hp]
  · by_cases hd : c = '.'
    · simp [escapeChar, hd]
    · simp [escapeChar, hp, hd]

theorem undotted_escape (s : String) : '.' ∉ (escapeHookPointSegment s).toList := by
  rw [toList_escapeHookPointSegment, mem_flatMap]
  rintro ⟨c, -, hc⟩
  by_cases hp : c = '%'
  · simp [escapeChar, hp] at hc
  · by_cases hd : c = '.'
    · simp [escapeChar, hd] at hc
    · simp [escapeChar, hp, hd] at hc
      exact hd hc.symm

theorem escapeHookPointSegment_injective {s t : String} (h : escapeHookPointSegment s = escapeHookPointSegment t) :
    s = t := by
  have hc : s.toList.flatMap escapeChar = t.toList.flatMap escapeChar := by
    rw [← toList_escapeHookPointSegment, h, toList_escapeHookPointSegment]
  refine String.toList_inj.mp (eq_of_flatMap_eq (fun c => ?_) (fun {a b x y} heq => ?_) hc)
  · unfold escapeChar
    split_ifs <;> simp
  · -- only an escaped character starts with a percent sign, and the last of its characters tells which one it is
    unfold escapeChar at heq
    split_ifs at heq <;> grind

variable (agentId toolName : String) (stage : Stage)

theorem undotted_stage : '.' ∉ stage.text.toList := by
  cases stage <;> decide

theorem segments_toolHookPoint : segments (toolHookPoint agentId toolName stage) =
      [(escapeHookPointSegment agentId).toList, "Tool".toList,
        (escapeHookPointSegment toolName).toList, stage.text.toList] := by
  have hp : toolHookPoint agentId toolName stage =
      escapeHookPointSegment agentId ++ "." ++ ("Tool" ++ "." ++ (escapeHookPointSegment
        toolName ++ "." ++ stage.text)) := by
    simp only [toolHookPoint, String.append_assoc]
    rfl
  rw [hp, segments_append, segments_append, segments_append, segments_of_undotted (undotted_escape agentId),
    segments_of_undotted (undotted_escape toolName), segments_of_undotted (undotted_stage stage),
    segments_of_undotted (s := "Tool") (by decide)]
  rfl

def Stage.toolCategory : Stage → HookPointCategory
  | .pre => .toolPre
  | .post => .toolPost
  | .error => .toolError

theorem resolve_toolHookPoint :
    resolveHookPointCategory (toolHookPoint agentId toolName stage) = .ok stage.toolCategory := by
  rw [resolveHookPointCategory, segments_toolHookPoint]
  cases stage <;> rfl

/-! ### Hookers for all agents -/

/-- With `*` for the agent, and the rest of the point. -/
theorem matches_star_iff (ag r : String) :
    hookPointMatches ("*" ++ "." ++ r) (ag ++ "." ++ r) = true ↔ '.' ∉ ag.toList := by
  have hst : segments "*" = [['*']] := rfl
  rw [hookPointMatches, segments_append, segments_append, hst, ← length_segments_eq_one_iff]
  constructor
  · intro h
    have hl := of_decide_eq_true (Bool.and_eq_true_iff.mp h).1
    simp only [length_append, length_singleton] at hl
    omega
  · intro h
    obtain ⟨sg, hs⟩ := length_eq_one_iff.mp h
    rw [hs]
    have hsl : ∀ p ∈ (segments r).zip (segments r), p.1 = p.2 := by
      intro p hp
      rw [zip_eq_zipWith, zipWith_self] at hp
      obtain ⟨s, -, rfl⟩ := mem_map.mp hp
      rfl
    simpa using fun a b hp => .inl (hsl (a, b) hp)

theorem matches_toolHookPoint :
    hookPointMatches ("*.Tool.*." ++ stage.text) (toolHookPoint agentId toolName stage) = true := by
  have hp : segments ("*.Tool.*." ++ stage.text) = [['*'], "Tool".toList, ['*'], stage.text.toList] := by
    cases stage <;> rfl
  rw [hookPointMatches, hp, segments_toolHookPoint]
  simp

/-- The pattern for all agents and tools matches a point exactly if the agent id has no dot where it
is not escaped. -/
theorem matches_wildcard_iff (f : Fired) : hookPointMatches f.wildcard f.hookPoint = true ↔ f.Undotted := by
  cases f with
  | tool agentId toolName stage =>
    exact ⟨fun _ => trivial, fun _ => matches_toolHookPoint agentId toolName stage⟩
  | llm agentId stage =>
    have hpn : llmHookPoint agentId stage = agentId ++ "." ++ ("Llm.complete." ++ stage.text) := by
      simp only [llmHookPoint, String.append_assoc]
      rfl
    have hp : (Fired.llm agentId stage).wildcard = "*" ++ "." ++ ("Llm.complete." ++ stage.text) := by
      cases stage <;> rfl
    rw [hp, Fired.hookPoint, hpn]
    exact matches_star_iff agentId _
  | chat agentId hook =>
    have hp : (Fired.chat agentId hook).wildcard = "*" ++ "." ++ hook.text := by
      cases hook <;> rfl
    exact matches_star_iff (chatAgentSegment agentId) hook.text

theorem toolHookPoint_injective {agentId a' toolName toolName' : String} {stage s' : Stage}
    (h : toolHookPoint agentId toolName stage = toolHookPoint a' toolName' s') :
    agentId = a' ∧ toolName = toolName' := by
  have hs := congrArg segments h
  rw [segments_toolHookPoint, segments_toolHookPoint] at hs
  simp only [cons.injEq, String.toList_inj] at hs
  exact ⟨escapeHookPointSegment_injective hs.1, escapeHookPointSegment_injective hs.2.2.1⟩

/-- **Which points the hookers for all agents and tools cover**: those of tools, and those of models
and chats of an agent without a dot in its id. The points of different agents or tools are
different. -/
theorem wildcard_covers_iff {ω : Type} [Inhabited ω] : (∀ fired : Fired,
      (∀ (registry : HookerRegistry ω) (hooker : Hooker ω), hooker ∈ registry.hookers →
        registry.isEnabled hooker.id →
        hooker.hookPoint = fired.wildcard → hooker ∈ registry.listForHookPoint fired.hookPoint) ↔ fired.Undotted) ∧
    ∀ agentId agentId' toolName toolName' stage stage',
      toolHookPoint agentId toolName stage = toolHookPoint agentId' toolName' stage' →
        agentId = agentId' ∧ toolName = toolName' := by
  refine ⟨fun fired => ?_, fun _ _ _ _ _ _ => toolHookPoint_injective⟩
  rw [← matches_wildcard_iff]
  constructor
  · intro h
    have hl := h ⟨[⟨"", fired.wildcard, default⟩], [""]⟩ ⟨"", fired.wildcard, default⟩
      (mem_singleton.mpr rfl) rfl rfl
    exact (mem_filter.mp hl).2
  · intro h registry hooker hm _ hp
    refine mem_filter.mpr ⟨hm, ?_⟩
    rw [hp]
    exact h

/-- **A hooker that is not called**: it is registered for the requests of all agents to a model, and
for the messages of all, but not called for an agent whose id has a dot. -/
theorem dotted_agent_escapes_wildcard : let registry : HookerRegistry Unit :=
      ⟨[⟨"deny-llm", "*.Llm.complete.pre", ()⟩, ⟨"redact", "*.Chat.message.received", ()⟩], ["deny-llm", "redact"]⟩
    (registry.listForHookPoint (llmHookPoint "team.reviewer" .pre)).map Hooker.id = [] ∧
      (registry.listForHookPoint (chatHookPoint (some "team.reviewer") .messageReceived)).map Hooker.id = [] ∧
      (registry.listForHookPoint (llmHookPoint "reviewer" .pre)).map Hooker.id = ["deny-llm"] := by
  decide

end XiaoO.Hook
