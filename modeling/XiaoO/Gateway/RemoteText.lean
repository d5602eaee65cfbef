import XiaoO.Conversation.Streaming

/-!
# The text a remote client shows

The daemon sends the snapshots of an answer to a remote client as deltas: `SseLoopEventSink` keeps,
for each agent, how long the last snapshot was and sends what a longer one has beyond that length.
The client appends the deltas. A snapshot that is shorter is sent with an empty delta, which the
client takes for a reset if the snapshot is empty too.

## The model

A lane is the text or the reasoning of an agent. The acts are those of the agents' loops, in any
order: the start of a turn, which sets the lengths of the agent to zero, the start of an `llm_call`,
of which the sink knows nothing, and a snapshot. A step is `none` if slicing the snapshot panics.
Beside the sink, the state records the last snapshot of the turn and whether the call has shown one,
for the statements; and all that was sent, from which the client's text is computed.

## What is proved

* `remote_shows_snapshots` — the client shows the last snapshot and nothing panics if every snapshot
  of a turn is empty or extends the one before it, whatever the agents do in between.
* `retried_call_garbles_text` — the first snapshot of the second call of a turn, such as the retry
  after an invalid tool call, need not extend the last one of the first: the client then appends the
  end of the new text to the old one, or the daemon panics in the middle of a character.
-/

namespace XiaoO.Gateway

open XiaoO.Base XiaoO.Conversation Function

/-- The text or the reasoning of an agent. -/
structure AgentLane where
  agent : String
  channel : Channel
  deriving DecidableEq

/-! ### The sink -/

/-- `TurnStart`, and `TextDelta` or `ThinkingDelta`. -/
inductive SseStreamEvent where
  | turnStart (agent : String) (turn : ℕ)
  | delta (lane : AgentLane) (delta snapshot : List Char)

/-- `SseLoopEventSink`: `last_snapshot_len` and `last_thinking_snapshot_len`, where no entry reads
as zero. -/
abbrev SnapshotLengths := AgentLane → ℕ

def onTurnStart (lengths : SnapshotLengths) (agent : String) : SnapshotLengths :=
  fun lane => if lane.agent = agent then 0 else lengths lane

/-- `on_assistant_message` and `on_assistant_reasoning`; `none` if slicing panics. -/
def onSnapshot (lengths : SnapshotLengths) (lane : AgentLane) (text : List Char) :
    Option (SnapshotLengths × List SseStreamEvent) :=
  let prev := lengths lane
  let lengths := Function.update lengths lane (byteLength text)
  if prev < byteLength text then
    (splitAtByte? text prev).map fun (_, delta) => (lengths, [.delta lane delta text])
  else if byteLength text < prev then some (lengths, [.delta lane [] text])
  else some (lengths, [])

/-! ### The client -/

/-- What `handle_remote_event` makes of an event: `TurnStart`, `SetAssistantContent` or
`SetAssistantThinking`, and `AppendAssistantContent` or `AppendAssistantThinking`. -/
inductive SessionTurnUpdate where
  | turnStart (agent : String)
  | set (lane : AgentLane) (text : List Char)
  | append (lane : AgentLane) (delta : List Char)

def handleRemoteEvent : SseStreamEvent → SessionTurnUpdate
  | .turnStart agent _ => .turnStart agent
  | .delta lane delta snapshot => if delta = [] ∧ snapshot = [] then .set lane [] else .append lane delta

/-- What the client shows of the turn of each agent; a turn begins with a new message. -/
def SessionTurnUpdate.apply (shown : AgentLane → List Char) : SessionTurnUpdate → AgentLane → List Char
  | .turnStart agent => fun lane => if lane.agent = agent then [] else shown lane
  | .set lane text => Function.update shown lane text
  | .append lane delta => Function.update shown lane (shown lane ++ delta)

def clientText (sent : List SseStreamEvent) : AgentLane → List Char :=
  (sent.map handleRemoteEvent).foldl SessionTurnUpdate.apply fun _ => []

/-! ### The daemon -/

/-- The sink, what it has sent, and beside it the last snapshot of the turn and whether the call has
shown one. -/
structure Daemon where
  lengths : SnapshotLengths := fun _ => 0
  sent : List SseStreamEvent := []
  snapshot : AgentLane → List Char := fun _ => []
  streaming : AgentLane → Bool := fun _ => false

/-- What the loop of an agent does. -/
inductive LoopAct where
  | turnStart (agent : String) (turn : ℕ)
  | llmCall (agent : String)
  | snapshot (lane : AgentLane) (text : List Char)

variable (s : Daemon)

def daemonStep : LoopAct → Option Daemon
  | .turnStart agent turn =>
    some
      { lengths := onTurnStart s.lengths agent
        sent := s.sent ++ [.turnStart agent turn]
        snapshot := fun lane => if lane.agent = agent then [] else s.snapshot lane
        streaming := fun lane => lane.agent ≠ agent && s.streaming lane }
  | .llmCall agent => some { s with streaming := fun lane => lane.agent ≠ agent && s.streaming lane }
  | .snapshot lane text =>
    (onSnapshot s.lengths lane text).map fun (lengths, events) =>
      { lengths
        sent := s.sent ++ events
        snapshot := Function.update s.snapshot lane text
        streaming := Function.update s.streaming lane true }

/-- A snapshot that is empty or extends the one before it. -/
def Continues (prev next : List Char) : Prop := next = [] ∨ prev <+: next
  deriving Decidable

/-- Within a call the snapshots continue one another. -/
def ContinuesCall : LoopAct → Prop
  | .snapshot lane text => s.streaming lane = true → Continues (s.snapshot lane) text
  | _ => True

/-- The first snapshot of a call continues the last one of the turn. -/
def ContinuesTurn : LoopAct → Prop
  | .snapshot lane text => s.streaming lane = false → Continues (s.snapshot lane) text
  | _ => True

instance : DecidableRel ContinuesCall
  | s, .snapshot lane text =>
      inferInstanceAs (Decidable (s.streaming lane = true → Continues (s.snapshot lane) text))
  | _, .turnStart _ _ | _, .llmCall _ => isTrue trivial

instance : DecidableRel ContinuesTurn
  | s, .snapshot lane text =>
      inferInstanceAs (Decidable (s.streaming lane = false → Continues (s.snapshot lane) text))
  | _, .turnStart _ _ | _, .llmCall _ => isTrue trivial

/-! ### The client follows -/

@[simp] theorem clientText_concat (s : List SseStreamEvent) (e : SseStreamEvent) :
    clientText (s ++ [e]) = (handleRemoteEvent e).apply (clientText s) := by
  rw [clientText, List.map_append, List.map_singleton, List.foldl_concat]
  rfl

/-- The sink agrees with the daemon's text, and so does the client. -/
def Agrees : Prop :=
  ∀ lane, s.lengths lane = byteLength (s.snapshot lane) ∧ clientText s.sent lane = s.snapshot lane

/-- A snapshot that continues the last one reaches the client. -/
theorem onSnapshot_of_continues {ls : SnapshotLengths} {lane : AgentLane} {s : List SseStreamEvent}
    {prev text : List Char} (hl : ls lane = byteLength prev) (hs : clientText s lane = prev)
      (h : Continues prev text) :
    ∃ es, onSnapshot ls lane text = some (update ls lane (byteLength text), es) ∧
      clientText (s ++ es) = update (clientText s) lane text := by
  unfold onSnapshot
  rw [hl]
  rcases h with rfl | ⟨rest, rfl⟩
  · by_cases hp : prev = []
    · subst hp
      refine ⟨[], by simp, ?_⟩
      rw [List.append_nil, update_eq_self_iff.mpr hs.symm]
    · have hps : 0 < byteLength prev := Nat.pos_of_ne_zero fun hz => hp (byteLength_eq_zero hz)
      refine ⟨[.delta lane [] []], by simp [hps], ?_⟩
      rw [clientText_concat]
      rfl
  · by_cases hr : rest = []
    · subst hr
      refine ⟨[], by simp, ?_⟩
      rw [List.append_nil, List.append_nil, update_eq_self_iff.mpr hs.symm]
    · have hps : 0 < byteLength rest := Nat.pos_of_ne_zero fun hz => hr (byteLength_eq_zero hz)
      refine ⟨[.delta lane rest (prev ++ rest)], by simp [hps, splitAtByte?_append], ?_⟩
      have hu : handleRemoteEvent (.delta lane rest (prev ++ rest)) = .append lane rest := by
        simp [handleRemoteEvent, hr]
      rw [clientText_concat, hu, SessionTurnUpdate.apply, hs]

theorem Agrees.step_snapshot {s : Daemon} (h : Agrees s) {l : AgentLane} {t : List Char}
    (hc : Continues (s.snapshot l) t) : ∃ s', daemonStep s (.snapshot l t) = some s' ∧ Agrees s' := by
  obtain ⟨es, he, hcl⟩ := onSnapshot_of_continues (h l).1 (h l).2 hc
  refine ⟨_, by rw [daemonStep, he, Option.map_some], fun l' => ?_⟩
  rw [hcl]
  by_cases hl : l' = l
  · subst hl
    simp
  · simpa [update_of_ne hl] using h l'

/-- A step that is allowed is possible and keeps the agreement. -/
theorem Agrees.step {s : Daemon} (h : Agrees s) {act : LoopAct} (hc : ContinuesCall s act)
    (ht : ContinuesTurn s act) : ∃ s', daemonStep s act = some s' ∧ Agrees s' := by
  cases act with
  | turnStart a =>
    refine ⟨_, rfl, fun l => ?_⟩
    by_cases ha : l.agent = a
    · simp [onTurnStart, handleRemoteEvent, SessionTurnUpdate.apply, ha]
    · simpa [onTurnStart, handleRemoteEvent, SessionTurnUpdate.apply, ha] using h l
  | llmCall => exact ⟨_, rfl, h⟩
  | snapshot l =>
    refine h.step_snapshot ?_
    cases hs : s.streaming l with
    | true => exact hc hs
    | false => exact ht hs

/-- **The remote client shows the daemon's text**, and the sink does not panic, as long as the first
snapshot of a later call of a turn, too, is empty or extends the last one. -/
theorem remote_shows_snapshots {s : Daemon}
    (hrun : RunUnder daemonStep (fun s act => ContinuesCall s act ∧ ContinuesTurn s act) {} s) :
    (∀ lane, clientText s.sent lane = s.snapshot lane) ∧
      ∀ act, ContinuesCall s act → ContinuesTurn s act → (daemonStep s act).isSome := by
  have ha : Agrees s := by
    refine hrun.invariant (fun lane => ⟨rfl, rfl⟩) fun {u v act} hu hac hs => ?_
    obtain ⟨s', hs', ha⟩ := hu.step hac.1 hac.2
    rw [hs] at hs'
    exact Option.some.inj hs' ▸ ha
  refine ⟨fun lane => (ha lane).2, fun act hc ht => ?_⟩
  obtain ⟨s', hs', -⟩ := ha.step hc ht
  rw [hs']
  rfl

/-! ### Two calls in a turn -/

/-- The acts of a call whose sink hears the given events. -/
def callActs (agent : String) (events : List SinkEvent) : List LoopAct :=
  .llmCall agent :: events.filterMap fun event =>
    match event with
    | .replace ch text => some (.snapshot ⟨agent, ch⟩ text)
    | .append _ _ => none

/-- A short answer, as one chunk. -/
def shortCall (text : String) : List SinkEvent :=
  llmCallEvents (some ⟨false⟩) [] [{ deltaText := some text.toList, now := fun _ => 0 }]
    (.response { text := some text })

/-- A call that is cut off and tried again by the provider, and a second call that goes on. -/
theorem remote_shows_snapshots_reset :
    ∃ s, RunUnder daemonStep (fun s act => ContinuesCall s act ∧ ContinuesTurn s act) {} s ∧
      clientText s.sent ⟨"root", .text⟩ = s.snapshot ⟨"root", .text⟩ ∧
      s.snapshot ⟨"root", .text⟩ = "Hello, world".toList := by
  obtain ⟨s, hr, hs⟩ := exists_run_of_exec daemonStep
    (fun s act => ContinuesCall s act ∧ ContinuesTurn s act) {}
    (fun s => s.snapshot ⟨"root", .text⟩ = "Hello, world".toList)
    ([.turnStart "root" 1, .llmCall "root", .snapshot ⟨"root", .text⟩ "He".toList, .turnStart "child" 1,
      .snapshot ⟨"root", .text⟩ [], .snapshot ⟨"child", .text⟩ "Hm".toList,
        .snapshot ⟨"root", .text⟩ "Hello".toList] ++
      callActs "root" (shortCall "Hello, world")) (by decide)
  exact ⟨s, hr, (remote_shows_snapshots hr).1 _, hs⟩

/-- **A second call garbles the text.** If the first call of a turn says `Hello` and the second
`Goodbye!`, the client shows `Helloye!`; if the first says `a` and the second `é`, the sink
panics. -/
theorem retried_call_garbles_text :
    (∃ s, RunUnder daemonStep ContinuesCall {} s ∧ s.snapshot ⟨"root", .text⟩ = "Goodbye!".toList ∧
      clientText s.sent ⟨"root", .text⟩ = "Helloye!".toList) ∧
    ∃ s, RunUnder daemonStep ContinuesCall {} s ∧ ContinuesCall s (.snapshot ⟨"root", .text⟩ "é".toList) ∧
      daemonStep s (.snapshot ⟨"root", .text⟩ "é".toList) = none := by
  constructor
  · exact exists_run_of_exec _ _ _ _
      (.turnStart "root" 1 :: callActs "root" (shortCall "Hello") ++ callActs "root"
        (shortCall "Goodbye!")) (by decide)
  · obtain ⟨s, hr, hs, hl⟩ := exists_run_of_exec daemonStep ContinuesCall {}
      (fun s => s.streaming ⟨"root", .text⟩ = false ∧ s.lengths ⟨"root", .text⟩ = 1)
      (.turnStart "root" 1 :: callActs "root" (shortCall "a") ++ [.llmCall "root"]) (by decide)
    refine ⟨s, hr, fun h => absurd (hs.symm.trans h) Bool.false_ne_true, ?_⟩
    have hsp : splitAtByte? "é".toList 1 = none := by decide
    rw [daemonStep, onSnapshot]
    rw [hl, if_pos (by decide), hsp]
    rfl

end XiaoO.Gateway
