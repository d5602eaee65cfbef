import XiaoO.Base.ByteSlices
import XiaoO.Conversation.AgentLoop
import XiaoO.Conversation.SecretFilter

/-!
# Streaming an answer to a sink

While the model answers, `stream_assistant_chunk` shows what has come so far to an event sink. A
sink that takes deltas gets every one of them, unless there are secrets to mask, for a secret may be
cut by the end of a chunk. Any other sink gets the whole text again and again, but not at every
chunk: only if it has grown by 32 bytes or 80 ms have passed since it was last shown. What the
throttle left behind is shown at the end of `llm_call`, which tells that from the length of the text
that was last shown.

## The model

Text and reasoning are treated alike, each with a buffer and a throttle of its own (`Channel`,
`Lane`). The clock is read once for each delta and is arbitrary. `llmCallEvents` is what the sink
hears in one `llm_call`, and `hear` what it then holds. A call that does not stream is one without
chunks.

## What is proved

* `sink_shows_answer` — for every sequence of chunks, clock, list of secrets and kind of sink, the
  sink holds the filtered text at the end, whether the call was cancelled midway or the answer is
  what was streamed since the last reset.
-/

namespace XiaoO.Conversation

open XiaoO.Base List Function

/-! ### Chunks, sinks and throttles -/

/-- What is streamed. -/
inductive Channel where
  | text
  | reasoning
  deriving DecidableEq

structure StreamChunk where
  reset : Bool := false
  deltaText : Option (List Char) := none
  deltaReasoning : Option (List Char) := none

/-- `delta_text` or `delta_reasoning`. -/
def StreamChunk.delta (chunk : StreamChunk) : Channel → Option (List Char)
  | .text => chunk.deltaText
  | .reasoning => chunk.deltaReasoning

/-- A chunk with the readings of the clock, in milliseconds, for its two deltas. -/
structure TimedChunk extends StreamChunk where
  now : Channel → ℕ

/-- `text` or `reasoning_content`. -/
def AssistantMessage.part (message : AssistantMessage) : Channel → Option String
  | .text => message.text
  | .reasoning => message.reasoningContent

/-- The calls of a `LoopEventSink`: `on_assistant_message` or `on_assistant_reasoning`, and the same
for a delta. -/
inductive SinkEvent where
  | replace (ch : Channel) (text : List Char)
  | append (ch : Channel) (delta : List Char)

/-- What a sink holds after a call. -/
def SinkEvent.apply (held : Channel → List Char) : SinkEvent → Channel → List Char
  | .replace ch text => Function.update held ch text
  | .append ch delta => Function.update held ch (held ch ++ delta)

/-- What a sink holds after some calls. -/
def hear (held : Channel → List Char) (events : List SinkEvent) : Channel → List Char :=
  events.foldl SinkEvent.apply held

/-- A sink, by its `supports_message_delta`. -/
structure SinkKind where
  supportsMessageDelta : Bool

def streamEmitMinDeltaChars : ℕ := 32

/-- `STREAM_EMIT_MAX_LATENCY`, in milliseconds. -/
def streamEmitMaxLatency : ℕ := 80

structure StreamEmitState where
  lastEmitLen : ℕ := 0
  lastEmitAt : Option ℕ := none

def StreamEmitState.shouldEmit (state : StreamEmitState) (now currentLen : ℕ) : Bool × StreamEmitState :=
  let deltaOk := streamEmitMinDeltaChars ≤ currentLen - state.lastEmitLen
  let latencyOk := state.lastEmitAt.any fun t => streamEmitMaxLatency ≤ now - t
  if deltaOk ∨ latencyOk then (true, ⟨currentLen, some now⟩) else (false, state)

/-- A buffer and its throttle in `AssistantStreamState`. -/
structure Lane where
  full : List Char := []
  lastEmit : StreamEmitState := {}

/-- `AssistantStreamState`, with what the sink has heard. -/
structure AssistantStream where
  lanes : Channel → Lane := fun _ => {}
  events : List SinkEvent := []

/-! ### One call -/

variable (sink : Option SinkKind) (secrets : List (List Char)) (s : AssistantStream) (ch : Channel)

/-- The part of `stream_assistant_chunk` for one delta. -/
def streamDelta (now : ℕ) (delta? : Option (List Char)) (s : AssistantStream) : AssistantStream :=
  match delta? with
  | none => s
  | some delta =>
    let lane := s.lanes ch
    let full := lane.full ++ delta
    match sink with
    | none => { s with lanes := Function.update s.lanes ch { lane with full } }
    | some sink =>
      if sink.supportsMessageDelta ∧ secrets = [] then
        { lanes := Function.update s.lanes ch { lane with full }, events := s.events ++ [.append ch delta] }
      else
        match lane.lastEmit.shouldEmit now (byteLength full) with
        | (true, lastEmit) =>
          { lanes := Function.update s.lanes ch { full, lastEmit }
            events := s.events ++ [.replace ch (filterSecretsInText full secrets)] }
        | (false, lastEmit) => { s with lanes := Function.update s.lanes ch { full, lastEmit } }

def streamAssistantChunk (chunk : TimedChunk) : AssistantStream :=
  if chunk.reset then
    { lanes := fun _ => {}
      events := s.events ++ if sink.isSome then [.replace .text [], .replace .reasoning []] else [] }
  else
    streamDelta sink secrets .text (chunk.now .text) chunk.deltaText
      (streamDelta sink secrets .reasoning (chunk.now .reasoning) chunk.deltaReasoning s)

variable (chunks : List TimedChunk)

def streamChunks : AssistantStream :=
  chunks.foldl (streamAssistantChunk sink secrets) {}

/-- Show a whole text, unless the last one shown was as long. -/
def flush (text : List Char) : List SinkEvent :=
  if sink.isSome ∧ (s.lanes ch).lastEmit.lastEmitLen ≠ byteLength text then
    [.replace ch (filterSecretsInText text secrets)]
  else []

/-- The flush of a call that was cancelled. -/
def flushPartial : List SinkEvent :=
  if (s.lanes ch).full = [] then [] else flush sink secrets s ch (s.lanes ch).full

/-- The flush of a call that was answered. -/
def flushFinal (message : AssistantMessage) (ch : Channel) : List SinkEvent :=
  match message.part ch with
  | none => []
  | some text => flush sink secrets s ch text.toList

/-- How `complete_stream_scoped_with_cancel` ends. -/
inductive StreamEnd where
  | response (message : AssistantMessage)
  | cancelled
  | contextLengthExceeded (message : String)
  | failed (message : String)

/-- What the sink hears in one `llm_call`. -/
def llmCallEvents (ending : StreamEnd) : List SinkEvent :=
  let s := streamChunks sink secrets chunks
  match ending with
  | .response message =>
    s.events ++ flushFinal sink secrets s message .text ++ flushFinal sink secrets s message .reasoning
  | .cancelled => s.events ++ flushPartial sink secrets s .text ++ flushPartial sink secrets s .reasoning
  | .contextLengthExceeded _ | .failed _ => s.events

def deltasSinceReset : List Char :=
  ((chunks.reverse.takeWhile fun chunk => !chunk.reset).reverse.filterMap fun chunk => chunk.delta ch).flatten

variable {sink : SinkKind} {secrets : List (List Char)} {held : Channel → List Char}

/-! ### What is in the buffers -/

theorem streamDelta_cases (sink : SinkKind) (secrets : List (List Char)) (ch : Channel) (n : ℕ) (delta : List Char)
    (s : AssistantStream) :
    (sink.supportsMessageDelta ∧ secrets = []) ∧ streamDelta (some sink) secrets ch n (some delta) s =
          { lanes := update s.lanes ch { s.lanes ch with full := (s.lanes ch).full ++ delta }
            events := s.events ++ [.append ch delta] } ∨
      ¬ (sink.supportsMessageDelta ∧ secrets = []) ∧ (streamDelta (some sink) secrets ch n (some delta) s =
            { lanes := update s.lanes ch
                ⟨(s.lanes ch).full ++ delta, byteLength ((s.lanes ch).full ++ delta), some n⟩
              events := s.events ++ [.replace ch (filterSecretsInText ((s.lanes ch).full ++ delta) secrets)] } ∨
          streamDelta (some sink) secrets ch n (some delta) s =
            { s with lanes := update s.lanes ch { s.lanes ch with full := (s.lanes ch).full ++ delta } }) := by
  unfold streamDelta
  dsimp only
  split_ifs with hd
  · exact .inl ⟨hd, rfl⟩
  · refine .inr ⟨hd, ?_⟩
    by_cases hs :
        streamEmitMinDeltaChars ≤ byteLength ((s.lanes ch).full ++ delta) - (s.lanes ch).lastEmit.lastEmitLen ∨
          (s.lanes ch).lastEmit.lastEmitAt.any fun t => streamEmitMaxLatency ≤ n - t
    · rw [StreamEmitState.shouldEmit, if_pos hs]
      exact .inl rfl
    · rw [StreamEmitState.shouldEmit, if_neg hs]
      exact .inr rfl

theorem deltasSinceReset_concat (cs : List TimedChunk) (c : TimedChunk) : deltasSinceReset ch (cs ++ [c]) =
      if c.reset then [] else deltasSinceReset ch cs ++ (c.delta ch).getD [] := by
  rw [deltasSinceReset, reverse_append, reverse_singleton, singleton_append, takeWhile_cons]
  cases hr : c.reset with
  | true => rfl
  | false =>
    cases hd : c.delta ch with
    | none | some => simp [hd, deltasSinceReset]

theorem full_streamDelta (sink : Option SinkKind) (ch ch' : Channel) (n : ℕ) (d : Option (List Char))
    (s : AssistantStream) : ((streamDelta sink secrets ch n d s).lanes ch').full =
      (s.lanes ch').full ++ if ch' = ch then d.getD [] else [] := by
  cases d with
  | none => simp [streamDelta]
  | some dl =>
    have hl : ∀ l : Lane, l.full = (s.lanes ch).full ++ dl →
        (update s.lanes ch l ch').full = (s.lanes ch').full ++ if ch' = ch then dl else [] := by
      intro l hf
      by_cases hch : ch' = ch
      · subst hch
        rw [update_self, hf, if_pos rfl]
      · rw [update_of_ne hch, if_neg hch, append_nil]
    cases sink with
    | none => exact hl _ rfl
    | some sink =>
      rcases streamDelta_cases sink secrets ch n dl s with ⟨-, heq⟩ | ⟨-, heq | heq⟩
      all_goals rw [heq]
      all_goals exact hl _ rfl

/-- The buffers hold what came since the last reset. -/
theorem full_streamChunks (sink : Option SinkKind) (chunks : List TimedChunk) (ch : Channel) :
    ((streamChunks sink secrets chunks).lanes ch).full = deltasSinceReset ch chunks := by
  induction chunks using reverseRecOn with
  | nil => rfl
  | append_singleton chunks c ih =>
    rw [deltasSinceReset_concat, streamChunks, foldl_concat, ← streamChunks, streamAssistantChunk]
    by_cases hr : c.reset = true
    · rw [if_pos hr, if_pos hr]
    · rw [if_neg hr, if_neg hr, full_streamDelta, full_streamDelta, ih]
      cases ch <;> simp [StreamChunk.delta]

/-! ### What the sink has seen -/

@[simp] theorem hear_concat (es : List SinkEvent) (e : SinkEvent) :
    hear held (es ++ [e]) = e.apply (hear held es) := foldl_concat ..

/-- What the throttle of a channel says of the sink: if it has shown anything since the last reset,
the sink holds the filtered beginning of the text, as long as the throttle has recorded. Deltas are
not recorded. -/
structure Shown (sink : SinkKind) (secrets : List (List Char)) (held : Channel → List Char) (s : AssistantStream)
    (ch : Channel) : Prop where
  deltas : sink.supportsMessageDelta ∧ secrets = [] → (s.lanes ch).lastEmit.lastEmitLen = 0
  shown : (s.lanes ch).lastEmit.lastEmitLen ≠ 0 → ∃ start, start <+: (s.lanes ch).full ∧
    byteLength start = (s.lanes ch).lastEmit.lastEmitLen ∧ hear held s.events ch = filterSecretsInText start secrets

theorem Shown.afterDelta {s : AssistantStream} {ch : Channel} (h : Shown sink secrets held s ch) (ch' : Channel)
    (n : ℕ) (dl : Option (List Char)) : Shown sink secrets held (streamDelta (some sink) secrets ch' n dl s) ch := by
  cases dl with
  | none => exact h
  | some d =>
    by_cases hch : ch = ch'
    · subst hch
      rcases streamDelta_cases sink secrets ch n d s with ⟨hd, heq⟩ | ⟨hd, heq | heq⟩
      all_goals rw [heq]
      · have hz := h.deltas hd
        exact ⟨fun _ => by simpa using hz, fun hne => absurd hz (by simpa using hne)⟩
      · refine ⟨fun hno => absurd hno hd, fun _ => ⟨(s.lanes ch).full ++ d, ?_, ?_, ?_⟩⟩
        · simp
        · simp
        · simp [SinkEvent.apply]
      · refine ⟨fun hno => absurd hno hd, fun hne => ?_⟩
        obtain ⟨st, hst, hl, hh⟩ := h.shown (by simpa using hne)
        refine ⟨st, ?_, by simpa using hl, hh⟩
        simpa using hst.trans (prefix_append _ d)
    · have hs : (streamDelta (some sink) secrets ch' n (some d) s).lanes ch = s.lanes ch ∧
          hear held (streamDelta (some sink) secrets ch' n (some d) s).events ch = hear held s.events ch := by
        rcases streamDelta_cases sink secrets ch' n d s with ⟨-, heq⟩ | ⟨-, heq | heq⟩
        all_goals rw [heq]
        all_goals simp [SinkEvent.apply, update_of_ne hch]
      refine ⟨fun hd => ?_, fun hne => ?_⟩
      · rw [hs.1]
        exact h.deltas hd
      · rw [hs.1] at hne
        rw [hs.1, hs.2]
        exact h.shown hne

/-- It stays so along a stream. -/
theorem shown_streamChunks (sink : SinkKind) (secrets : List (List Char)) (held : Channel → List Char)
    (cs : List TimedChunk) (ch : Channel) : Shown sink secrets held (streamChunks (some sink) secrets cs) ch := by
  induction cs using reverseRecOn with
  | nil => exact ⟨fun _ => rfl, fun hne => absurd rfl hne⟩
  | append_singleton cs c ih =>
    rw [streamChunks, foldl_concat, ← streamChunks, streamAssistantChunk]
    by_cases hr : c.reset = true
    · rw [if_pos hr]
      exact ⟨fun _ => rfl, fun hne => absurd rfl hne⟩
    · rw [if_neg hr]
      exact (ih.afterDelta _ _ _).afterDelta _ _ _

/-- After a flush of the whole buffer the sink holds it. -/
theorem Shown.after_flush {s : AssistantStream} {ch : Channel} (h : Shown sink secrets held s ch)
    (hne : (s.lanes ch).full ≠ []) {es : List SinkEvent} (he : hear held es ch = hear held s.events ch) :
    hear held (es ++ flush (some sink) secrets s ch (s.lanes ch).full) ch =
      filterSecretsInText (s.lanes ch).full secrets := by
  unfold flush
  split_ifs with hf
  · rw [hear_concat, SinkEvent.apply, update_self]
  · -- The last text shown was as long, and it was the beginning of this one.
    have hl : (s.lanes ch).lastEmit.lastEmitLen = byteLength (s.lanes ch).full := by simpa using hf
    have hp : (s.lanes ch).lastEmit.lastEmitLen ≠ 0 := by
      rw [hl]
      exact fun hz => hne (byteLength_eq_zero hz)
    obtain ⟨st, hst, hs, hh⟩ := h.shown hp
    rw [append_nil, he, hh, eq_of_prefix_of_byteLength hst (hs.trans hl)]

/-- The two flushes at the end, of the whole buffer of one channel and of whatever there is of the
other. -/
theorem Shown.after_flushes {s : AssistantStream} {ch : Channel} (h : Shown sink secrets held s ch)
    (hne : (s.lanes ch).full ≠ []) (f : Channel → List SinkEvent)
    (hf : ∀ ch', f ch' = [] ∨ ∃ text, f ch' = flush (some sink) secrets s ch' text)
    (hch : f ch = flush (some sink) secrets s ch (s.lanes ch).full) :
    hear held (s.events ++ f .text ++ f .reasoning) ch = filterSecretsInText (s.lanes ch).full secrets := by
  have ho : ∀ ch', ch ≠ ch' → ∀ events, hear held (events ++ f ch') ch = hear held events ch := by
    intro ch' hne' events
    rcases hf ch' with hn | ⟨text, hfl⟩
    · rw [hn, append_nil]
    · rw [hfl]
      unfold flush
      split_ifs
      · rw [hear_concat, SinkEvent.apply, update_of_ne hne']
      · rw [append_nil]
  cases ch with
  | text =>
    rw [ho .reasoning (by decide), hch]
    exact h.after_flush hne rfl
  | reasoning =>
    rw [hch]
    exact h.after_flush hne (ho .text (by decide) _)

/-- **A sink shows the answer**: after a call that was cancelled, or whose answer is what was
streamed since the last reset, it holds the filtered text, whatever the chunks, the clock, the
secrets and the sink. -/
theorem sink_shows_answer (sink : SinkKind) (secrets : List (List Char)) (held : Channel → List Char)
    (chunks : List TimedChunk) (ending : StreamEnd) (ch : Channel) (text : List Char) (hne : text ≠ [])
    (hstreamed : deltasSinceReset ch chunks = text) (hending : ending = .cancelled ∨
      ∃ message, ending = .response message ∧ message.part ch = some (String.ofList text)) :
    hear held (llmCallEvents (some sink) secrets chunks ending) ch = filterSecretsInText text secrets := by
  have hf : ((streamChunks (some sink) secrets chunks).lanes ch).full = text := by rw [full_streamChunks, hstreamed]
  have hs := shown_streamChunks sink secrets held chunks ch
  rw [← hf] at hne ⊢
  rcases hending with rfl | ⟨message, rfl, hp⟩
  · refine hs.after_flushes hne (flushPartial (some sink) secrets _) (fun ch' => ?_) (if_neg hne)
    unfold flushPartial
    split_ifs
    · exact .inl rfl
    · exact .inr ⟨_, rfl⟩
  · refine hs.after_flushes hne (flushFinal (some sink) secrets _ message) (fun ch' => ?_) ?_
    · unfold flushFinal
      split
      · exact .inl rfl
      · exact .inr ⟨_, rfl⟩
    · simp only [flushFinal, hp, hf, String.toList_ofList]

/-- The text of an attempt that failed, a reset, and a text that is shown once before its end. -/
def retriedStream : List TimedChunk :=
  [ { deltaText := some "Let me".toList, now := fun _ => 0 }, { reset := true, now := fun _ => 5 },
    { deltaText := some "The password of the account is".toList, now := fun _ => 10 },
    { deltaText := some " swordf".toList, now := fun _ => 15 },
    { deltaText := some "ish".toList, now := fun _ => 20 } ]

theorem sink_shows_answer_retried :
    hear (fun _ => []) (llmCallEvents (some ⟨true⟩) ["swordfish".toList] retriedStream .cancelled) .text =
        "The password of the account is <SECRET>".toList ∧
      (streamChunks (some ⟨true⟩) ["swordfish".toList] retriedStream).events.length = 3 := by
  refine ⟨?_, by decide⟩
  rw [sink_shows_answer ⟨true⟩ ["swordfish".toList] (fun _ => []) retriedStream .cancelled .text
    "The password of the account is swordfish".toList (by decide) (by decide) (.inl rfl)]
  decide

end XiaoO.Conversation
