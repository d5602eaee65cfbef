import XiaoO.Conversation.ToolPairing

/-!
# Cached token counts

`ChatMessage::estimated_tokens` caches the estimate of a message, and the decision to compress the
history is made from the cached values. A cached value is never computed again, so it is right only
as long as nobody changes the message.

## The model

The agent loop changes its history in four ways (`historyStep`): it appends a message after
`update_message_cache`, it appends the error result of the retry without it and takes that result
back, and it replaces the history by a compressed view, which is pruned and whose missing estimates
are then filled in. The model of the loop in `AgentLoop` leaves the caches out; every turn of it is
a run of `historyStep` up to the caches (`turn_is_historyRun`).

## What is proved

* `estimates_correct` — the cached estimates stay right if pruning changes no message that has one.
* `pruned_message_keeps_estimate` — otherwise not: a tool result that is pruned keeps the estimate
  of its full output.
-/

namespace XiaoO.Conversation

open XiaoO.Base List Relation.ReflTransGen

/-! ### The estimator -/

def estimateTextQuick (text : String) : ℕ :=
  if text.toList.any (fun c => '\x7f' < c) then text.toList.length / 2 + 10 else text.toList.length / 4 + 10

/-- `estimate_block`; the input of a `ToolUse` is its JSON text. -/
def estimateBlock : ContentBlock → ℕ
  | .text text => estimateTextQuick text
  | .toolUse _ _ input => estimateTextQuick input + 20
  | .toolResult _ _ output _ => estimateTextQuick output + 15
  | .image description => estimateTextQuick description + 100
  | .document description => estimateTextQuick description + 150

variable (message : ChatMessage)

/-- The estimate of the blocks and the reasoning of a message, whatever is cached. -/
def freshEstimate : ℕ :=
  (message.blocks.map estimateBlock).sum + (message.reasoningContent.map estimateTextQuick).getD 0 + 10

def estimateMessage : ℕ := message.estimatedTokens.getD (freshEstimate message)

def updateMessageCache : ChatMessage :=
  if message.estimatedTokens.isNone then
    { message with estimatedTokens := some (estimateMessage message) } else message

/-- The cached estimate, if any, is the fresh one. -/
def EstimateCorrect : Prop := ∀ n ∈ message.estimatedTokens, n = freshEstimate message
  deriving Decidable

theorem estimateCorrect_of_none {message : ChatMessage} (h : message.estimatedTokens = none) :
    EstimateCorrect message := by
  intro n hn
  rw [h] at hn
  cases hn

theorem EstimateCorrect.updateMessageCache {m : ChatMessage} (h : EstimateCorrect m) :
    EstimateCorrect (updateMessageCache m) := by
  unfold XiaoO.Conversation.updateMessageCache
  split_ifs with hnn
  · intro n hn
    rw [← Option.some.inj hn, estimateMessage, Option.isNone_iff_eq_none.mp hnn]
    rfl
  · exact h

/-! ### The changes of a history -/

inductive HistoryChange where
  /-- Append a message with its estimate. -/
  | push (message : ChatMessage)
  /-- Append the error result of the retry. -/
  | pushBare (message : ChatMessage)
  /-- Take the error result back. -/
  | pop
  /-- Take over a compressed view. -/
  | compress (view : List ChatMessage)

/-- One change. The messages of a view are messages of the history, or new ones without an
estimate. -/
def historyStep (history : List ChatMessage) : HistoryChange → Option (List ChatMessage)
  | .push message => some (history ++ [updateMessageCache message])
  | .pushBare message => some (history ++ [message])
  | .pop => some history.dropLast
  | .compress view =>
    if ∀ m ∈ view, m ∈ history ∨ m.estimatedTokens = none then
      some ((pruneStaleToolOutput view).map updateMessageCache)
    else none

/-- Pruning changes no message that has an estimate. -/
def PruneSparesCached (view : List ChatMessage) : Prop :=
  ∀ x ∈ view.zip (pruneStaleToolOutput view), x.1.estimatedTokens.isSome = true → x.2.blocks = x.1.blocks

/-- The condition on the changes: a message comes without an estimate or with its own, which is so
of all messages but those that a hook makes, and pruning spares the messages that have one. -/
def ChangeOk (_ : List ChatMessage) : HistoryChange → Prop
  | .push message | .pushBare message => EstimateCorrect message
  | .pop => True
  | .compress view => PruneSparesCached view

instance : DecidableRel ChangeOk
  | _, .push message | _, .pushBare message => inferInstanceAs (Decidable (EstimateCorrect message))
  | _, .pop => isTrue trivial
  | _, .compress view => inferInstanceAs (Decidable (∀ x ∈ view.zip (pruneStaleToolOutput view),
      x.1.estimatedTokens.isSome = true → x.2.blocks = x.1.blocks))

/-- Pruning changes nothing but the blocks of a message. -/
theorem mem_zip_of_mem_prune {v : List ChatMessage} {m : ChatMessage} (h : m ∈ pruneStaleToolOutput v) :
    ∃ k ∈ v, (k, m) ∈ v.zip (pruneStaleToolOutput v) ∧ m = { k with blocks := m.blocks } := by
  unfold pruneStaleToolOutput at h ⊢
  induction v with
  | nil => cases h
  | cons k v ih =>
    rcases mem_cons.mp h with rfl | h
    · exact ⟨k, mem_cons_self, mem_cons_self, rfl⟩
    · obtain ⟨k', hk', hz, heq⟩ := ih h
      exact ⟨k', mem_cons_of_mem k hk', mem_cons_of_mem _ hz, heq⟩

/-- A message that pruning leaves alone or that has no estimate stays right. -/
theorem EstimateCorrect.pruned {k m : ChatMessage} (h : EstimateCorrect k) (heq : m = { k with blocks := m.blocks })
    (hs : k.estimatedTokens.isSome = true → m.blocks = k.blocks) : EstimateCorrect m := by
  cases hc : k.estimatedTokens with
  | none => exact estimateCorrect_of_none (by rw [heq]; exact hc)
  | some =>
    have hsm : m = k := by rw [heq, hs (by simp [hc])]
    exact hsm ▸ h

variable {history messages : List ChatMessage}

theorem estimates_correct_step {history' : List ChatMessage} {c : HistoryChange}
    (h : ∀ m ∈ history, EstimateCorrect m) (hok : ChangeOk history c)
    (hs : historyStep history c = some history') : ∀ m ∈ history', EstimateCorrect m := by
  cases c with
  | push =>
    obtain rfl := Option.some.inj hs
    intro m hm
    rcases mem_append.mp hm with hm | hm
    · exact h m hm
    · exact mem_singleton.mp hm ▸ EstimateCorrect.updateMessageCache hok
  | pushBare =>
    obtain rfl := Option.some.inj hs
    intro m hm
    rcases mem_append.mp hm with hm | hm
    · exact h m hm
    · exact mem_singleton.mp hm ▸ hok
  | pop =>
    obtain rfl := Option.some.inj hs
    exact fun m hm => h m ((dropLast_sublist history).subset hm)
  | compress =>
    simp only [historyStep] at hs
    split_ifs at hs with hv
    obtain rfl := Option.some.inj hs
    intro m hm
    obtain ⟨m, hmm, rfl⟩ := mem_map.mp hm
    obtain ⟨k, hk, hz, heq⟩ := mem_zip_of_mem_prune hmm
    have hc : EstimateCorrect k := (hv k hk).elim (h k) estimateCorrect_of_none
    exact (hc.pruned heq (hok _ hz)).updateMessageCache

/-- **Cached estimates stay right** in a run of changes of the history in which pruning changes no
message that has one. -/
theorem estimates_correct {history history' : List ChatMessage} (h : ∀ m ∈ history, EstimateCorrect m)
    (hrun : RunUnder historyStep ChangeOk history history') : ∀ m ∈ history', EstimateCorrect m :=
  hrun.invariant (I := fun history => ∀ m ∈ history, EstimateCorrect m) h
    fun h hok hs => estimates_correct_step h hok hs

/-! ### Runs -/

/-- A result of `file_read`. -/
def readResult (callId output : String) : ChatMessage := .toolResult callId "file_read" output false 0

variable (n : ℕ)

/-- An output of `n` characters. -/
def longOutput : String := String.ofList (List.replicate n 'a')

theorem toList_longOutput : (longOutput n).toList = replicate n 'a' := String.toList_ofList

theorem utf8ByteSize_longOutput : (longOutput n).utf8ByteSize = n := by
  induction n with
  | zero => rfl
  | succ n ih =>
    have ha : longOutput (n + 1) = longOutput n ++ "a" := by
      rw [longOutput, replicate_succ', String.ofList_append]
      rfl
    rw [ha, String.utf8ByteSize_append, ih]
    rfl

theorem longOutput_ne_marker {n : ℕ} (h : 100 < n) : longOutput n ≠ prunedMarker := by
  intro heq
  have hl := congrArg (fun s => s.toList.length) heq
  have hm : prunedMarker.toList.length = 98 := by decide
  simp only [toList_longOutput, length_replicate, hm] at hl
  omega

theorem estimateTextQuick_longOutput : estimateTextQuick (longOutput n) = n / 4 + 10 := by
  have hascii : (longOutput n).toList.any (fun c => '\x7f' < c) = false := by
    rw [toList_longOutput, any_eq_false]
    intro c hc
    rw [eq_of_mem_replicate hc]
    decide
  rw [estimateTextQuick, hascii, toList_longOutput, length_replicate]
  rfl

/-- A compression whose view has a new message, which is pruned before it gets its estimate. -/
theorem run_uncached {o n : String} (ho : o ≠ prunedMarker) (hn : n ≠ prunedMarker)
    (hs : 1000 < o.utf8ByteSize) (hk : 40000 ≤ n.utf8ByteSize) :
    RunUnder historyStep ChangeOk [updateMessageCache (readResult "c2" n)]
      [updateMessageCache (readResult "c1" prunedMarker), updateMessageCache (readResult "c2" n)] := by
  have hp : pruneStaleToolOutput [readResult "c1" o, updateMessageCache (readResult "c2" n)] =
      [readResult "c1" prunedMarker, updateMessageCache (readResult "c2" n)] := by
    simp [pruneStaleToolOutput, pruneFrom, pruneBlocks, pruneBlock, readResult, updateMessageCache,
      ChatMessage.toolResult, ho, hn, hs, hk.not_gt]
  refine single ⟨.compress [readResult "c1" o, updateMessageCache (readResult "c2" n)], ?_, ?_⟩
  · simp only [ChangeOk, PruneSparesCached, hp]
    simp [readResult, ChatMessage.toolResult]
  · rw [historyStep, if_pos (by simp [readResult, ChatMessage.toolResult]), hp]
    rfl

theorem estimatedTokens_readResult (c o : String) :
    (updateMessageCache (readResult c o)).estimatedTokens = some (estimateTextQuick o + 25) := rfl

theorem estimateCorrect_readResult (c o : String) : EstimateCorrect (updateMessageCache (readResult c o)) :=
  (estimateCorrect_of_none rfl).updateMessageCache

theorem estimates_correct_pruned : ∃ history,
    RunUnder historyStep ChangeOk [updateMessageCache (readResult "c2" (longOutput 40000))] history ∧
      history.map ChatMessage.estimatedTokens = [some 84, some 10035] ∧ ∀ m ∈ history, EstimateCorrect m := by
  have hr := run_uncached (longOutput_ne_marker (n := 1001) (by omega))
    (longOutput_ne_marker (n := 40000) (by omega))
    (by rw [utf8ByteSize_longOutput]; omega) (by rw [utf8ByteSize_longOutput])
  refine ⟨_, hr, ?_, estimates_correct ?_ hr⟩
  · have hm : estimateTextQuick prunedMarker = 59 := by decide
    rw [map_cons, map_singleton, estimatedTokens_readResult, estimatedTokens_readResult, hm,
      estimateTextQuick_longOutput]
  · exact forall_mem_singleton.mpr (estimateCorrect_readResult _ _)

/-- Two results with their estimates. -/
def twoReads (old new : String) : List ChatMessage :=
  [updateMessageCache (readResult "c1" old), updateMessageCache (readResult "c2" new)]

/-- The older result after pruning. -/
def prunedRead (old : String) : ChatMessage :=
  { updateMessageCache (readResult "c1" old) with blocks := [.toolResult "c1" "file_read" prunedMarker false] }

theorem estimatedTokens_prunedRead (o : String) : (prunedRead o).estimatedTokens = some (estimateTextQuick o + 25) :=
  estimatedTokens_readResult "c1" o

theorem prunedRead_mem {o n : String} (ho : o ≠ prunedMarker) (hn : n ≠ prunedMarker)
    (hs : 1000 < o.utf8ByteSize) (hk : 40000 ≤ n.utf8ByteSize) :
    prunedRead o ∈ pruneStaleToolOutput (twoReads o n ++ [updateMessageCache (.user "go on")]) := by
  simp [pruneStaleToolOutput, pruneFrom, pruneBlocks, pruneBlock, twoReads, readResult, updateMessageCache,
    ChatMessage.toolResult, ChatMessage.user, ChatMessage.text, ho, hn, hs, hk.not_gt, prunedRead]

/-- The first turn of a run: a user message, and a compression with a pipeline that returns the
history as it is. -/
theorem run_twoReads (o n : String) : RunUnder historyStep Always (twoReads o n)
      ((pruneStaleToolOutput (twoReads o n ++ [updateMessageCache (.user "go on")])).map updateMessageCache) :=
  (single ⟨.push (.user "go on"), trivial, rfl⟩).tail
    ⟨.compress (twoReads o n ++ [updateMessageCache (.user "go on")]), trivial, if_pos fun _ hm => .inl hm⟩

/-- **A pruned message keeps its estimate**: of two reads, of 1001 and of 40000 bytes, the older one
is replaced by the marker and stays cached with the estimate of its 1001 bytes. -/
theorem pruned_message_keeps_estimate : (∀ m ∈ twoReads (longOutput 1001) (longOutput 40000), EstimateCorrect m) ∧
      ∃ history, RunUnder historyStep Always (twoReads (longOutput 1001) (longOutput 40000)) history ∧
        ∃ m ∈ history, m.estimatedTokens = some 285 ∧ freshEstimate m = 84 := by
  have hs : updateMessageCache (prunedRead (longOutput 1001)) = prunedRead (longOutput 1001) := rfl
  refine ⟨fun m hm => ?_, _, run_twoReads _ _, prunedRead (longOutput 1001), ?_, ?_, ?_⟩
  · simp only [twoReads, mem_cons, not_mem_nil, or_false] at hm
    rcases hm with rfl | rfl
    · exact estimateCorrect_readResult _ _
    · exact estimateCorrect_readResult _ _
  · have hmm := prunedRead_mem (longOutput_ne_marker (n := 1001) (by omega))
      (longOutput_ne_marker (n := 40000) (by omega)) (by rw [utf8ByteSize_longOutput]; omega)
      (by rw [utf8ByteSize_longOutput])
    exact mem_map.mpr ⟨_, hmm, hs⟩
  · rw [estimatedTokens_prunedRead, estimateTextQuick_longOutput]
  · decide

/-! ### Every turn is a run of changes -/

section Turns

variable {cfg : LoopConfig} {env : TurnEnv} {I : List ChatMessage → Prop}

/-- A property of histories that the changes of the loop keep, as the model without caches makes
them. -/
structure KeptByChanges (cfg : LoopConfig) (I : List ChatMessage → Prop) : Prop where
  push : ∀ {messages} message, I messages → I (messages ++ [message])
  pop : ∀ {messages}, I messages → I messages.dropLast
  compress : ∀ {env messages cmeta messages' cmeta'},
    cfg.pipeline.compress env messages cmeta = .ok (messages', cmeta') → I messages →
      I (pruneStaleToolOutput messages')

theorem KeptByChanges.turnChanges (hI : KeptByChanges cfg I) :
    TurnChanges cfg fun _ ctx c' => I ctx.state.messages → I c'.state.messages where
  refl _ _ h := h
  trans h h' hct := h' (h hct)
  push _ _ h := hI.push _ h
  pop _ h := hI.pop h
  compressed hc h := hI.compress hc h
  streak ctx call outcome h := (messages_updateToolStreak ctx.state call outcome).symm ▸ h
  send _ h := h
  note _ _ _ _ h := h

/-- What the changes keep, a turn of the loop keeps. -/
theorem KeptByChanges.loopStep (hI : KeptByChanges cfg I) {c c' : LoopCtx} (h : I c.state.messages)
    (hs : loopStep cfg c env = some c') : I c'.state.messages := by
  have hb : I ((turnBody cfg env).exec c.newTurn).2.state.messages := hI.turnChanges.within_turnBody env c.newTurn h
  rcases (loopStep_cases hs).2 with ⟨e, b, he, rfl⟩ | ⟨b, he, rfl⟩ | ⟨s, b, -, he, rfl⟩
  all_goals rw [he] at hb
  · exact hb
  · have hd : I (decideTurn cfg env b).2.state.messages := by
      unfold decideTurn
      split_ifs
      all_goals first | exact hb | exact hI.push _ hb
    simp only [endTurn]
    cases (decideTurn cfg env b).1 <;> exact hd
  · exact hb

end Turns

def ChatMessage.uncached : ChatMessage := { message with estimatedTokens := none }

open ChatMessage

/-- The same history up to the cached estimates. -/
def SameButCache (history messages : List ChatMessage) : Prop :=
  history.map uncached = messages.map uncached

theorem uncached_updateMessageCache (m : ChatMessage) : (updateMessageCache m).uncached = m.uncached := by
  unfold updateMessageCache
  split_ifs <;> rfl

theorem pruneFrom_uncached (messages : List ChatMessage) : pruneFrom (messages.map uncached) =
      ((pruneFrom messages).1, (pruneFrom messages).2.map uncached) := by
  induction messages with
  | nil => rfl
  | cons m messages ih =>
    simp only [map_cons, pruneFrom, ih, uncached]

theorem SameButCache.prune (h : SameButCache history messages) :
    SameButCache ((pruneStaleToolOutput history).map updateMessageCache) (pruneStaleToolOutput messages) := by
  have hp : ∀ ms : List ChatMessage,
      (pruneStaleToolOutput ms).map uncached = pruneStaleToolOutput (ms.map uncached) :=
    fun ms => by rw [pruneStaleToolOutput, pruneStaleToolOutput, pruneFrom_uncached]
  rw [SameButCache, map_map, hp messages, ← h, ← hp]
  exact map_congr_left fun m _ => uncached_updateMessageCache m

theorem SameButCache.replace (h : SameButCache history messages) (cs : List ℕ) (r : ChatMessage) :
    SameButCache (applyCandidateReplacement history cs (some r))
      (applyCandidateReplacement messages cs (some r)) := by
  have hm : ∀ ms : List ChatMessage, (applyCandidateReplacement ms cs (some r)).map uncached =
        applyCandidateReplacement (ms.map uncached) cs (some r.uncached) := by
    intro ms
    rw [applyCandidateReplacement, applyCandidateReplacement, map_flatMap, zipIdx_map, flatMap_map]
    refine flatMap_congr fun x _ => ?_
    simp only [map_append, Prod.map_fst, Prod.map_snd, id_eq]
    split_ifs <;> rfl
  rw [SameButCache, hm, hm, h]

/-- What compression returns is, up to the caches, a view of the history with the caches. -/
theorem SameButCache.compress {p : CompressionPipeline} {e : CompressEnv}
    {ms' : List ChatMessage} {c c' : CompressionMeta}
    (h : SameButCache history messages) (hc : p.compress e messages c = .ok (ms', c')) :
    ∃ v, SameButCache v ms' ∧ ∀ m ∈ v, m ∈ history ∨ m.estimatedTokens = none := by
  have hs : ms' = messages → ∃ v, SameButCache v ms' ∧ ∀ m ∈ v, m ∈ history ∨ m.estimatedTokens = none := by
    rintro rfl
    exact ⟨history, h, fun _ hm => .inl hm⟩
  obtain heq | ⟨pt, r, hr, rfl⟩ := compress_cases hc
  · exact hs heq
  · obtain ⟨cs, -, ⟨-, heq⟩ | ⟨-, s, -, heq⟩⟩ := autoCompact_cases hr
    · exact hs heq
    · refine ⟨_, heq ▸ h.replace cs (summaryMessage _ s), fun m hm => ?_⟩
      rcases mem_applyCandidateReplacement hm with hm | rfl
      · exact .inl hm
      · exact .inr rfl

/-- The history is, up to the caches, one that the changes lead to. -/
def ReachedByChanges (start messages : List ChatMessage) : Prop :=
  ∃ history, RunUnder historyStep Always start history ∧ SameButCache history messages

theorem keptByChanges_reached (cfg : LoopConfig) (s : List ChatMessage) :
    KeptByChanges cfg (ReachedByChanges s) where
  push := by
    rintro messages m ⟨history, hr, hs⟩
    refine ⟨_, hr.tail ⟨.push m, trivial, rfl⟩, ?_⟩
    simp only [SameButCache, map_append, map_cons, map_nil, uncached_updateMessageCache]
    rw [hs]
  pop := by
    rintro messages ⟨history, hr, hs⟩
    refine ⟨_, hr.tail ⟨.pop, trivial, rfl⟩, ?_⟩
    rw [SameButCache, map_dropLast, map_dropLast, hs]
  compress := by
    rintro e messages c ms' c' hc ⟨history, hr, hs⟩
    obtain ⟨v, hv, hm⟩ := hs.compress hc
    exact ⟨_, hr.tail ⟨.compress v, trivial, if_pos hm⟩, hv.prune⟩

/-- **Every turn of the loop is a run of changes**, up to the caches. -/
theorem turn_is_historyRun {c : LoopConfig} {e : TurnEnv} {ctx c' : LoopCtx}
    (h : SameButCache history ctx.state.messages) (hs : loopStep c ctx e = some c') :
    ∃ history', RunUnder historyStep Always history history' ∧ SameButCache history' c'.state.messages :=
  (keptByChanges_reached c history).loopStep ⟨history, refl, h⟩ hs

/-- The start of a run is at most one change. -/
theorem start_is_historyRun {c : LoopConfig} {i : LoopInput} {n : ℕ} {s : LoopState}
    (h : SameButCache history s.messages) : ReachedByChanges history (startRun c i n s).state.messages := by
  have hs : ReachedByChanges history s.messages := ⟨history, refl, h⟩
  unfold startRun
  split_ifs
  · split
    · exact (keptByChanges_reached c history).push _ hs
    · exact (keptByChanges_reached c history).push _ hs
  · exact hs

end XiaoO.Conversation
