import XiaoO.Conversation.AgentLoop

/-!
# Tool results in the history

What the agent loop does with tool results besides recording them: `prune_stale_tool_output`
replaces old outputs by a marker, and `update_tool_streak` counts equal results in a row.

## What is proved

Pruning again changes nothing, and only outputs over 1,000 bytes are replaced, behind 40,000 bytes
that are kept (`prune_idem_local`). A note is given at every third of equal results in a row and at
no other (`note_iff_dvd_runLength`).
-/

namespace XiaoO.Conversation

open List

/-! ### Pruning -/

/-- The bytes of output in a block, unless it is pruned. -/
def ContentBlock.unpruned : ContentBlock → ℕ
  | .toolResult _ _ output _ => if output = prunedMarker then 0 else output.utf8ByteSize
  | _ => 0

/-- The bytes of unpruned output in some blocks. -/
def unprunedBytes (blocks : List ContentBlock) : ℕ := blocks.foldr (fun block n => block.unpruned + n) 0

/-- The blocks in the order in which `prune_stale_tool_output` visits them. -/
def visited (messages : List ChatMessage) : List ContentBlock := messages.reverse.flatMap (·.blocks)

/-- What may become of a block behind `n` bytes of unpruned output. -/
def PrunedTo (n : ℕ) (block block' : ContentBlock) : Prop :=
  block' = block ∨ ∃ callId toolName output isError, block = .toolResult callId toolName output isError ∧
    block' = .toolResult callId toolName prunedMarker isError ∧ 1000 < output.utf8ByteSize ∧ 40000 ≤ n

variable (k : ℕ) (b : ContentBlock) (bs bs' : List ContentBlock) (messages : List ChatMessage)

theorem PrunedTo.mono {n n' : ℕ} {b b' : ContentBlock} (h : PrunedTo n b b') (hn : n ≤ n') : PrunedTo n' b b' :=
  h.imp_right fun ⟨c, t, o, e, hb, hb', hs, hk⟩ => ⟨c, t, o, e, hb, hb', hs, hk.trans hn⟩

theorem pruneBlock_spec : PrunedTo k b (pruneBlock k b).2 ∧
    (pruneBlock k b).1 ≤ k + (pruneBlock k b).2.unpruned := by
  cases b with
  | toolResult c n o e =>
    simp only [pruneBlock]
    split_ifs with hm hk hs
    · exact ⟨.inl rfl, Nat.le_add_right ..⟩
    · exact ⟨.inl rfl, by simp [ContentBlock.unpruned, hm]⟩
    · exact ⟨.inr ⟨c, n, o, e, rfl, rfl, hs, Nat.le_of_not_lt hk⟩, Nat.le_add_right ..⟩
    · exact ⟨.inl rfl, Nat.le_add_right ..⟩
  | _ => exact ⟨.inl rfl, Nat.le_add_right ..⟩

theorem pruneBlock_idem : pruneBlock k (pruneBlock k b).2 = pruneBlock k b := by
  cases b with
  | toolResult c n o e =>
    simp only [pruneBlock]
    split_ifs <;> simp_all
  | _ => rfl

theorem pruneBlocks_idem : pruneBlocks k (pruneBlocks k bs).2 = pruneBlocks k bs := by
  induction bs generalizing k with
  | nil => rfl
  | cons b bs ih => simp only [pruneBlocks, pruneBlock_idem, ih]

theorem length_pruneBlocks : (pruneBlocks k bs).2.length = bs.length := by
  induction bs generalizing k with
  | nil => rfl
  | cons b bs ih => simp [pruneBlocks, ih]

theorem pruneBlocks_append : pruneBlocks k (bs ++ bs') =
      ((pruneBlocks (pruneBlocks k bs).1 bs').1,
        (pruneBlocks k bs).2 ++ (pruneBlocks (pruneBlocks k bs).1 bs').2) := by
  induction bs generalizing k with
  | nil => rfl
  | cons b bs ih => simp [pruneBlocks, ih]

theorem pruneBlocks_spec {i : ℕ} {b c : ContentBlock} (hb : bs[i]? = some b)
    (hc : (pruneBlocks k bs).2[i]? = some c) :
    PrunedTo (k + unprunedBytes ((pruneBlocks k bs).2.take i)) b c := by
  induction bs generalizing k i with
  | nil => cases hb
  | cons a bs ih =>
    obtain ⟨hp, hle⟩ := pruneBlock_spec k a
    cases i with
    | zero =>
      cases hb
      cases hc
      exact hp
    | succ i =>
      refine (ih (pruneBlock k a).1 hb hc).mono ?_
      change _ ≤ k + ((pruneBlock k a).2.unpruned + unprunedBytes ((pruneBlocks (pruneBlock k a).1 bs).2.take i))
      omega

/-- Pruning the messages is pruning their blocks in the order of the visit. -/
theorem pruneBlocks_visited :
    pruneBlocks 0 (visited messages) = ((pruneFrom messages).1, visited (pruneStaleToolOutput messages)) := by
  induction messages with
  | nil => rfl
  | cons m messages ih =>
    simp only [visited, pruneStaleToolOutput, reverse_cons, flatMap_append, flatMap_singleton] at ih ⊢
    simp [pruneBlocks_append, ih, pruneFrom]

theorem pruneFrom_idem : pruneFrom (pruneFrom messages).2 = pruneFrom messages := by
  induction messages with
  | nil => rfl
  | cons m messages ih => simp only [pruneFrom, ih, pruneBlocks_idem]

/-- **Pruning is idempotent and local**: of a message only the blocks change, not their number, and
of a block only the output, if it is long and stands behind enough unpruned output. -/
theorem prune_idem_local :
    pruneStaleToolOutput (pruneStaleToolOutput messages) = pruneStaleToolOutput messages ∧
    (pruneStaleToolOutput messages).map (fun m => ({ m with blocks := [] }, m.blocks.length)) =
      messages.map (fun m => (({ m with blocks := [] } : ChatMessage), m.blocks.length)) ∧
    ∀ i b b', (visited messages)[i]? = some b → (visited (pruneStaleToolOutput messages))[i]? = some b' →
      PrunedTo (unprunedBytes ((visited (pruneStaleToolOutput messages)).take i)) b b' := by
  refine ⟨by rw [pruneStaleToolOutput, pruneStaleToolOutput, pruneFrom_idem], ?_, fun i b b' hb hb' => ?_⟩
  · unfold pruneStaleToolOutput
    induction messages with
    | nil => rfl
    | cons m messages ih => simp only [pruneFrom, map_cons, length_pruneBlocks, ih]
  · have h := pruneBlocks_spec 0 (visited messages) (c := b') hb
    rw [pruneBlocks_visited, Nat.zero_add] at h
    exact h hb'

/-! ### Repeated results -/

variable (s : LoopState) (results : List (ToolUseBlock × ToolOutcome)) (r : ToolUseBlock × ToolOutcome)

/-- What `update_tool_streak` compares results by: their class, the tool, the input and the output
of a success. -/
def resultKey : Bool × CallSignature := (r.2.isFailure, toolCallSignature r.1 r.2)

/-- The length of the run of equal results at the end. -/
def runLength : ℕ :=
  match (results.map resultKey).reverse with
  | [] => 0
  | key :: keys => (keys.takeWhile (· = key)).length + 1

def afterResults : LoopState := results.foldl (fun state r => (updateToolStreak state r.1 r.2).1) { messages }

/-- The last signature of a class and its count. -/
def LoopState.streak : Bool → Option CallSignature × ℕ
  | true => (s.lastFailureSig, s.repeatedFailureCount)
  | false => (s.lastSuccessSig, s.repeatedSuccessCount)

def LoopState.count (key : Bool × CallSignature) : ℕ :=
  if (s.streak key.1).1 = some key.2 then (s.streak key.1).2 + 1 else 1

theorem updateToolStreak_eq : ((updateToolStreak s r.1 r.2).2.isSome ↔ 3 ≤ s.count (resultKey r)) ∧
      ∀ b, (updateToolStreak s r.1 r.2).1.streak b =
        if b = (resultKey r).1 ∧ s.count (resultKey r) < 3 then
          (some (resultKey r).2, s.count (resultKey r)) else (none, 0) := by
  cases hf : r.2.isFailure
  all_goals
    simp only [updateToolStreak, countStreak, LoopState.count, LoopState.streak, resultKey, hf]
    split_ifs <;> simp_all
    omega

/-- The counts of both classes, from the results so far. -/
def Counted : Prop :=
  ∀ b, s.streak b = match results.getLast? with
    | none => (none, 0)
    | some r => if b = (resultKey r).1 ∧ ¬ 3 ∣ runLength results then (some (resultKey r).2, runLength results % 3)
      else (none, 0)

theorem runLength_concat : runLength (results ++ [r]) =
      if results.getLast?.map resultKey = some (resultKey r) then runLength results + 1 else 1 := by
  obtain rfl | ⟨l, x, rfl⟩ := eq_nil_or_concat results
  · rfl
  · by_cases h : resultKey x = resultKey r <;> simp [runLength, h]

variable {s results}

theorem Counted.count_eq (h : Counted s results) :
    s.count (resultKey r) = (runLength (results ++ [r]) - 1) % 3 + 1 := by
  rw [LoopState.count, h, runLength_concat]
  cases results.getLast? with
  | none => simp
  | some x =>
    by_cases hk : resultKey x = resultKey r
    · by_cases h3 : 3 ∣ runLength results
      · simp [hk, h3, Nat.mod_eq_zero_of_dvd h3]
      · simp [hk, h3]
    · -- what was counted is another class or another signature of this one
      have hn : (resultKey r).1 = (resultKey x).1 → (resultKey x).2 ≠ (resultKey r).2 :=
        fun h1 h2 => hk (Prod.ext h1.symm h2)
      simp only [Option.map_some, Option.some.injEq, hk, if_false]
      split_ifs <;> simp_all

variable (results)

theorem counted_afterResults : Counted (afterResults messages results) results := by
  induction results using reverseRecOn with
  | nil => rintro (_ | _) <;> rfl
  | append_singleton l r ih =>
    intro b
    have hp := runLength_concat l r
    have hd : (runLength (l ++ [r]) - 1) % 3 + 1 < 3 ↔ ¬ 3 ∣ runLength (l ++ [r]) := by
      split_ifs at hp <;> omega
    rw [afterResults, foldl_concat, ← afterResults, (updateToolStreak_eq _ r).2 b, ih.count_eq r, getLast?_concat]
    simp only [hd]
    split_ifs with h3
    · congr 1
      omega
    · rfl

/-- **A note is given at every third of equal results in a row, and at no other.** -/
theorem note_iff_dvd_runLength :
    (updateToolStreak (afterResults messages results) r.1 r.2).2.isSome ↔ 3 ∣ runLength (results ++ [r]) := by
  have hp := runLength_concat results r
  rw [(updateToolStreak_eq _ r).1, (counted_afterResults messages results).count_eq r]
  split_ifs at hp <;> omega

end XiaoO.Conversation
