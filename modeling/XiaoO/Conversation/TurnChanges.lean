import XiaoO.Conversation.AgentLoop

/-!
# The changes of a turn

What a turn of the agent loop does to the state, as a sequence of single changes: a message is
appended or taken back, the history is compressed, a request is built, sent and answered.

## What is proved

A condition that the parts of the request phase keep holds after it, with the answers that were
asked for (`RequestKept.triple_requestPhase`), and when it fails, with some of them.

A relation that each change keeps, where a request costs one and all else nothing, holds between the
beginning and the end of a turn at the cost four (`TurnChanges.within_turnBody`), whatever the
model, the tools and the hooks do.
-/

namespace XiaoO.Conversation

open XiaoO.Base List

/-! ### The request phase -/

/-- The answer of one call of the model, if the call is made. -/
def LlmEnv.asked (env : LlmEnv) : List LlmAnswer := if env.cancelled then [] else [env.answer]

/-- The call is made and refused for the length of the context. -/
def LlmEnv.refused (env : LlmEnv) : Bool :=
  !env.cancelled && match env.answer with
    | .contextLengthExceeded _ => true
    | _ => false

variable (env : RecoveryEnv)

/-- The answers of `llm_call_with_recovery`, in the order of the requests. -/
def RecoveryEnv.answers : List LlmAnswer :=
  env.first.asked ++ if env.first.refused then env.second.asked else []

theorem RecoveryEnv.length_answers_le : env.answers.length ≤ 2 := by
  have ha : ∀ e : LlmEnv, e.asked.length ≤ 1 := by
    intro e
    unfold LlmEnv.asked
    split_ifs <;> simp
  have hf := ha env.first
  have hs := ha env.second
  rw [RecoveryEnv.answers, length_append]
  split_ifs
  · omega
  · rw [length_nil]
    omega

/-- A condition that the parts of the request phase keep, on whether a request has been built, on
the answers so far and on the context. -/
structure RequestKept (cfg : LoopConfig) (P : Bool → List LlmAnswer → LoopCtx → Prop) : Prop where
  compressed : ∀ {ready answers ctx env messages cmeta}, P ready answers ctx →
    cfg.pipeline.compress env ctx.state.messages ctx.state.compressionMeta = .ok (messages, cmeta) →
    P ready answers { ctx with
      state := { ctx.state with messages := pruneStaleToolOutput messages, compressionMeta := cmeta } }
  built : ∀ {ready answers ctx} env, P ready answers ctx →
    P true answers { ctx with request := some (requestMessages env ctx.state.messages) }
  sent : ∀ {answers ctx} answer, P true answers ctx →
    P true (answers ++ [answer]) { ctx with sent := ctx.sent ++ ctx.request.toList }
  heard : ∀ {answers ctx answer}, P true answers ctx → answer ∈ answers →
    P true answers { ctx with assistantMessage := answer.message?.or ctx.assistantMessage }

/-- The condition holds with some of the answers. -/
def Failed (P : Bool → List LlmAnswer → LoopCtx → Prop) (answers : List LlmAnswer) (ctx : LoopCtx) : Prop :=
  ∃ ready before, before <+: answers ∧ P ready before ctx

namespace RequestKept

variable {cfg : LoopConfig} {P : Bool → List LlmAnswer → LoopCtx → Prop} {r : Bool} {a as : List LlmAnswer}
  (h : RequestKept cfg P)
include h

theorem triple_compress (ha : a <+: as) (env : CompressEnv) (f : Bool) :
    Triple (P r a) (compress cfg env f) (fun _ => P r a) (Failed P as) := by
  refine triple_ite (fun _ => triple_pure fun _ hs => hs) fun _ => triple_get_bind fun ctx hc => ?_
  cases hr : cfg.pipeline.compress env ctx.state.messages ctx.state.compressionMeta with
  | error => exact triple_throw fun _ hs => ⟨r, a, ha, hs ▸ hc⟩
  | ok =>
    refine triple_modify fun _ hs => ?_
    subst hs
    exact h.compressed hc hr

theorem triple_buildMessages (ha : a <+: as) (env : BuildEnv) :
    Triple (P r a) (buildMessages cfg env) (fun _ => P true a) (Failed P as) := by
  refine triple_get_bind fun ctx hc => ?_
  dsimp only
  split
  · exact triple_throw fun _ hs => ⟨r, a, ha, hs ▸ hc⟩
  · refine triple_modify fun _ hs => ?_
    subst hs
    exact h.built env hc

/-- A call of the model is one request, if it is made at all. -/
theorem triple_llmCall {env : LlmEnv} (ha : a ++ env.asked <+: as) : Triple (P true a) (llmCall env)
      (fun r ctx => r.isSome = env.refused ∧ P true (a ++ env.asked) ctx) (Failed P as) := by
  cases hc : env.cancelled with
  | true =>
    refine triple_ite (fun _ => triple_pure fun ctx hct => ⟨by simp [LlmEnv.refused, hc], ?_⟩)
      fun hn => absurd hc hn
    simpa [LlmEnv.asked, hc] using hct
  | false =>
    have hasked : a ++ env.asked = a ++ [env.answer] := by simp [LlmEnv.asked, hc]
    refine triple_ite (fun hp => absurd hp (by simp [hc])) fun _ => ?_
    refine triple_bind (triple_modify (Q := fun _ => P true (a ++ env.asked))
      fun ctx hct => hasked ▸ h.sent env.answer hct) fun _ => ?_
    split
    · rename_i hl
      exact triple_pure fun ctx hct => ⟨by simp [LlmEnv.refused, hc, hl], hct⟩
    · exact triple_throw fun ctx hct => ⟨true, _, ha, hct⟩
    · rename_i hl _
      have hr : env.refused = false := by
        rw [LlmEnv.refused, hc]
        cases hn : env.answer with
        | contextLengthExceeded m => exact absurd hn (hl m)
        | response | cancelledMidway | failed => rfl
      refine triple_bind (triple_modify (Q := fun _ => P true (a ++ env.asked))
        fun ctx hct => h.heard hct (by simp [hasked])) fun _ => triple_pure fun ctx hct => ⟨?_, hct⟩
      rw [hr]
      rfl

theorem triple_llmCallWithRecovery : Triple (P true a) (llmCallWithRecovery cfg env)
      (fun _ => P true (a ++ env.answers)) (Failed P (a ++ env.answers)) := by
  have hf : a ++ env.first.asked <+: a ++ env.answers :=
    (prefix_append_right_inj _).mpr (prefix_append _ _)
  refine triple_bind (h.triple_llmCall hf) fun r => triple_of_imp fun hr => ?_
  cases r with
  | none =>
    have ha : env.answers = env.first.asked := by simp [RecoveryEnv.answers, ← hr]
    exact triple_pure fun _ hs => ha ▸ hs
  | some =>
    have ha : a ++ env.answers = a ++ env.first.asked ++ env.second.asked := by
      simp [RecoveryEnv.answers, ← hr]
    refine triple_bind (h.triple_compress hf _ _) fun _ => triple_bind (h.triple_buildMessages hf _) fun _ => ?_
    refine triple_bind (h.triple_llmCall (ha ▸ prefix_rfl)) fun r => triple_of_imp fun _ => ?_
    cases r with
    | none => exact triple_pure fun _ hs => ha ▸ hs
    | some => exact triple_throw fun _ hs => ⟨true, _, ha ▸ prefix_rfl, hs⟩

/-- **The request phase keeps the condition**, if the user messages of the turn do. -/
theorem triple_requestPhase {env : TurnEnv} (hp : ∀ message ∈ env.pending, ∀ ctx, P false [] ctx →
      P false [] (ctx.push (userTurnMessage cfg env.now message))) :
    Triple (P false []) (requestPhase cfg env) (fun _ => P true env.llm.answers) (Failed P env.llm.answers) := by
  have hn : [] <+: env.llm.answers := nil_prefix
  have hd : Triple (P false []) (drainPendingUserMessages cfg env) (fun _ => P false [])
    (Failed P env.llm.answers) :=
    triple_forM fun message hm => triple_ite (fun _ => triple_pure fun _ hs => hs) fun _ =>
      triple_modify fun ctx hc => hp message hm ctx hc
  have hc : Triple (P true []) (preCheckTokenBudget cfg env) (fun _ => P true []) (Failed P env.llm.answers) :=
    triple_ite (fun _ => triple_bind (h.triple_compress hn _ _) fun _ => h.triple_buildMessages hn _)
      fun _ => triple_pure fun _ hs => hs
  exact triple_bind hd fun _ => triple_bind (h.triple_compress hn _ _) fun _ =>
    triple_bind (h.triple_buildMessages hn _) fun _ => triple_bind hc fun _ => h.triple_llmCallWithRecovery _

end RequestKept

/-! ### The turn -/

/-- A relation with a cost that the single changes of a turn keep. -/
structure TurnChanges (cfg : LoopConfig) (R : ℕ → LoopCtx → LoopCtx → Prop) : Prop extends Graded R where
  push : ∀ ctx message, R 0 ctx (ctx.push message)
  pop : ∀ ctx, R 0 ctx (ctx.setMessages ctx.state.messages.dropLast)
  compressed : ∀ {ctx env messages cmeta},
    cfg.pipeline.compress env ctx.state.messages ctx.state.compressionMeta = .ok (messages, cmeta) →
    R 0 ctx { ctx with
      state := { ctx.state with messages := pruneStaleToolOutput messages, compressionMeta := cmeta } }
  streak : ∀ ctx call outcome, R 0 ctx { ctx with state := (updateToolStreak ctx.state call outcome).1 }
  send : ∀ ctx, R 1 ctx { ctx with sent := ctx.sent ++ ctx.request.toList }
  /-- What the turn keeps for itself. -/
  note : ∀ (ctx : LoopCtx) request assistantMessage forceReturnComplete,
    R 0 ctx { ctx with request, assistantMessage, forceReturnComplete }

namespace TurnChanges

variable {cfg : LoopConfig} {e : TurnEnv} {R : ℕ → LoopCtx → LoopCtx → Prop} (h : TurnChanges cfg R)
include h

theorem requestKept (s : LoopCtx) : RequestKept cfg fun _ answers ctx => R answers.length s ctx where
  compressed hr hc := h.trans hr (h.compressed hc)
  built _ hr := h.trans hr (h.note _ _ _ _)
  sent _ hr := by
    rw [length_append]
    exact h.trans hr (h.send _)
  heard hr _ := h.trans hr (h.note _ _ _ _)

/-- As many requests as there are answers. -/
theorem within {α : Type} {m : LoopM α} {a : List LlmAnswer} {n : ℕ} (hn : a.length ≤ n)
    (hm : ∀ s, Triple (R 0 s) m (fun _ => R a.length s) (Failed (fun _ as => R as.length s) a)) : Within R n m := by
  have hg : ∀ {k s t}, k ≤ n → R k s t → R n s t := by
    intro k s t hk hr
    have ht := h.trans hr (h.refl (n - k) t)
    rwa [Nat.add_sub_cancel' hk] at ht
  intro s
  refine Triple.exec (E := R n s) ((hm s).conseq (fun _ hr => hr) (fun _ _ hr => hg hn hr) ?_) (h.refl 0 s)
  rintro t ⟨-, as, ha, hr⟩
  exact hg (ha.length_le.trans hn) hr

theorem within_buildMessages (env : BuildEnv) : Within R 0 (buildMessages cfg env) :=
  h.within (a := []) (Nat.le_refl 0) fun s =>
    (h.requestKept s).triple_buildMessages (r := true) (@prefix_rfl _ []) env

theorem within_llmCallWithRecovery : Within R 2 (llmCallWithRecovery cfg env) :=
  h.within env.length_answers_le fun s => (h.requestKept s).triple_llmCallWithRecovery (a := []) env

theorem within_requestPhase : Within R 2 (requestPhase cfg e) :=
  h.within e.llm.length_answers_le fun s => (h.requestKept s).triple_requestPhase fun _ _ c hr =>
    h.trans hr (h.push c _)

theorem within_normalizedToolCalls : Within R 0 (normalizedToolCalls cfg) := by
  refine within_get_bind fun c => ?_
  split
  · exact h.refl 0 c
  · exact h.note c _ _ _

theorem within_retryInvalidToolCall (i : ToolUseBlock) : Within R 2 (retryInvalidToolCall cfg e i) := by
  refine Within.bind_of_zero h.toGraded (fun c => h.push c _) fun _ => ?_
  refine Within.bind h.toGraded (n := 2) (k := 0) ?_ fun r => ?_
  · refine Within.attempt (Within.bind_of_zero h.toGraded (h.within_buildMessages e.retryBuild).attempt fun b => ?_)
    cases b with
    | error => exact within_throw h.toGraded _
    | ok => exact h.within_llmCallWithRecovery _
  · refine Within.bind_of_zero h.toGraded h.pop fun _ => ?_
    cases r with
    | error => exact within_throw h.toGraded _
    | ok => exact within_pure h.toGraded _

theorem appended (n : ℕ) (c : LoopCtx) : R 0 c (appendAssistantToHistory n c) := by
  unfold appendAssistantToHistory
  split
  · exact h.refl 0 c
  · exact h.push c _

theorem within_processLlmToolCalls : Within R 2 (processLlmToolCalls cfg e) := by
  have hc : Within R 2 (callsAfterRetry cfg e) := by
    refine h.within_normalizedToolCalls.bind_of_zero h.toGraded fun cs => ?_
    split
    · exact (h.within_retryInvalidToolCall _).bind h.toGraded fun _ => h.within_normalizedToolCalls
    · exact within_pure h.toGraded _
  refine hc.bind h.toGraded (k := 0) fun _ => Within.bind_of_zero h.toGraded (fun c => ?_) fun _ =>
    within_pure h.toGraded _
  exact h.trans (h.note c _ _ _) (h.appended e.now _)

theorem recorded (rs : List (ToolUseBlock × ToolOutcome)) (ctx : LoopCtx) :
    R 0 ctx (recordToolResults cfg e rs ctx).1 := by
  have hb : ∀ b : Batch, R 0 { ctx with state := b.state }
      { ctx with state := (rs.foldl (recordToolResult cfg e) b).state } := by
    intro b
    induction rs generalizing b with
    | nil => exact h.refl 0 _
    | cons r rs ih =>
      refine h.trans (k := 0) ?_ (ih _)
      obtain ⟨c, o⟩ := r
      have hr := h.trans (h.push { ctx with state := b.state } (buildToolResultMessage e c o))
        (h.streak _ c o)
      cases o with
      | suspended => exact h.refl 0 _
      | success | error | failed | denied => exact hr
  refine h.trans (k := 0) (hb { state := ctx.state }) ?_
  simp only [recordToolResults]
  split_ifs
  · split
    · exact h.trans (h.note _ _ _ _) (h.push _ _)
    · exact h.note _ _ _ _
  · exact h.refl 0 _

/-- **The changes of a turn**, with at most four requests among them. -/
theorem within_turnBody (env : TurnEnv) : Within R 4 (turnBody cfg env) := by
  refine h.within_requestPhase.bind h.toGraded (k := 2) fun _ => within_get_bind fun c => ?_
  split
  · exact h.refl 2 c
  · split_ifs
    · refine Within.bind h.toGraded (k := 0) h.within_processLlmToolCalls (fun cs c => ?_) c
      exact h.recorded _ c
    · exact h.trans (h.refl 2 c) (h.appended env.now c)

end TurnChanges

end XiaoO.Conversation
