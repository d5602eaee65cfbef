import XiaoO.Conversation.ToolPairing

/-!
# How much a run may do

A run of the agent loop goes on as long as `decide` says so: for tool calls, and for open items of
the plan. Within a turn the model may be called again, when the context was too long and when the
answer is a lone invalid call. This module bounds all of this, whatever the model, the tools and the
hooks do.

## What is proved

If `max_turns` is positive, a run has at most so many turns and then has ended, every turn sends at
most four requests, and the reminder of the open plan items is added at most once (`run_bounded`).

The changes of a turn send at most four requests (`sends_turnChanges`); the number of the turn and
the mark of the reminder change only where a turn ends.
-/

namespace XiaoO.Conversation

open XiaoO.Base List

variable {cfg : LoopConfig} {env : TurnEnv} {ctx ctx' : LoopCtx}

/-! ### The turns of a run -/

structure Turn where
  before : LoopCtx
  env : TurnEnv
  after : LoopCtx

/-- The turns of a run. What the environment would answer after the end of the run is not asked
for. -/
def turnsOf (cfg : LoopConfig) : LoopCtx → List TurnEnv → List Turn
  | _, [] => []
  | ctx, env :: envs =>
    match loopStep cfg ctx env with
    | none => []
    | some ctx' => ⟨ctx, env, ctx'⟩ :: turnsOf cfg ctx' envs

/-- Where the turns lead to. -/
def endOf (cfg : LoopConfig) : LoopCtx → List TurnEnv → LoopCtx
  | ctx, [] => ctx
  | ctx, env :: envs =>
    match loopStep cfg ctx env with
    | none => ctx
    | some ctx' => endOf cfg ctx' envs

def Turn.requests (t : Turn) : ℕ := t.after.sent.length - t.before.sent.length

/-- `decide` adds the reminder of the open plan items to the history. -/
def addsReminder (cfg : LoopConfig) (env : TurnEnv) (ctx : LoopCtx) : Bool :=
  (decideTurn cfg env ctx).2.state.messages ≠ ctx.state.messages

def Turn.reminded (cfg : LoopConfig) (t : Turn) : Bool :=
  match (turnBody cfg t.env).exec t.before.newTurn with
  | (.ok [], ctx) => addsReminder cfg t.env ctx
  | _ => false

/-! ### Requests -/

/-- At most `n` requests are sent, and neither the number of the turn nor the mark of the reminder
changes. -/
structure Sends (n : ℕ) (ctx ctx' : LoopCtx) : Prop where
  sent : ctx'.sent.length ≤ ctx.sent.length + n
  number : ctx'.turnNumber = ctx.turnNumber
  mark : ctx'.state.planNudged = ctx.state.planNudged

theorem sends_turnChanges (cfg : LoopConfig) : TurnChanges cfg Sends where
  refl n ctx := ⟨Nat.le_add_right _ n, rfl, rfl⟩
  trans h h' := ⟨by have := h.sent; have := h'.sent; omega, h'.number.trans h.number, h'.mark.trans h.mark⟩
  push _ _ := ⟨Nat.le_refl _, rfl, rfl⟩
  pop _ := ⟨Nat.le_refl _, rfl, rfl⟩
  compressed _ := ⟨Nat.le_refl _, rfl, rfl⟩
  streak ctx call outcome := by
    refine ⟨Nat.le_refl _, rfl, ?_⟩
    simp only [updateToolStreak]
    split_ifs <;> rfl
  send ctx := by
    refine ⟨?_, rfl, rfl⟩
    cases ctx.request <;> simp
  note _ _ _ _ := ⟨Nat.le_refl _, rfl, rfl⟩

/-! ### The end of a turn -/

theorem decideTurn_cases (cfg : LoopConfig) (env : TurnEnv) (ctx : LoopCtx) : (decideTurn cfg env ctx).2 = ctx ∧
        ((decideTurn cfg env ctx).1 = .continueLoop → 0 < cfg.maxTurns → ctx.turnNumber < cfg.maxTurns) ∨
      ctx.state.planNudged = false ∧ ctx.turnNumber < cfg.maxTurns ∧ (decideTurn cfg env ctx).1 = .continueLoop ∧
        (decideTurn cfg env ctx).2 = LoopCtx.push { ctx with state := { ctx.state with planNudged := true } }
          (.user (planReminder env.openTodos)) := by
  unfold decideTurn
  split_ifs with _ _ hl _ hn
  · exact .inl ⟨rfl, nofun⟩
  · exact .inl ⟨rfl, nofun⟩
  · exact .inl ⟨rfl, nofun⟩
  · simp only [Bool.and_eq_true, decide_eq_true_eq, not_and, not_le] at hl
    exact .inl ⟨rfl, fun _ => hl⟩
  · simp only [nudges, Bool.and_eq_true, Bool.not_eq_true', decide_eq_true_eq] at hn
    exact .inr ⟨hn.1.1.1, hn.1.1.2, rfl, rfl⟩
  · exact .inl ⟨rfl, nofun⟩

/-- What a turn of a run comes to: it has the budget of its body, and the run ends or goes on with
the next number. -/
structure Stepped (cfg : LoopConfig) (t : Turn) : Prop where
  requests : t.after.sent.length ≤ t.before.sent.length + 4
  goesOn : t.after.finished = none →
    t.after.turnNumber = t.before.turnNumber + 1 ∧ (0 < cfg.maxTurns → t.before.turnNumber < cfg.maxTurns)
  marked : t.before.state.planNudged = true → t.after.state.planNudged = true
  reminded : t.reminded cfg = true → t.before.state.planNudged = false ∧ t.after.state.planNudged = true

theorem endTurn_spec (cfg : LoopConfig) (env : TurnEnv) (ctx : LoopCtx) :
    (endTurn cfg env ctx).sent = (decideTurn cfg env ctx).2.sent ∧
      (endTurn cfg env ctx).state.planNudged = (decideTurn cfg env ctx).2.state.planNudged ∧
      ((endTurn cfg env ctx).finished = none → (decideTurn cfg env ctx).1 = .continueLoop ∧
        (endTurn cfg env ctx).turnNumber = (decideTurn cfg env ctx).2.turnNumber + 1) := by
  unfold endTurn
  cases hd : (decideTurn cfg env ctx).1 with
  | continueLoop | returnComplete | returnMaxTurns | returnCancelled => simp [hd]

theorem stepped_of_loopStep (h : loopStep cfg ctx env = some ctx') : Stepped cfg ⟨ctx, env, ctx'⟩ := by
  obtain ⟨hc, hnm, hmr⟩ := (sends_turnChanges cfg).within_turnBody env ctx.newTurn
  rcases (loopStep_cases h).2 with ⟨e, body, hb, rfl⟩ | ⟨body, hb, rfl⟩ | ⟨s, body, hne, hb, rfl⟩
  all_goals rw [hb] at hnm hmr hc
  · exact ⟨hc, nofun, fun hm => hmr.trans hm, fun hr => by simp [Turn.reminded, hb] at hr⟩
  · obtain ⟨hs, hn, hg⟩ := endTurn_spec cfg env body
    have hrm : Turn.reminded cfg ⟨ctx, env, endTurn cfg env body⟩ = addsReminder cfg env body := by
      simp [Turn.reminded, hb]
    rcases decideTurn_cases cfg env body with ⟨hsm, hl⟩ | ⟨hbf, hl, hgo, ha⟩
    · rw [hsm] at hs hn hg
      refine ⟨hs ▸ hc, fun hnn => ?_, fun hm => hn.trans (hmr.trans hm), fun hr => ?_⟩
      · obtain ⟨hgo, hnx⟩ := hg hnn
        exact ⟨hnx.trans (congrArg (· + 1) hnm), fun hp => hnm ▸ hl hgo hp⟩
      · rw [hrm, addsReminder, hsm] at hr
        simp at hr
    · rw [ha] at hs hn hg
      refine ⟨hs ▸ hc, fun hnn => ?_, fun hm => hn, fun _ => ⟨hmr.symm.trans hbf, hn⟩⟩
      obtain ⟨-, hnx⟩ := hg hnn
      exact ⟨hnx.trans (congrArg (· + 1) hnm), fun _ => hnm ▸ hl⟩
  · exact ⟨hc, nofun, fun hm => hmr.trans hm, fun hr => by simp_all [Turn.reminded]⟩

/-! ### Runs -/

theorem loopStep_eq_none (h : loopStep cfg ctx env = none) : ctx.finished.isSome := by
  unfold loopStep at h
  split_ifs at h with hf
  · exact hf
  · split at h <;> cases h

theorem stepped_of_mem {es : List TurnEnv} {t : Turn} (h : t ∈ turnsOf cfg ctx es) : Stepped cfg t := by
  induction es generalizing ctx with
  | nil => cases h
  | cons env es ih =>
    rw [turnsOf] at h
    split at h
    · cases h
    · rename_i ctx' hs
      rcases mem_cons.mp h with rfl | h
      · exact stepped_of_loopStep hs
      · exact ih h

/-- The number of the turn bounds what is left of the run. -/
theorem turnNumber_add_length_le (hp : 0 < cfg.maxTurns) (ctx : LoopCtx) (es : List TurnEnv)
    (hc : ctx.finished = none → ctx.turnNumber ≤ cfg.maxTurns) (ho : ctx.turnNumber ≤ cfg.maxTurns + 1) :
    ctx.turnNumber + (turnsOf cfg ctx es).length ≤ cfg.maxTurns + 1 ∧
      (cfg.maxTurns + 1 ≤ ctx.turnNumber + es.length → (endOf cfg ctx es).finished.isSome) := by
  induction es generalizing ctx with
  | nil =>
    refine ⟨ho, fun hl => ?_⟩
    rw [Option.isSome_iff_ne_none]
    intro hn
    have hle := hc hn
    simp only [length_nil] at hl
    omega
  | cons env es ih =>
    rw [turnsOf, endOf]
    split
    · rename_i hs
      exact ⟨ho, fun _ => loopStep_eq_none hs⟩
    · rename_i ctx' hs
      have hst := stepped_of_loopStep hs
      have hb := hc (loopStep_cases hs).1
      cases hf : ctx'.finished with
      | none =>
        obtain ⟨hnx, hls⟩ := hst.goesOn hf
        have hlt := hls hp
        dsimp only at hnx hlt
        obtain ⟨hln, he⟩ := ih ctx' (fun _ => by omega) (by omega)
        rw [length_cons, length_cons]
        exact ⟨by omega, fun hl => he (by omega)⟩
      | some =>
        have hnl : ∀ es, turnsOf cfg ctx' es = [] ∧ endOf cfg ctx' es = ctx'
          | [] => ⟨rfl, rfl⟩
          | env :: es => by
            have hn : loopStep cfg ctx' env = none := by simp [loopStep, hf]
            simp [turnsOf, endOf, hn]
        obtain ⟨ht, hen⟩ := hnl es
        rw [ht, hen, hf]
        exact ⟨by simp only [length_cons, length_nil]; omega, fun _ => rfl⟩

/-- The reminder is added at most once, and not at all after it has been. -/
theorem reminded_le_one (ctx : LoopCtx) (es : List TurnEnv) :
    ((turnsOf cfg ctx es).filter (Turn.reminded cfg)).length ≤ if ctx.state.planNudged then 0 else 1 := by
  induction es generalizing ctx with
  | nil => exact Nat.zero_le _
  | cons env es ih =>
    rw [turnsOf]
    split
    · exact Nat.zero_le _
    · rename_i ctx' hst
      have hs := stepped_of_loopStep hst
      have hrs := ih ctx'
      rw [filter_cons]
      split_ifs with hr hm hm
      · rw [(hs.reminded hr).1] at hm
        cases hm
      · rw [(hs.reminded hr).2, if_pos rfl] at hrs
        rw [length_cons]
        omega
      · rwa [hs.marked hm, if_pos rfl] at hrs
      · refine hrs.trans ?_
        split_ifs <;> omega

/-- **The bounds of a run**: it has ended after `max_turns` turns at most, each of which sends at
most four requests, and at most one of which ends with the reminder of the open plan items. -/
theorem run_bounded (cfg : LoopConfig) (hpos : 0 < cfg.maxTurns) (input : LoopInput) (now : ℕ) (state : LoopState)
    (envs : List TurnEnv) : (turnsOf cfg (startRun cfg input now state) envs).length ≤ cfg.maxTurns ∧
      (cfg.maxTurns ≤ envs.length → (endOf cfg (startRun cfg input now state) envs).finished.isSome) ∧
      (∀ t ∈ turnsOf cfg (startRun cfg input now state) envs, t.requests ≤ 4) ∧
      ((turnsOf cfg (startRun cfg input now state) envs).filter (Turn.reminded cfg)).length ≤ 1 := by
  have hs : (startRun cfg input now state).turnNumber = 1 := by
    unfold startRun
    split_ifs
    · split <;> rfl
    · rfl
  obtain ⟨hl, he⟩ := turnNumber_add_length_le hpos (startRun cfg input now state) envs
    (fun _ => by omega) (by omega)
  refine ⟨by omega, fun hln => he (by omega), fun t ht => ?_, (reminded_le_one _ envs).trans ?_⟩
  · have hr := (stepped_of_mem ht).requests
    rw [Turn.requests]
    omega
  · split_ifs <;> omega

/-- A turn in which the provider refuses the length of both first requests, and answers first with a
call without a tool name and then with a text; one plan item is open. -/
def fullTurn : TurnEnv :=
  let refused (env : RecoveryEnv) : RecoveryEnv := { env with first := ⟨false, .contextLengthExceeded "too long"⟩ }
  let turn := quietTurn { toolCalls := [⟨"c1", "", "*"⟩] } { text := some "There is one file." }
  { turn with llm := refused turn.llm, retry := refused turn.retry, openTodos := ["- write the tests"] }

/-- Both bounds are met: a turn of four requests that ends with the reminder, after which the same
turn ends the run. -/
theorem run_bounded_full_turn :
    ((turnsOf (oneToolConfig (some "main")) (startRun (oneToolConfig (some "main")) (plainInput "list the files") 0
        { messages := [] }) [fullTurn, fullTurn, fullTurn]).map
      fun t => (t.requests, t.reminded (oneToolConfig (some "main")))) = [(4, true), (4, false)] ∧
    (turnsOf (oneToolConfig (some "main")) (startRun (oneToolConfig (some "main")) (plainInput "list the files") 0
        { messages := [] }) [fullTurn, fullTurn, fullTurn]).length ≤ (oneToolConfig (some "main")).maxTurns :=
  ⟨by decide +kernel, (run_bounded (oneToolConfig (some "main")) (by decide) (plainInput "list the files") 0
    { messages := [] } [fullTurn, fullTurn, fullTurn]).1⟩

end XiaoO.Conversation
