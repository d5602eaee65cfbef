import XiaoO.Gateway.Supervisor

/-!
# Pending joins

The joins of a session are kept in three places: their records in the session, under its
mutex; their waiters, under the mutex of the pending joins; and the calls that have still to
register or to wake a waiter. No lock is held over two of them.

## What is proved

They agree in every state of every run (`Board.start`, `Board.step`): a join is registered
at most once and woken at most once, by one call; the sender of a waiter is there as long as
nothing was sent; and so a wake never finds its sender used up (`Board.onJoins_wake`).
-/

namespace XiaoO.Gateway

open XiaoO.Base XiaoO.Subagent XiaoO.Backend List Function SortedMap Threads

variable {ι : Type} [DecidableEq ι]

/-! ### What an instruction does to the joins -/

/-- **What an instruction does to the joins**: nothing; it opens a join; it ends an agent; or
it works on the waiters. -/
inductive JoinEffect (env : Env) (s t : Shared) : Instr → Next → Prop where
  | quiet {x : Instr} {next : Next} (joins : t.session.subagentState.joins = s.session.subagentState.joins)
      (agents : t.session.subagentState.agents = s.session.subagentState.agents) (waiters : t.waiters = s.waiters)
      (push : ∀ y ∈ next.push, y.woken? = none ∧ y.registered? = none)
      (undecided : ∀ joinId push, next ≠ .decide (.pending joinId) push)
      (unmarked : ∀ agentId ∈ x.marked?, s.session.agents.get? agentId = none ∨
        s.session.subagentState.agents.get? agentId = none) :
      JoinEffect env s t x next
  | opened {request : JoinSubagentRequest} {target : SubagentRecord}
      (fresh : s.session.subagentState.joins.get? env.joinId = none)
      (known : s.session.subagentState.agents.get? request.targetAgentId = some target)
      (running : target.status.isTerminal = false)
      (joins : t.session.subagentState.joins =
        s.session.subagentState.joins.insert env.joinId (openedJoin request env.nowMs env.joinId))
      (agents : t.session.subagentState.agents = s.session.subagentState.agents) (waiters : t.waiters = s.waiters) :
      JoinEffect env s t (.session (.join request)) (.decide (.pending env.joinId)
        [.save t.session, .session (.ensureSessionMatch request.sessionId), .joins (.register env.joinId)])
  | ended {agentId : AgentId} {terminal : SubagentTerminalSnapshot} {lastError : Option String}
      {item : SubagentMailboxItem}
      (state : t.session.subagentState = recordTerminal s.session.subagentState agentId terminal)
      (waiters : t.waiters = s.waiters) :
      JoinEffect env s t (.session (.markTerminal agentId terminal lastError)) (.goOn (.save t.session ::
        .session .readSessionId :: .session (.enqueueMailboxItem item) ::
        (wakeActions s.session.subagentState agentId terminal).map hostInstr))
  | waited {y : JoinInstr} (shared : t = { s with waiters := (onJoins s.waiters y).1 }) :
      JoinEffect env s t (.joins y) (onJoins s.waiters y).2

variable {env : Env} {next : Next} {s t : Shared} {session : SessionRecord} {a : AgentId} {x : Instr}
  {j : String} {st : SubagentSessionState}

theorem joinEffect_join {r : JoinSubagentRequest} (h : onSession env s.session (.join r) = some (session, next)) :
    JoinEffect env s { s with session } (.session (.join r)) next := by
  rw [onSession] at h
  split at h
  · cases h
  · next hf =>
    split at h
    · cases h
      exact .quiet rfl rfl rfl (by simp) (by simp) (by simp)
    · next t d hj =>
      cases h
      obtain ⟨st, hd, rfl⟩ := SessionRecord.joinSubagent_ok hj
      rcases join_ok hd with ⟨tr, rfl, rfl⟩ | ⟨ta, hk, hr, rfl, rfl⟩
      · exact .quiet rfl rfl rfl (by simp) (by simp)
          (by simp)
      · exact .opened (by simpa using hf) hk hr rfl rfl rfl

theorem joinEffect_markTerminal {tr : SubagentTerminalSnapshot} {l : Option String}
    (h : onSession env s.session (.markTerminal a tr l) = some (session, next)) :
    JoinEffect env s { s with session } (.session (.markTerminal a tr l)) next := by
  rw [onSession] at h
  split at h
  · next hm =>
    cases h
    rcases SessionRecord.markSubagentTerminal_error hm with ⟨hl, rfl⟩ | ⟨-, hu, hs⟩
    · exact .quiet rfl rfl rfl (by simp) (by simp) (by simp [hl])
    · exact .quiet (by rw [hs]) (by rw [hs]) rfl (by simp) (by simp)
        (by simp [hu])
  · next hm =>
    cases h
    obtain ⟨hs, i, rfl⟩ := SessionRecord.markSubagentTerminal_ok hm
    exact .ended hs rfl

/-- The critical sections that leave the subagents alone. -/
theorem joinEffect_session {x : SessionInstr} (h : onSession env s.session x = some (session, next)) :
    JoinEffect env s { s with session } (.session x) next := by
  cases x with rw [onSession] at h
  | join => exact joinEffect_join h
  | markTerminal => exact joinEffect_markTerminal h
  | ensureSessionMatch | loadLane =>
    split at h <;> cases h <;> exact .quiet rfl rfl rfl (by simp) (by simp) (by simp)
  | persist =>
    split at h
    · cases h
      exact .quiet rfl rfl rfl (by simp) (by simp) (by simp)
    · next hp =>
      cases h
      have hs := (keeps_persistLaneState hp).2
      exact .quiet (by rw [hs]) (by rw [hs]) rfl (by simp)
        (by simp) (by simp)
  | leaseSnapshot =>
    split at h <;> cases h <;>
      exact .quiet rfl rfl rfl (by simp) (by simp) (by simp)
  | syncBackend =>
    split at h
    · cases h
      exact .quiet rfl rfl rfl (by simp) (by simp) (by simp)
    · next hsy =>
      cases h
      have hs := (keeps_syncBackendInstance hsy).2
      exact .quiet (by rw [hs]) (by rw [hs]) rfl (by simp)
        (by simp) (by simp)
  | _ =>
    cases h
    exact .quiet rfl rfl rfl (by simp) (by simp) (by simp)

theorem exec_joinEffect (h : exec env s x = some (t, next)) : JoinEffect env s t x next := by
  cases x with
  | session =>
    obtain ⟨⟨session, next⟩, ho, heq⟩ := Option.map_eq_some_iff.mp h
    cases heq
    exact joinEffect_session ho
  | joins =>
    cases h
    exact .waited rfl
  | flow y =>
    obtain ⟨_, hf, heq⟩ := Option.map_eq_some_iff.mp h
    cases heq
    obtain ⟨hp, hu⟩ := onFlow_spec hf
    exact .quiet rfl rfl rfl (fun y hy => ⟨(hp y hy).woken, (hp y hy).registered⟩)
      (fun ji => hu _) (by simp)
  | evict =>
    rw [exec] at h
    split at h <;> cases h <;> exact .quiet rfl rfl rfl (by simp) (by simp) (by simp)
  | leaseSession sn =>
    cases h
    obtain ⟨hp, hu, -⟩ := leaseSession_spec env s.owed sn
    exact .quiet rfl rfl rfl (fun y hy => ⟨(hp y hy).woken, (hp y hy).registered⟩)
      (fun ji => hu _) (by simp)
  | _ =>
    cases h
    exact .quiet rfl rfl rfl (by simp) (by simp) (by simp)

/-! ### Duties of the calls

A call that has to register or to wake the waiter of a join holds a token for it. -/

section Tokens

variable {f : Instr → Option String} {j : String} {w : World ι} {i k : ι} {x y : Instr} {rest : List Instr}
  {t : Shared} {next : Next}

section

omit [DecidableEq ι]

/-- How many instructions with a token for the join each call has. -/
def tokens (f : Instr → Option String) (j : String) (w : World ι) (k : ι) : ℕ :=
  (w.thread k).todo.countP fun x => f x = some j

theorem tokens_pos (hy : y ∈ (w.thread k).todo) (hj : f y = some j) : 0 < tokens f j w k :=
  countP_pos_iff.mpr ⟨y, hy, by simpa using hj⟩

theorem tokens_eq_zero (h : ∀ y ∈ (w.thread k).todo, f y ≠ some j) : tokens f j w k = 0 :=
  countP_eq_zero.mpr (by simpa using h)

end

theorem tokens_put (c : Call) :
    tokens f j (w.put i t c) = update (tokens f j w) i (c.todo.countP fun x => f x = some j) := by
  funext k
  rcases eq_or_ne k i with rfl | hk
  · simp [tokens]
  · simp [tokens, hk, put_thread_of_ne]

variable (hf : ∀ z, f (.flow z) = none)
include hf

theorem countP_after_le (c : Call) (rest : List Instr) (next : Next) :
    (c.after rest next).todo.countP (fun x => f x = some j) ≤
      next.push.countP (fun x => f x = some j) + rest.countP (fun x => f x = some j) := by
  cases next with
  | goOn | decide | leave => simp [Call.after]
  | fail error =>
    cases error with
    | control => simp [Call.after]
    | service =>
      rw [Call.after]
      split <;> simp [hf]

theorem mem_put_of_token (ht : (w.thread i).todo = x :: rest)
    (hy : y ∈ ((w.put i t ((w.thread i).after rest next)).thread k).todo) (hj : f y = some j) :
    (k = i ∧ y ∈ next.push) ∨ y ∈ (w.thread k).todo := by
  rcases mem_put ht hy with hp | ho | ⟨z, rfl⟩
  · exact .inl hp
  · exact .inr ho
  · rw [hf] at hj
    cases hj

theorem single_put_of_quiet (h : Single (tokens f j w))
    (ht : (w.thread i).todo = x :: rest) (hp : ∀ y ∈ next.push, f y ≠ some j) :
    Single (tokens f j (w.put i t ((w.thread i).after rest next))) := by
  rw [tokens_put]
  refine h.update_of_le ((countP_after_le hf _ _ _).trans ?_)
  rw [countP_eq_zero.mpr (by simpa using hp), tokens, ht, countP_cons]
  omega

theorem single_put_of_first (h : ∀ k, tokens f j w k = 0)
    (ht : (w.thread i).todo = x :: rest) (hp : next.push.countP (fun x => f x = some j) ≤ 1) :
    Single (tokens f j (w.put i t ((w.thread i).after rest next))) := by
  rw [tokens_put]
  refine single_update_of_zero h ((countP_after_le hf _ _ _).trans ?_)
  have hr : rest.countP (fun x => f x = some j) = 0 := by
    have hz := h i
    rw [tokens, ht, countP_cons] at hz
    omega
  omega

theorem notMem_put_of_used (h : Single (tokens f j w))
    (ht : (w.thread i).todo = x :: rest) (hx : f x = some j) (hp : next.push = [])
    (hy : y ∈ ((w.put i t ((w.thread i).after rest next)).thread k).todo) : f y ≠ some j := by
  intro hj
  have hi : 0 < tokens f j w i := tokens_pos (ht ▸ mem_cons_self) hx
  rcases eq_or_ne k i with rfl | hk
  · -- the call itself had no second one
    have hr : y ∈ rest := by
      rw [put_thread_self] at hy
      rcases mem_after hy with hm | hr | ⟨a, m, rfl⟩
      · rw [hp] at hm
        cases hm
      · exact hr
      · rw [hf] at hj
        cases hj
    have ho := h.le_one k
    rw [tokens, ht, countP_cons] at ho
    have hps : 0 < rest.countP (fun x => f x = some j) := countP_pos_iff.mpr ⟨y, hr, by simpa using hj⟩
    simp only [hx, decide_true, if_true] at ho
    omega
  · rw [put_thread_of_ne _ _ _ hk] at hy
    exact hk (h.eq (tokens_pos hy hj) hi)

end Tokens

/-! ### The joins, the waiters and the duties agree -/

def Known (s : Shared) (j : String) : Prop := (s.session.subagentState.joins.get? j).isSome = true

/-- The target of the join has ended. -/
def Satisfied (s : Shared) (j : String) : Prop :=
  ∃ record, s.session.subagentState.joins.get? j = some record ∧ record.status = .satisfied

theorem JoinEffect.known (h : JoinEffect env s t x next) (hj : Known s j) : Known t j := by
  cases h with
  | quiet js | waited js => rwa [Known, js]
  | opened f k r js =>
    rw [Known, js, get?_insert]
    split
    · rfl
    · exact hj
  | ended st =>
    rw [Known, st, get?_joins_recordTerminal, Option.isSome_map]
    exact hj

theorem JoinEffect.satisfied (h : JoinEffect env s t x next) (hj : Satisfied s j) : Satisfied t j := by
  obtain ⟨r, hr, hs⟩ := hj
  cases h with
  | quiet js | waited js => exact ⟨r, by rwa [js], hs⟩
  | opened f k rn js =>
    refine ⟨r, ?_, hs⟩
    rw [js, get?_insert, if_neg, hr]
    rintro rfl
    cases f.symm.trans hr
  | ended st =>
    refine ⟨r, ?_, hs⟩
    rw [st, get?_joins_recordTerminal, hr, Option.map_some,
      resolve_of_not_waitsFor _ (by simp [JoinRecord.waitsFor, hs])]

theorem JoinEffect.keyed (h : JoinEffect env s t x next)
    (hs : Keyed s.session.subagentState) : Keyed t.session.subagentState := by
  cases h with
  | quiet js => rwa [Keyed, js]
  | opened f k rn js =>
    intro j r hr
    rw [js] at hr
    exact hs.insert _ _ _ j r hr
  | ended st => exact st ▸ hs.recordTerminal _ _
  | waited sh => rwa [sh]

/-- **The joins, the waiters and the duties agree.** Each join is registered at most once and
woken at most once; a waiter is there for joins that are known, and its sender is there as
long as nothing was sent; what is to be woken is satisfied and was sent nothing; what is to
be registered is known and has no waiter yet. -/
structure Board (w : World ι) : Prop where
  keyed : Keyed w.shared.session.subagentState
  wakeOnce : ∀ j, Single (tokens Instr.woken? j w)
  registerOnce : ∀ j, Single (tokens Instr.registered? j w)
  wake : ∀ {k x j}, x ∈ (w.thread k).todo → x.woken? = some j → Satisfied w.shared j ∧ w.shared.waiters.sent j = []
  register : ∀ {k x j}, x ∈ (w.thread k).todo → x.registered? = some j →
    Known w.shared j ∧ w.shared.waiters.pendingJoins j = none ∧ w.shared.waiters.sent j = []
  waiter : ∀ {j p}, w.shared.waiters.pendingJoins j = some p →
    Known w.shared j ∧ (p.sender = true ↔ w.shared.waiters.sent j = [])
  sent : ∀ {j}, w.shared.waiters.sent j ≠ [] → Satisfied w.shared j

/-- The wakes of the end of an agent: of the joins that wait for it. -/
theorem mem_wakes (h : Keyed st)
    {tr : SubagentTerminalSnapshot} {y : Instr} (hy : y ∈ (wakeActions st a tr).map hostInstr) :
    ∃ j r, st.joins.get? j = some r ∧ r.waitsFor a = true ∧ y = .joins (.wake j tr) := by
  rw [wakeActions, map_map] at hy
  obtain ⟨⟨j, r⟩, he, rfl⟩ := mem_map.mp hy
  obtain ⟨hm, hw⟩ := mem_filter.mp he
  have hr := mem_entries.mp hm
  refine ⟨j, r, hr, hw, ?_⟩
  rw [comp_apply, hostInstr, h j r hr]

theorem mem_wakes_of_waitsFor (h : Keyed st) (tr : SubagentTerminalSnapshot) {r : JoinRecord}
    (hr : st.joins.get? j = some r) (hw : r.waitsFor a = true) :
    .joins (.wake j tr) ∈ (wakeActions st a tr).map hostInstr := by
  rw [wakeActions, map_map]
  refine mem_map.mpr ⟨(j, r), mem_filter.mpr ⟨mem_entries.mpr hr, hw⟩, ?_⟩
  rw [comp_apply, hostInstr, h j r hr]

theorem countP_wakes_le_one (h : Keyed st) (ai : AgentId) (tr : SubagentTerminalSnapshot) (j : String) :
    ((wakeActions st ai tr).map hostInstr).countP (fun x => x.woken? = some j) ≤ 1 := by
  rw [wakeActions, map_map, countP_map, countP_filter]
  refine (countP_mono_left fun e he hc => ?_).trans (st.joins.countP_key_le_one j)
  have hk : e.2.joinId = e.1 := h e.1 e.2 (mem_entries.mp he)
  simp only [comp_apply, hostInstr, Instr.woken?, Option.some.injEq, Bool.and_eq_true, decide_eq_true_eq] at hc
  simp [← hc.1, hk]

section BoardStep

variable {w : World ι} {i : ι} {e : Env} {x : Instr} {r : List Instr} {t : Shared} {next : Next}
  {j : String} {tr : SubagentTerminalSnapshot}

theorem Satisfied.known {s : Shared} (h : Satisfied s j) : Known s j := by
  obtain ⟨rc, hr, -⟩ := h
  simp [Known, hr]

variable (h : Board w)
include h

section

variable (ht : (w.thread i).todo = x :: r)
include ht

section

variable (he : JoinEffect e w.shared t x next) (hw : t.waiters = w.shared.waiters)
include he hw

/-- A step that leaves the waiters alone, if what it has to be done is in order. -/
theorem Board.of_duties (hwo : ∀ j, Single (tokens Instr.woken? j (w.put i t ((w.thread i).after r next))))
    (hr : ∀ j, Single (tokens Instr.registered? j (w.put i t ((w.thread i).after r next))))
    (hwk : ∀ y ∈ next.push, ∀ j, y.woken? = some j → Satisfied t j ∧ w.shared.waiters.sent j = [])
    (hrg : ∀ y ∈ next.push, ∀ j, y.registered? = some j →
      Known t j ∧ w.shared.waiters.pendingJoins j = none ∧ w.shared.waiters.sent j = []) :
    Board (w.put i t ((w.thread i).after r next)) where
  keyed := he.keyed h.keyed
  wakeOnce := hwo
  registerOnce := hr
  wake := by
    intro k y j hy hj
    rw [put_shared, hw]
    rcases mem_put_of_token (fun _ => rfl) ht hy hj with ⟨-, hps⟩ | ho
    · exact hwk y hps j hj
    · exact (h.wake ho hj).imp_left he.satisfied
  register := by
    intro k y j hy hj
    rw [put_shared, hw]
    rcases mem_put_of_token (fun _ => rfl) ht hy hj with ⟨-, hps⟩ | ho
    · exact hrg y hps j hj
    · exact (h.register ho hj).imp_left he.known
  waiter := by
    intro j p hp
    rw [put_shared, hw] at hp ⊢
    exact (h.waiter hp).imp_left he.known
  sent := by
    intro j hj
    rw [put_shared, hw] at hj
    exact he.satisfied (h.sent hj)

theorem Board.quiet (hp : ∀ y ∈ next.push, y.woken? = none ∧ y.registered? = none) :
    Board (w.put i t ((w.thread i).after r next)) := by
  refine h.of_duties ht he hw (fun j => ?_) (fun j => ?_) (fun y hy j hj => ?_) (fun y hy j hj => ?_)
  · exact single_put_of_quiet (fun _ => rfl) (h.wakeOnce j) ht fun y hy => by simp [hp y hy, -Instr.woken?]
  · exact single_put_of_quiet (fun _ => rfl) (h.registerOnce j) ht fun y hy => by simp [hp y hy, -Instr.registered?]
  · rw [(hp y hy).1] at hj
    cases hj
  · rw [(hp y hy).2] at hj
    cases hj

omit ht he hw [DecidableEq ι] in
theorem Board.unknown (hj : ¬ Known w.shared j) :
    (∀ k, tokens Instr.registered? j w k = 0) ∧ w.shared.waiters.pendingJoins j = none ∧
      w.shared.waiters.sent j = [] := by
  refine ⟨fun k => tokens_eq_zero fun y hy hr => hj (h.register hy hr).1, ?_, ?_⟩
  · cases hp : w.shared.waiters.pendingJoins j with
    | none => rfl
    | some => exact absurd (h.waiter hp).1 hj
  · by_contra hs
    exact hj (h.sent hs).known

/-- Opening a join makes its registration due. -/
theorem Board.opened {request : JoinSubagentRequest}
    (hf : w.shared.session.subagentState.joins.get? e.joinId = none) (hjn : t.session.subagentState.joins =
      w.shared.session.subagentState.joins.insert e.joinId (openedJoin request e.nowMs e.joinId))
    (hn : next.push = [.save t.session, .session (.ensureSessionMatch request.sessionId),
      .joins (.register e.joinId)]) : Board (w.put i t ((w.thread i).after r next)) := by
  obtain ⟨hz, hnn, hu⟩ := h.unknown (j := e.joinId) (by simp [Known, hf])
  refine h.of_duties ht he hw (fun j => ?_) (fun j => ?_) (fun y hy j hj => ?_) (fun y hy j hj => ?_)
  · refine single_put_of_quiet (fun _ => rfl) (h.wakeOnce j) ht ?_
    simp [hn, -Next.push]
  · by_cases hj : j = e.joinId
    · refine single_put_of_first (fun _ => rfl) (hj ▸ hz) ht ?_
      simp [hn, hj, -Next.push]
    · refine single_put_of_quiet (fun _ => rfl) (h.registerOnce j) ht ?_
      simp [hn, Ne.symm hj, -Next.push]
  · rw [hn] at hy
    simp only [mem_cons, not_mem_nil, or_false] at hy
    rcases hy with rfl | rfl | rfl <;> cases hj
  · rw [hn] at hy
    simp only [mem_cons, not_mem_nil, or_false] at hy
    rcases hy with rfl | rfl | rfl <;> cases hj
    exact ⟨by simp [Known, hjn, get?_insert], hnn, hu⟩

/-- Ending an agent makes the wakes of its pending joins due. -/
theorem Board.ended {ai : AgentId} {it : SubagentMailboxItem}
    (hst : t.session.subagentState = recordTerminal w.shared.session.subagentState ai tr)
    (hn : next.push = .save t.session :: .session .readSessionId :: .session (.enqueueMailboxItem it) ::
      (wakeActions w.shared.session.subagentState ai tr).map hostInstr) :
    Board (w.put i t ((w.thread i).after r next)) := by
  -- what is to be woken was pending, so nothing was to be woken or sent before
  have hp : ∀ {j rc}, w.shared.session.subagentState.joins.get? j = some rc →
      rc.waitsFor ai = true → ¬ Satisfied w.shared j := by
    rintro j rc hr hrw ⟨r', hr', hs⟩
    cases hr.symm.trans hr'
    simp [JoinRecord.waitsFor, hs] at hrw
  have hps : ∀ y ∈ next.push, y.registered? = none ∧ ∀ j, y.woken? = some j → ∃ rc,
      w.shared.session.subagentState.joins.get? j = some rc ∧ rc.waitsFor ai = true := by
    intro y hy
    rw [hn] at hy
    simp only [mem_cons] at hy
    rcases hy with rfl | rfl | rfl | hy
    · exact ⟨rfl, nofun⟩
    · exact ⟨rfl, nofun⟩
    · exact ⟨rfl, nofun⟩
    · obtain ⟨j, rc, hr, hw, rfl⟩ := mem_wakes h.keyed hy
      refine ⟨rfl, ?_⟩
      rintro _ ⟨⟩
      exact ⟨rc, hr, hw⟩
  refine h.of_duties ht he hw (fun j => ?_) (fun j => ?_) (fun y hy j hj => ?_) (fun y hy j hj => ?_)
  · by_cases hd : ∃ y ∈ next.push, y.woken? = some j
    · obtain ⟨y, hy, hj⟩ := hd
      obtain ⟨rc, hr, hw⟩ := (hps y hy).2 j hj
      refine single_put_of_first (fun _ => rfl)
        (fun k => tokens_eq_zero fun z hz hzj => hp hr hw (h.wake hz hzj).1) ht ?_
      rw [hn]
      simpa using countP_wakes_le_one h.keyed ai tr j
    · exact single_put_of_quiet (fun _ => rfl) (h.wakeOnce j) ht fun y hy hj => hd ⟨y, hy, hj⟩
  · exact single_put_of_quiet (fun _ => rfl)
      (h.registerOnce j) ht fun y hy => by simp [(hps y hy).1, -Instr.registered?]
  · obtain ⟨rc, hr, hw⟩ := (hps y hy).2 j hj
    refine ⟨⟨rc.resolve ai tr, ?_, status_resolve_of_waitsFor tr hw⟩, ?_⟩
    · rw [hst, get?_joins_recordTerminal, hr, Option.map_some]
    · by_contra hsn
      exact hp hr hw (h.sent hsn)
  · rw [(hps y hy).1] at hj
    cases hj

end

omit h in
/-- A duty that is left after a step on the waiters was there before. -/
theorem mem_of_mem_put {f : Instr → Option String} (hf : ∀ z, f (.flow z) = none)
    (hp : next.push = []) {k : ι} {y : Instr}
    (hy : y ∈ ((w.put i t ((w.thread i).after r next)).thread k).todo) (hj : f y = some j) :
      y ∈ (w.thread k).todo := by
  rcases mem_put_of_token hf ht hy hj with ⟨-, hm⟩ | ho
  · rw [hp] at hm
    cases hm
  · exact ho

/-- A step on the waiters, if they stay in order. -/
theorem Board.of_waiters {waiters : Waiters} (hp : next.push = [])
    (hwk : ∀ k y j, y ∈ ((w.put i { w.shared with waiters } ((w.thread i).after r next)).thread k).todo →
      y ∈ (w.thread k).todo → y.woken? = some j → waiters.sent j = [])
    (hr : ∀ k y j, y ∈ ((w.put i { w.shared with waiters } ((w.thread i).after r next)).thread k).todo →
      y ∈ (w.thread k).todo → y.registered? = some j → waiters.pendingJoins j = none ∧ waiters.sent j = [])
    (hw : ∀ j p, waiters.pendingJoins j = some p → Known w.shared j ∧ (p.sender = true ↔ waiters.sent j = []))
    (hs : ∀ j, waiters.sent j ≠ [] → Satisfied w.shared j) :
    Board (w.put i { w.shared with waiters } ((w.thread i).after r next)) where
  keyed := h.keyed
  wakeOnce j := single_put_of_quiet (fun _ => rfl) (h.wakeOnce j) ht (by simp [hp, -Next.push])
  registerOnce j := single_put_of_quiet (fun _ => rfl) (h.registerOnce j) ht (by simp [hp, -Next.push])
  wake := by
    intro k y j hy hj
    have ho := mem_of_mem_put ht (fun _ => rfl) hp hy hj
    exact ⟨(h.wake ho hj).1, hwk k y j hy ho hj⟩
  register := by
    intro k y j hy hj
    have ho := mem_of_mem_put ht (fun _ => rfl) hp hy hj
    exact ⟨(h.register ho hj).1, hr k y j hy ho hj⟩
  waiter := hw _ _
  sent := hs _

end

theorem Board.registered (ht : (w.thread i).todo = .joins (.register j) :: r) :
    Board (w.put i { w.shared with waiters := (onJoins w.shared.waiters (.register j)).1 }
      ((w.thread i).after r (onJoins w.shared.waiters (.register j)).2)) := by
  have hps := push_onJoins w.shared.waiters (.register j)
  obtain ⟨hk, hn, hu⟩ := h.register (ht ▸ mem_cons_self) rfl
  have hw : (onJoins w.shared.waiters (.register j)).1 = { w.shared.waiters with
      pendingJoins := update w.shared.waiters.pendingJoins j (some ⟨true, true⟩) } := by
    simp [onJoins, hn]
  refine h.of_waiters ht hps ?_ ?_ ?_ ?_ <;> rw [hw]
  · exact fun k y j' _ ho hj' => (h.wake ho hj').2
  · intro k y j' hy ho hj'
    have hne : j' ≠ j := by
      rintro rfl
      exact notMem_put_of_used (fun _ => rfl) (h.registerOnce j') ht rfl hps hy hj'
    simpa [hne] using (h.register ho hj').2
  · intro j' p hp
    by_cases hj' : j' = j
    · subst hj'
      obtain rfl : ⟨true, true⟩ = p := by simpa using hp
      exact ⟨hk, by simpa using hu⟩
    · exact h.waiter (by simpa [hj'] using hp)
  · exact fun j' => h.sent

omit [DecidableEq ι] in
/-- What a wake does, when it is due: it is dropped if there is no waiter, and sent
otherwise. -/
theorem Board.onJoins_wake (ht : (w.thread i).todo = .joins (.wake j tr) :: r) :
    (w.shared.waiters.pendingJoins j = none ∧ onJoins w.shared.waiters (.wake j tr) = (w.shared.waiters, .goOn [])) ∨
    ∃ p, w.shared.waiters.pendingJoins j = some p ∧ onJoins w.shared.waiters (.wake j tr) =
      ({ pendingJoins := update w.shared.waiters.pendingJoins j (some { p with sender := false })
         sent := update w.shared.waiters.sent j [tr] }, .goOn []) := by
  obtain ⟨-, hu⟩ := h.wake (ht ▸ mem_cons_self) rfl
  cases hp : w.shared.waiters.pendingJoins j with
  | none => exact .inl ⟨rfl, by simp [onJoins, hp]⟩
  | some p =>
    have hs : p.sender = true := (h.waiter hp).2.mpr hu
    exact .inr ⟨p, rfl, by simp [onJoins, hp, hs, hu]⟩

theorem Board.woken (ht : (w.thread i).todo = .joins (.wake j tr) :: r) :
    Board (w.put i { w.shared with waiters := (onJoins w.shared.waiters (.wake j tr)).1 }
      ((w.thread i).after r (onJoins w.shared.waiters (.wake j tr)).2)) := by
  rcases h.onJoins_wake ht with ⟨-, heq⟩ | ⟨p, hp, heq⟩ <;> rw [heq]
  · have he : JoinEffect {} w.shared w.shared (.joins (.wake j tr)) (.goOn []) :=
      .quiet rfl rfl rfl (by simp) (by simp) (by simp)
    exact h.quiet ht he rfl (by simp)
  · obtain ⟨hs, -⟩ := h.wake (ht ▸ mem_cons_self) rfl
    refine h.of_waiters ht rfl ?_ ?_ ?_ ?_
    · intro k y j' hy ho hj'
      have hne : j' ≠ j := by
        rintro rfl
        exact notMem_put_of_used (fun _ => rfl) (h.wakeOnce j') ht rfl rfl hy hj'
      simpa [hne] using (h.wake ho hj').2
    · intro k y j' _ ho hj'
      have hr := (h.register ho hj').2
      have hne : j' ≠ j := by
        rintro rfl
        cases hp.symm.trans hr.1
      simpa [hne] using hr
    · intro j' p' hp'
      by_cases hj' : j' = j
      · subst hj'
        obtain rfl : { p with sender := false } = p' := by simpa using hp'
        exact ⟨(h.waiter hp).1, by simp⟩
      · simpa [hj'] using h.waiter (j := j') (p := p') (by simpa [hj'] using hp')
    · intro j' hsn
      by_cases hj' : j' = j
      · exact hj' ▸ hs
      · exact h.sent (by simpa [hj'] using hsn)

omit h in
theorem sent_takeReceiver (ws : Waiters) (j : String) : (onJoins ws (.takeReceiver j)).1.sent = ws.sent := by
  rw [onJoins]
  split
  · rfl
  · split <;> rfl

omit h in
/-- The receiver is gone afterwards, taken now or before. -/
theorem pendingJoins_takeReceiver (ws : Waiters) (j j' : String) : (onJoins ws (.takeReceiver j)).1.pendingJoins j' =
      if j' = j then (ws.pendingJoins j').map fun p => { p with receiver := false }
      else ws.pendingJoins j' := by
  rw [onJoins]
  split
  · next hp => by_cases hj : j' = j <;> simp [hj, hp]
  · next p hp =>
    split
    · by_cases hj : j' = j <;> simp [hj, hp]
    · next hr =>
      by_cases hj : j' = j
      · cases p
        simp_all
      · simp [hj]

/-- Taking the receiver or removing the waiter leaves the senders that are there. -/
theorem Board.receivers {waiters : Waiters} (ht : (w.thread i).todo = x :: r)
    (hps : next.push = []) (hsn : waiters.sent = w.shared.waiters.sent)
      (hpn : ∀ j p, waiters.pendingJoins j = some p →
      ∃ p', w.shared.waiters.pendingJoins j = some p' ∧ p'.sender = p.sender)
    (hn : ∀ j, w.shared.waiters.pendingJoins j = none → waiters.pendingJoins j = none) :
    Board (w.put i { w.shared with waiters } ((w.thread i).after r next)) := by
  refine h.of_waiters ht hps ?_ ?_ ?_ ?_ <;> rw [hsn]
  · exact fun k y j _ ho hj => (h.wake ho hj).2
  · intro k y j _ ho hj
    obtain ⟨-, hp, hu⟩ := h.register ho hj
    exact ⟨hn j hp, hu⟩
  · intro j p hp
    obtain ⟨p', hp', hs⟩ := hpn j p hp
    exact hs ▸ h.waiter hp'
  · exact fun j => h.sent

theorem Board.waited {y : JoinInstr} (ht : (w.thread i).todo = .joins y :: r) :
    Board (w.put i { w.shared with waiters := (onJoins w.shared.waiters y).1 }
      ((w.thread i).after r (onJoins w.shared.waiters y).2)) := by
  have hps := push_onJoins w.shared.waiters y
  cases y with
  | register => exact h.registered ht
  | wake => exact h.woken ht
  | takeReceiver j =>
    refine h.receivers ht hps (sent_takeReceiver _ j) ?_ ?_
    · intro j' p hp
      rw [pendingJoins_takeReceiver] at hp
      split at hp
      · obtain ⟨p', hp', rfl⟩ := Option.map_eq_some_iff.mp hp
        exact ⟨p', hp', rfl⟩
      · exact ⟨p, hp, rfl⟩
    · intro j' hp
      rw [pendingJoins_takeReceiver, hp]
      split <;> rfl
  | remove j =>
    refine h.receivers ht hps rfl ?_ ?_
    · intro j' p hp
      have hne : j' ≠ j := by
        rintro rfl
        simp [onJoins] at hp
      exact ⟨p, by simpa [onJoins, hne] using hp, rfl⟩
    · intro j' hp
      simp [onJoins, update_apply, hp]

theorem Board.step {v : World ι} {l : ι × Env} (hs : Gateway.step w l = some v) : Board v := by
  obtain ⟨i, e⟩ := l
  obtain ⟨x, r, t, next, ht, hex, rfl⟩ := step_eq_some.mp hs
  have he := exec_joinEffect hex
  have he' := he
  cases he with
  | quiet _ _ ws p => exact h.quiet ht he' ws p
  | opened f _ _ js _ ws => exact h.opened ht he' ws f js rfl
  | ended st ws => exact h.ended ht he' ws st rfl
  | waited sh => exact sh ▸ h.waited ht

end BoardStep

theorem noDuty_program (o : Operation) : ∀ x ∈ o.program, x.woken? = none ∧ x.registered? = none := by
  cases o <;> simp [Operation.program]

omit [DecidableEq ι] in
/-- A supervisor starts with everything in order. -/
theorem Board.start (h : Keyed session.subagentState) (os : ι → Operation) : Board (start session os) := by
  have hpr : ∀ k, ∀ x ∈ ((Gateway.start session os).thread k).todo,
      x.woken? = none ∧ x.registered? = none := fun k => noDuty_program (os k)
  have hs : ∀ f j, (∀ k, ∀ x ∈ ((Gateway.start session os).thread k).todo, f x = none) →
      Single (tokens f j (Gateway.start session os)) := by
    intro f j hf
    have hz : ∀ k, tokens f j (Gateway.start session os) k = 0 :=
      fun k => tokens_eq_zero fun y hy => by simp [hf k y hy]
    exact ⟨fun k => by simp [hz k], fun {k} _ hk _ => by simp [hz k] at hk⟩
  refine ⟨h, fun j => hs _ j fun k x hx => (hpr k x hx).1, fun j => hs _ j fun k x hx =>
    (hpr k x hx).2, ?_, ?_, ?_, ?_⟩
  · intro k x j hx hj
    rw [(hpr k x hx).1] at hj
    cases hj
  · intro k x j hx hj
    rw [(hpr k x hx).2] at hj
    cases hj
  · intro j p hp
    cases hp
  · intro j hj
    exact absurd rfl hj

end XiaoO.Gateway
