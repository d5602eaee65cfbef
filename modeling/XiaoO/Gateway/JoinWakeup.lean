import XiaoO.Gateway.PendingJoins
import Mathlib.Data.Fintype.Basic

/-!
# Waking the waiter of a join

`join_subagent` commits a pending join under the session mutex, saves the session, and
registers the waiter under the mutex of the pending joins. `mark_subagent_terminal` ends
the target under the session mutex, saves, and wakes the waiters of its pending joins. A
wake that comes before the registration finds no waiter and is dropped, as if the waiter
had given up.

## What is proved

If no waiter is woken before it is registered and none is removed before it was woken, a
pending join is woken, with the snapshot of its target and once (`join_woken_once`), whatever
other calls run at the same time. Without the condition the wakeup is lost
(`late_registration_is_never_woken`).

The invariant follows the result of the join (`Outstanding`): it is still to come as long as
the target has not ended, then its wake is due in the call that ended the target, and then it
is sent.
-/

namespace XiaoO.Gateway

open XiaoO.Base XiaoO.Subagent XiaoO.Backend List Option Threads

variable {ι : Type} [DecidableEq ι]

/-! ### A join and the end of its target -/

/-- Instructions that cannot fail and hand over nothing. -/
inductive Plain (sessionId : String) : Instr → Prop where
  | save (record : SessionRecord) : Plain sessionId (.save record)
  | ensureSessionMatch : Plain sessionId (.session (.ensureSessionMatch sessionId))
  | readSessionId : Plain sessionId (.session .readSessionId)
  | enqueueMailboxItem (item : SubagentMailboxItem) : Plain sessionId (.session (.enqueueMailboxItem item))

theorem Plain.exec {e : Env} {s t : Shared} {x : Instr} {next : Next} (hx : Plain s.session.sessionId x)
    (h : Gateway.exec e s x = some (t, next)) :
    x.woken? = none ∧ x.registered? = none ∧ ∃ p, next = .goOn p ∧ ∀ y ∈ p, Plain s.session.sessionId y := by
  cases hx with
  | save =>
    cases h
    exact ⟨rfl, rfl, [], rfl, by simp⟩
  | ensureSessionMatch =>
    rw [Gateway.exec, onSession, if_pos rfl] at h
    cases h
    exact ⟨rfl, rfl, [], rfl, by simp⟩
  | readSessionId =>
    cases h
    exact ⟨rfl, rfl, _, rfl, by simpa using .ensureSessionMatch⟩
  | enqueueMailboxItem =>
    cases h
    exact ⟨rfl, rfl, _, rfl, by simpa using .save _⟩

theorem sent_onJoins {ws : Waiters} {y : JoinInstr} {j : String}
    (hy : (Instr.joins y).woken? ≠ some j) : (onJoins ws y).1.sent j = ws.sent j := by
  cases y with
  | register =>
    rw [onJoins]
    split <;> rfl
  | wake j' =>
    have hne : j ≠ j' := by
      rintro rfl
      exact hy rfl
    rw [onJoins]
    split
    · rfl
    · split
      · simp [hne]
      · rfl
  | takeReceiver => rw [sent_takeReceiver]
  | remove => rfl

theorem isSome_onJoins {ws : Waiters} {y : JoinInstr} {j : String} (hj : (ws.pendingJoins j).isSome = true)
    (hy : y ≠ .remove j) : ((onJoins ws y).1.pendingJoins j).isSome = true := by
  cases y with
  | register j' =>
    rw [onJoins]
    split
    · exact hj
    · by_cases hne : j = j' <;> simp [hne, hj]
  | wake j' =>
    rw [onJoins]
    split
    · exact hj
    · split
      · by_cases hne : j = j' <;> simp [hne, hj]
      · exact hj
  | takeReceiver =>
    rw [pendingJoins_takeReceiver]
    split
    · simpa using hj
    · exact hj
  | remove j' =>
    have hne : j ≠ j' := by
      rintro rfl
      exact hy rfl
    simpa [onJoins, hne] using hj

/-- The join whose waiter an instruction removes. -/
def Instr.removed? : Instr → Option String
  | .joins (.remove joinId) => some joinId
  | _ => none

/-- A call that joins an agent and the call that ends the agent. -/
structure Encounter (ι : Type) where
  joiner : ι
  marker : ι
  request : JoinSubagentRequest
  terminal : SubagentTerminalSnapshot
  lastError : Option String

variable (e : Encounter ι) (w : World ι)

/-- **The conditions of a handover.** No waiter is woken while a call has still to register
it; no waiter is removed before something was sent to it; and an agent that ends has a lane
and is known to the coordinator, and the target is ended by no other call. -/
@[mk_iff] structure Orderly (l : ι × Env) : Prop where
  wake : ∀ j ∈ (w.thread l.1).todo.head?.bind Instr.woken?, ∀ k, .joins (.register j) ∉ (w.thread k).todo
  remove : ∀ j ∈ (w.thread l.1).todo.head?.bind Instr.removed?, w.shared.waiters.sent j ≠ []
  mark : ∀ agentId ∈ (w.thread l.1).todo.head?.bind Instr.marked?,
    (w.shared.session.agents.get? agentId).isSome = true ∧
    (w.shared.session.subagentState.agents.get? agentId).isSome = true ∧
    (agentId = e.request.targetAgentId → l.1 = e.marker)

/-- The target has still to be ended. -/
def Unmarked : Prop :=
  (w.thread e.marker).todo = [.session (.markTerminal e.request.targetAgentId e.terminal e.lastError)]

/-- The target has ended, and its waiters are being woken. -/
structure Marked : Prop where
  terminal : ∃ record, w.shared.session.subagentState.agents.get? e.request.targetAgentId = some record ∧
    record.status.isTerminal = true
  duties : ∀ x ∈ (w.thread e.marker).todo, Plain w.shared.session.sessionId x ∨ ∃ j, x = .joins (.wake j e.terminal)

/-- Where the result of the join is: still to come; to be sent by the marker; or sent. -/
inductive Outstanding (w : World ι) (j : String) (record : JoinRecord) : Prop where
  | pending : record.status = .pending → Unmarked e w → Outstanding w j record
  | waking : record.status = .satisfied → .joins (.wake j e.terminal) ∈ (w.thread e.marker).todo →
      Outstanding w j record
  | sent : record.status = .satisfied → w.shared.waiters.sent j = [e.terminal] → Outstanding w j record

/-- The join `j` was answered to be pending. -/
structure Waiting (j : String) : Prop where
  record : ∃ record, w.shared.session.subagentState.joins.get? j = some record ∧
    record.targetAgentId = e.request.targetAgentId ∧ Outstanding e w j record
  registered : .joins (.register j) ∈ (w.thread e.joiner).todo ∨
    (w.shared.waiters.pendingJoins j).isSome = true ∨ w.shared.waiters.sent j ≠ []

/-- The state of the two calls. -/
structure Handover : Prop where
  marker : Unmarked e w ∨ Marked e w
  asking : (w.thread e.joiner).answer = none →
    (w.thread e.joiner).todo = (Operation.joinSubagent e.request).program ∨
    (w.thread e.joiner).todo = [.session (.join e.request)] ∧ w.shared.session.sessionId = e.request.sessionId ∨
    (w.thread e.joiner).todo = []
  answered : ∀ result, (w.thread e.joiner).answer = some result → ∀ x ∈ (w.thread e.joiner).todo,
    Plain w.shared.session.sessionId x ∨ ∃ j, result = .pending j ∧ x = .joins (.register j)
  waiting : ∀ j, (w.thread e.joiner).answer = some (.pending j) → Waiting e w j

/-! ### Steps of the marker -/

section Step

variable {e} {w : World ι} {i : ι} {env : Env} {x : Instr} {r : List Instr} {t : Shared} {next : Next}
  {s : Shared} {j : String}

/-- The agent that ends is terminal from then on. -/
theorem JoinEffect.terminal (h : JoinEffect env s t x next)
    {a : AgentId} (hs : ∃ rc, s.session.subagentState.agents.get? a = some rc ∧ rc.status.isTerminal = true) :
    ∃ rc, t.session.subagentState.agents.get? a = some rc ∧ rc.status.isTerminal = true := by
  obtain ⟨rc, hr, ht⟩ := hs
  cases h with
  | quiet js agents | opened f k rn js agents | waited agents => exact ⟨rc, by rwa [agents], ht⟩
  | ended st =>
    rw [st, get?_agents_recordTerminal]
    split
    · exact ⟨_, by rw [hr, map_some], isTerminal_ended _ _⟩
    · exact ⟨rc, hr, ht⟩

omit [DecidableEq ι] in
/-- The end of the target is not refused. -/
theorem Unmarked.ended (h : Unmarked e w) (hP : Orderly e w (e.marker, env))
    (ht : (w.thread e.marker).todo = x :: r) (he : exec env w.shared x = some (t, next)) :
    r = [] ∧ (w.shared.session.subagentState.agents.get? e.request.targetAgentId).isSome = true ∧
      t.session.subagentState = recordTerminal w.shared.session.subagentState e.request.targetAgentId e.terminal ∧
      ∃ it, next = .goOn (.save t.session :: .session .readSessionId :: .session (.enqueueMailboxItem it) ::
        (wakeActions w.shared.session.subagentState e.request.targetAgentId e.terminal).map hostInstr) := by
  rw [Unmarked, ht] at h
  cases h
  obtain ⟨hl, hk, -⟩ := hP.mark e.request.targetAgentId (by simp [ht])
  refine ⟨rfl, hk, ?_⟩
  cases exec_joinEffect he with
  | quiet _ _ _ _ _ u =>
    rcases u _ rfl with hn | hn
    · simp [hn] at hl
    · simp [hn] at hk
  | ended st => exact ⟨st, _, rfl⟩

omit [DecidableEq ι] in
/-- The marker does not fail while it wakes the waiters. -/
theorem Marked.goOn (h : Marked e w) (hb : Board w) (ht : (w.thread e.marker).todo = x :: r)
    (he : exec env w.shared x = some (t, next)) :
    ∃ push, next = .goOn push ∧ ∀ y ∈ push, Plain w.shared.session.sessionId y := by
  rcases h.duties x (ht ▸ mem_cons_self) with hp | ⟨j, rfl⟩
  · exact (hp.exec he).2.2
  · cases he
    rcases hb.onJoins_wake ht with ⟨-, heq⟩ | ⟨p, -, heq⟩ <;> exact ⟨[], by rw [heq], by simp⟩

theorem marker_step (h : Unmarked e w ∨ Marked e w) (hb : Board w) (hP : Orderly e w (i, env))
    (ht : (w.thread i).todo = x :: r) (he : exec env w.shared x = some (t, next)) :
    Unmarked e (w.put i t ((w.thread i).after r next)) ∨ Marked e (w.put i t ((w.thread i).after r next)) := by
  have hid : t.session.sessionId = w.shared.session.sessionId := (exec_spec he).1.sessionId
  rcases eq_or_ne i e.marker with rfl | hi
  · right
    rcases h with h | h
    · obtain ⟨rfl, hk, hs, it, rfl⟩ := h.ended hP ht he
      constructor
      · obtain ⟨rc, hr⟩ := isSome_iff_exists.mp hk
        refine ⟨rc.ended e.terminal, ?_, isTerminal_ended _ _⟩
        rw [put_shared, hs, get?_agents_recordTerminal, if_pos rfl, hr, map_some]
      · intro y hy
        simp only [put_thread_self, Call.after, append_nil, mem_cons] at hy
        rcases hy with rfl | rfl | rfl | hy
        · exact .inl (.save _)
        · exact .inl .readSessionId
        · exact .inl (.enqueueMailboxItem it)
        · obtain ⟨j, rc, -, -, rfl⟩ := mem_wakes hb.keyed hy
          exact .inr ⟨j, rfl⟩
    · refine ⟨(exec_joinEffect he).terminal h.terminal, fun y hy => ?_⟩
      obtain ⟨p, rfl, hp⟩ := h.goOn hb ht he
      simp only [put_thread_self, Call.after, mem_append] at hy
      rw [put_shared, hid]
      rcases hy with hy | hy
      · exact .inl (hp y hy)
      · exact h.duties y (ht ▸ mem_cons_of_mem x hy)
  · refine h.imp (fun h => ?_) fun h => ⟨(exec_joinEffect he).terminal h.terminal, fun y hy => ?_⟩
    · rwa [Unmarked, put_thread_of_ne _ _ _ hi.symm]
    · rw [put_thread_of_ne _ _ _ hi.symm] at hy
      rw [put_shared, hid]
      exact h.duties y hy

/-- A record stays as it is unless an agent ends that the join waits for. -/
theorem JoinEffect.get?_join (h : JoinEffect env s t x next) {record : JoinRecord}
    (hr : s.session.subagentState.joins.get? j = some record) (hx : ∀ a ∈ x.marked?, record.waitsFor a = false) :
    t.session.subagentState.joins.get? j = some record := by
  cases h with
  | quiet joins | waited joins => rwa [joins]
  | opened f k rn joins =>
    rw [joins, SortedMap.get?_insert, if_neg, hr]
    rintro rfl
    cases f.symm.trans hr
  | ended st =>
    rw [st, get?_joins_recordTerminal, hr, map_some, resolve_of_not_waitsFor _ (hx _ rfl)]

theorem JoinEffect.sent (h : JoinEffect env s t x next)
    (hx : x.woken? ≠ some j) : t.waiters.sent j = s.waiters.sent j := by
  cases h with
  | quiet _ _ waiters | opened _ _ _ _ _ waiters | ended _ waiters => rw [waiters]
  | waited sh =>
    rw [sh]
    exact sent_onJoins hx

/-- A waiter stays until it is removed. -/
theorem JoinEffect.isSome (h : JoinEffect env s t x next) (hx : x.removed? ≠ some j)
    (hj : (s.waiters.pendingJoins j).isSome = true) : (t.waiters.pendingJoins j).isSome = true := by
  cases h with
  | quiet _ _ waiters | opened _ _ _ _ _ waiters | ended _ waiters => rwa [waiters]
  | waited sh =>
    rw [sh]
    refine isSome_onJoins hj ?_
    rintro rfl
    exact hx rfl

/-! ### Steps of the joiner -/

theorem next_join {rq : JoinSubagentRequest} (h : exec env s (.session (.join rq)) = some (t, next)) :
    (∃ error, next = .fail (.control error)) ∨ ∃ rs p, next = .decide rs p ∧
      ∀ y ∈ p, (∃ rc, y = .save rc) ∨ y = .session (.ensureSessionMatch rq.sessionId) ∨
        ∃ j, rs = .pending j ∧ y = .joins (.register j) := by
  obtain ⟨⟨session, next⟩, ho, heq⟩ := map_eq_some_iff.mp h
  cases heq
  rw [onSession] at ho
  split at ho
  · cases ho
  · split at ho
    · cases ho
      exact .inl ⟨_, rfl⟩
    · next hj =>
      cases ho
      obtain ⟨st, hd, -⟩ := SessionRecord.joinSubagent_ok hj
      refine .inr ⟨_, _, rfl, fun y hy => ?_⟩
      rcases mem_cons.mp hy with rfl | hy
      · exact .inl ⟨_, rfl⟩
      · rcases mem_cons.mp hy with rfl | hy
        · exact .inr (.inl rfl)
        · rcases join_ok hd with ⟨tr, -, rfl⟩ | ⟨ta, -, -, -, rfl⟩
          · cases hy
          · exact .inr (.inr ⟨_, rfl, mem_singleton.mp hy⟩)

omit [DecidableEq ι] in
/-- The joiner does not fail after it was answered. -/
theorem Handover.goOn (h : Handover e w) (hb : Board w) {rs : JoinSubagentResult}
    (ha : (w.thread e.joiner).answer = some rs) (ht : (w.thread e.joiner).todo = x :: r)
    (he : exec env w.shared x = some (t, next)) :
    ∃ p, next = .goOn p ∧ ∀ y ∈ p, Plain w.shared.session.sessionId y := by
  rcases h.answered rs ha x (ht ▸ mem_cons_self) with hp | ⟨j, -, rfl⟩
  · exact (hp.exec he).2.2
  · obtain ⟨-, hn, -⟩ := hb.register (ht ▸ mem_cons_self) rfl
    cases he
    exact ⟨[], by simp [onJoins, hn], by simp⟩

/-- A join that is answered to be pending waits from then on: its target has not ended. -/
theorem waiting_of_answer (h : Handover e w) (hne : e.joiner ≠ e.marker)
    (htd : (w.thread e.joiner).todo = x :: r) (he : exec env w.shared x = some (t, next))
    (ho : (w.thread e.joiner).answer = none) (ha : ((w.thread e.joiner).after r next).answer = some (.pending j)) :
    Waiting e (w.put e.joiner t ((w.thread e.joiner).after r next)) j := by
  rcases h.asking ho with hp | ⟨hj, -⟩ | hd
  · cases htd.symm.trans hp
    rw [exec, onSession] at he
    split at he <;> cases he <;> simp [Call.after, ho] at ha
  · cases htd.symm.trans hj
    cases exec_joinEffect he with
    | quiet _ _ _ _ u =>
      rcases next_join he with ⟨error, rfl⟩ | ⟨rs, p, rfl, -⟩
      · simp [Call.after, ho] at ha
      · obtain rfl : rs = .pending j := by simpa [Call.after] using ha
        exact absurd rfl (u j p)
    | opened f k rn js =>
      obtain rfl : env.joinId = j := by simpa [Call.after] using ha
      have hu : Unmarked e w := by
        refine h.marker.resolve_right fun hm => ?_
        obtain ⟨rc, hr, ht⟩ := hm.terminal
        cases k.symm.trans hr
        rw [rn] at ht
        cases ht
      refine ⟨⟨openedJoin e.request env.nowMs env.joinId, ?_, rfl, .pending rfl ?_⟩, .inl (by simp [Call.after])⟩
      · rw [put_shared, js, SortedMap.get?_insert, if_pos rfl]
      · rwa [Unmarked, put_thread_of_ne _ _ _ hne.symm]
  · cases htd.symm.trans hd

omit [DecidableEq ι] in
/-- The wake of a registered waiter is sent. -/
theorem Waiting.wake (hj : Waiting e w j) (hb : Board w) (hP : Orderly e w (e.marker, env))
    (ht : (w.thread e.marker).todo = .joins (.wake j e.terminal) :: r)
    (he : exec env w.shared (.joins (.wake j e.terminal)) = some (t, next)) : t.waiters.sent j = [e.terminal] := by
  obtain ⟨-, hu⟩ := hb.wake (ht ▸ mem_cons_self) rfl
  have hn := hP.wake j (by simp [ht]) e.joiner
  have hs : (w.shared.waiters.pendingJoins j).isSome = true :=
    (hj.registered.resolve_left hn).resolve_right (by simp [hu])
  cases he
  rcases hb.onJoins_wake ht with ⟨hnn, -⟩ | ⟨p, -, heq⟩
  · simp [hnn] at hs
  · simp [heq]

section

variable (h : Handover e w) (hb : Board w) (ht : (w.thread i).todo = x :: r)
    (he : exec env w.shared x = some (t, next))
include h hb ht he

theorem asking_step (ha : ((w.put i t ((w.thread i).after r next)).thread e.joiner).answer = none) :
    let v := w.put i t ((w.thread i).after r next)
    (v.thread e.joiner).todo = (Operation.joinSubagent e.request).program ∨
    (v.thread e.joiner).todo = [.session (.join e.request)] ∧ v.shared.session.sessionId = e.request.sessionId ∨
    (v.thread e.joiner).todo = [] := by
  have hid : t.session.sessionId = w.shared.session.sessionId := (exec_spec he).1.sessionId
  intro v
  rcases eq_or_ne i e.joiner with rfl | hi
  · cases ho : (w.thread e.joiner).answer with
    | some =>
      obtain ⟨p, rfl, -⟩ := h.goOn hb ho ht he
      simp [Call.after, ho] at ha
    | none =>
      rcases h.asking ho with hp | ⟨hj, -⟩ | hd
      · cases ht.symm.trans hp
        rw [exec, onSession] at he
        split at he <;> cases he
        · next hm => exact .inr (.inl ⟨by simp [v, Call.after], hm⟩)
        · exact .inr (.inr (by simp [v, Call.after]))
      · cases ht.symm.trans hj
        rcases next_join he with ⟨error, rfl⟩ | ⟨rs, p, rfl, -⟩
        · exact .inr (.inr (by simp [v, Call.after]))
        · simp [Call.after] at ha
      · cases ht.symm.trans hd
  · simp only [v, put_shared, put_thread_of_ne _ _ _ hi.symm, hid] at ha ⊢
    exact h.asking ha

theorem answered_step {result : JoinSubagentResult}
    (ha : ((w.put i t ((w.thread i).after r next)).thread e.joiner).answer = some result) :
    ∀ y ∈ ((w.put i t ((w.thread i).after r next)).thread e.joiner).todo,
      Plain t.session.sessionId y ∨ ∃ j, result = .pending j ∧ y = .joins (.register j) := by
  have hid : t.session.sessionId = w.shared.session.sessionId := (exec_spec he).1.sessionId
  intro y hy
  rw [hid]
  rcases eq_or_ne i e.joiner with rfl | hi
  · rw [put_thread_self] at ha hy
    cases ho : (w.thread e.joiner).answer with
    | some r' =>
      obtain ⟨p, rfl, hps⟩ := h.goOn hb ho ht he
      obtain rfl : r' = result := by simpa [Call.after, ho] using ha
      rcases mem_append.mp hy with hy | hy
      · exact .inl (hps y hy)
      · exact h.answered r' ho y (ht ▸ mem_cons_of_mem x hy)
    | none =>
      rcases h.asking ho with hp | ⟨hj, hm⟩ | hd
      · cases ht.symm.trans hp
        rw [exec, onSession] at he
        split at he <;> cases he <;> simp [Call.after, ho] at ha
      · cases ht.symm.trans hj
        rcases next_join he with ⟨error, rfl⟩ | ⟨r', p, rfl, hps⟩
        · simp [Call.after, ho] at ha
        · obtain rfl : r' = result := by simpa [Call.after] using ha
          simp only [Call.after, append_nil] at hy
          rcases hps y hy with ⟨rc, rfl⟩ | rfl | hr
          · exact .inl (.save rc)
          · exact .inl (hm ▸ .ensureSessionMatch)
          · exact .inr hr
      · cases ht.symm.trans hd
  · rw [put_thread_of_ne _ _ _ hi.symm] at ha hy
    exact h.answered result ha y hy

/-! ### Steps of a join that waits -/

theorem registered_step (hP : Orderly e w (i, env))
    (ha : (w.thread e.joiner).answer = some (.pending j)) (hj : Waiting e w j) :
    .joins (.register j) ∈ ((w.put i t ((w.thread i).after r next)).thread e.joiner).todo ∨
      (t.waiters.pendingJoins j).isSome = true ∨ t.waiters.sent j ≠ [] := by
  have hje := exec_joinEffect he
  -- what is sent to a waiter is sent while its wake is due, and then nothing was sent before
  have hs : w.shared.waiters.sent j ≠ [] → t.waiters.sent j ≠ [] := by
    intro hs
    rw [hje.sent fun hx => hs (hb.wake (ht ▸ mem_cons_self) hx).2]
    exact hs
  rcases hj.registered with hd | hsm | ho
  · rcases eq_or_ne i e.joiner with rfl | hi
    · rw [ht] at hd
      rcases mem_cons.mp hd with rfl | hd
      · obtain ⟨-, hn, -⟩ := hb.register (ht ▸ mem_cons_self) rfl
        cases he
        exact .inr (.inl (by simp [onJoins, hn]))
      · obtain ⟨p, rfl, -⟩ := h.goOn hb ha ht he
        exact .inl (by simp [Call.after, hd])
    · left
      rwa [put_thread_of_ne _ _ _ hi.symm]
  · by_cases hx : x.removed? = some j
    · exact .inr (.inr (hs (hP.remove j (by simp [ht, hx]))))
    · exact .inr (.inl (hje.isSome hx hsm))
  · exact .inr (.inr (hs ho))

theorem outstanding_step (hP : Orderly e w (i, env)) (hj : Waiting e w j) :
    ∃ record, t.session.subagentState.joins.get? j = some record ∧ record.targetAgentId = e.request.targetAgentId ∧
      Outstanding e (w.put i t ((w.thread i).after r next)) j record := by
  have hje := exec_joinEffect he
  obtain ⟨record, hr, hta, hot⟩ := hj.record
  cases hot with
  | pending hs hu =>
    rcases eq_or_ne i e.marker with rfl | hi
    · -- the target ends: the join is satisfied and its wake is due
      obtain ⟨rfl, -, hst, it, rfl⟩ := hu.ended hP ht he
      have hwt : record.waitsFor e.request.targetAgentId = true := by
        simp [JoinRecord.waitsFor, hta, hs]
      refine ⟨record.resolve e.request.targetAgentId e.terminal, ?_, by rw [targetAgentId_resolve, hta],
        .waking (status_resolve_of_waitsFor _ hwt) ?_⟩
      · rw [hst, get?_joins_recordTerminal, hr, map_some]
      · have hw := mem_wakes_of_waitsFor hb.keyed e.terminal hr hwt
        simp [Call.after, hw]
    · have hk : ∀ agentId ∈ x.marked?, record.waitsFor agentId = false := by
        intro agentId hx
        obtain ⟨-, -, ho⟩ := hP.mark agentId (by simpa [ht] using hx)
        have hne : record.targetAgentId ≠ agentId := fun heq => hi (ho (heq ▸ hta))
        simp [JoinRecord.waitsFor, hne]
      refine ⟨record, hje.get?_join hr hk, hta, .pending hs ?_⟩
      rwa [Unmarked, put_thread_of_ne _ _ _ hi.symm]
  | waking hs hw =>
    refine ⟨record, hje.get?_join hr (by simp [JoinRecord.waitsFor, hs]), hta, ?_⟩
    rcases eq_or_ne i e.marker with rfl | hi
    · have hm : Marked e w := by
        refine h.marker.resolve_left fun hu => ?_
        rw [Unmarked] at hu
        simp [hu] at hw
      obtain ⟨p, rfl, -⟩ := hm.goOn hb ht he
      rw [ht] at hw
      rcases mem_cons.mp hw with rfl | hrs
      · exact .sent hs (hj.wake hb hP ht he)
      · exact .waking hs (by simp [Call.after, hrs])
    · exact .waking hs (by rwa [put_thread_of_ne _ _ _ hi.symm])
  | sent hs hsn =>
    refine ⟨record, hje.get?_join hr (by simp [JoinRecord.waitsFor, hs]), hta, .sent hs ?_⟩
    rw [put_shared, hje.sent fun hx => ?_, hsn]
    have hn := (hb.wake (ht ▸ mem_cons_self) hx).2
    rw [hsn] at hn
    cases hn

end

end Step

theorem Handover.step {e} {w v : World ι} {l : ι × Env} (h : Handover e w) (hb : Board w) (hne : e.joiner ≠ e.marker)
    (hP : Orderly e w l) (hs : Gateway.step w l = some v) : Handover e v := by
  obtain ⟨i, env⟩ := l
  obtain ⟨x, r, t, next, ht, he, rfl⟩ := step_eq_some.mp hs
  refine ⟨marker_step h.marker hb hP ht he, asking_step h hb ht he, fun rs =>
    answered_step h hb ht he, fun j ha => ?_⟩
  have hk : (w.thread e.joiner).answer = some (.pending j) →
      Waiting e (w.put i t ((w.thread i).after r next)) j := fun ho =>
    ⟨outstanding_step h hb ht he hP (h.waiting j ho), registered_step h hb ht he hP ho (h.waiting j ho)⟩
  rcases eq_or_ne i e.joiner with rfl | hi
  · rw [put_thread_self] at ha
    cases ho : (w.thread e.joiner).answer with
    | none => exact waiting_of_answer h hne ht he ho ha
    | some =>
      obtain ⟨p, rfl, -⟩ := h.goOn hb ho ht he
      exact hk ha
  · rw [put_thread_of_ne _ _ _ hi.symm] at ha
    exact hk ha

/-- **No wakeup is lost**: when the join was answered to be pending and the target's end has
been carried out, the target's snapshot was sent to the waiter, once, and no sender is left
unused. -/
theorem join_woken_once {session : SessionRecord} {operations : ι → Operation} {w : World ι} {j : String}
    (hkeyed : Keyed session.subagentState) (hjoiner : operations e.joiner = .joinSubagent e.request)
    (hmarker : operations e.marker = .markSubagentTerminal e.request.targetAgentId e.terminal e.lastError)
    (hrun : RunUnder Gateway.step (Orderly e) (start session operations) w)
    (hanswer : (w.thread e.joiner).answer = some (.pending j)) (hmarked : (w.thread e.marker).todo = []) :
    w.shared.waiters.sent j = [e.terminal] ∧ ∀ p ∈ w.shared.waiters.pendingJoins j, p.sender = false := by
  have hne : e.joiner ≠ e.marker := by
    intro heq
    rw [heq, hmarker] at hjoiner
    cases hjoiner
  have hi : Board w ∧ Handover e w := by
    refine hrun.invariant (I := fun w => Board w ∧ Handover e w) ⟨.start hkeyed operations, ?_⟩
      fun h hP hst => ⟨h.1.step hst, h.2.step h.1 hne hP hst⟩
    refine ⟨.inl ?_, fun _ => .inl ?_, ?_, ?_⟩
    · simp [Unmarked, start, hmarker, Operation.program]
    · simp [start, hjoiner]
    · intro rs hr
      cases hr
    · intro j hr
      cases hr
  obtain ⟨r, -, -, ho⟩ := (hi.2.waiting j hanswer).record
  cases ho with
  | pending _ hu => cases hmarked.symm.trans hu
  | waking _ hw => simp [hmarked] at hw
  | sent _ hs =>
    refine ⟨hs, fun p hp => ?_⟩
    have hun := (hi.1.waiter hp).2.not.mpr (by simp [hs])
    simpa using hun

instance [Fintype ι] : DecidableRel (Orderly e) := fun _ _ => decidable_of_iff _ (orderly_iff ..).symm

/-- The root agent joins the subagent, whose lane ends. -/
def rootJoinsScout : Encounter Bool where
  joiner := true
  marker := false
  request := ⟨"s", "root", "scout"⟩
  terminal := ⟨.completed, some "found it", none, 1⟩
  lastError := none

/-- The two calls. -/
def joinAndEnd : Bool → Operation
  | true => .joinSubagent rootJoinsScout.request
  | false => .markSubagentTerminal "scout" rootJoinsScout.terminal none

theorem join_woken_once_in_order : ∃ w : World Bool,
    RunUnder Gateway.step (Orderly rootJoinsScout) (start delegatingSession joinAndEnd) w ∧
      (w.thread true).answer = some (.pending "join_1") ∧ (∀ k, (w.thread k).todo = []) ∧
      w.shared.waiters.sent "join_1" = [rootJoinsScout.terminal] ∧
      ∀ p ∈ w.shared.waiters.pendingJoins "join_1", p.sender = false := by
  obtain ⟨w, hrn, ha, hd⟩ := exists_run_of_exec Gateway.step (Orderly rootJoinsScout)
    (start delegatingSession joinAndEnd)
    (fun w => (w.thread true).answer = some (.pending "join_1") ∧ ∀ k, (w.thread k).todo = [])
    [(true, {}), (true, { joinId := "join_1" }), (true, {}), (true, {}), (true, {}),
      (false, {}), (false, {}), (false, {}), (false, {}), (false, {}), (false, {}), (false, {})] (by decide)
  have hk : Keyed delegatingSession.subagentState := by
    intro j r hr
    cases hr
  exact ⟨w, hrn, ha, hd, join_woken_once rootJoinsScout hk rfl rfl hrn ha (hd false)⟩

/-- **A wakeup is lost**: the target ends after the join was answered to be pending and before
its waiter is registered. The wake is dropped, and the waiter that is registered afterwards is
never sent anything. -/
theorem late_registration_is_never_woken : ∃ w : World Bool,
    RunUnder Gateway.step Always (start delegatingSession joinAndEnd) w ∧
      (w.thread true).answer = some (.pending "join_1") ∧ (∀ k, (w.thread k).todo = [] ∧ (w.thread k).error = none) ∧
      w.shared.waiters.sent "join_1" = [] ∧ w.shared.waiters.pendingJoins "join_1" = some ⟨true, true⟩ :=
  exists_run_of_exec _ _ _ _
    [(true, {}), (true, { joinId := "join_1" }), (true, {}), (true, {}),
      (false, {}), (false, {}), (false, {}), (false, {}), (false, {}), (false, {}), (false, {}),
        (true, {})] (by decide)

end XiaoO.Gateway
