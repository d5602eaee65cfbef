import XiaoO.Gateway.Supervisor
import Mathlib.Data.Fintype.Basic

/-!
# Closing a session by force

`force_close` cancels the close token, waits for the lanes in flight until a deadline, and then
closes the session and saves it. A lane that misses the deadline is stopped at the close gate of its
task; the gate is at the end of the lane, and the lane saves the session several times before it.

## What is proved

If every lane has come to its gate when the session is closed, closing is final: nothing is written
to the store and the session stays closed, whatever is run afterwards (`force_close_final`). A lane
that is in flight saves a clone over the closed record (`straggler_reopens_stored_session`).
-/

namespace XiaoO.Gateway

open XiaoO.Base XiaoO.Subagent XiaoO.Backend Threads

variable {ι : Type} [DecidableEq ι]

/-- The call has returned, or is a lane that has not started or that has come to its gate. -/
def Call.atRest (call : Call) : Bool :=
  match call.todo with
  | [] => true
  | [.flow (.laneStart _)] => true
  | .flow (.gate _ _) :: _ => true
  | _ => false

/-- A step of a run whose lanes are **drained in time**: the session is closed when every
other call is at rest. -/
def Drained (w : World ι) (l : ι × Env) : Prop :=
  (w.thread l.1).todo.head? = some (.session .close) → ∀ k, k ≠ l.1 → (w.thread k).atRest = true

instance [Fintype ι] : DecidableRel (Drained : World ι → ι × Env → Prop) := fun w l =>
  inferInstanceAs (Decidable (_ → ∀ k, k ≠ l.1 → (w.thread k).atRest = true))

variable {e : Env} {f : ι} {v w : World ι}

theorem exec_closeCancelled {s t : Shared} {x : Instr} {next : Next}
    (h : exec e s x = some (t, next)) (hs : s.closeCancelled = true) : t.closeCancelled = true := by
  cases x with
  | session | flow =>
    obtain ⟨_, -, heq⟩ := Option.map_eq_some_iff.mp h
    cases heq
    exact hs
  | evict =>
    rw [exec] at h
    split at h <;> cases h <;> exact hs
  | cancelClose =>
    cases h
    rfl
  | _ =>
    cases h
    exact hs

/-- A call at rest does nothing once the close token is cancelled. -/
theorem atRest_step {s t : Shared} {c : Call} {x : Instr} {r : List Instr} {next : Next}
    (hr : c.atRest = true) (ht : c.todo = x :: r) (he : exec e s x = some (t, next))
    (hs : s.closeCancelled = true) : t = s ∧ (c.after r next).atRest = true := by
  rw [Call.atRest, ht] at hr
  split at hr
  · next heq => cases heq
  · next a heq =>
    cases heq
    rw [exec, onFlow, if_pos hs] at he
    cases he
    exact ⟨rfl, rfl⟩
  · next a rs r' heq =>
    cases heq
    rw [exec, onFlow, closeGate.eq_def, if_pos hs] at he
    cases he
    exact ⟨rfl, rfl⟩
  · cases hr

/-- The session is closed, for good. -/
structure Closed (f : ι) (w : World ι) : Prop where
  status : w.shared.session.status = .closed
  cancelled : w.shared.closeCancelled = true
  atRest : ∀ k, k ≠ f → (w.thread k).atRest = true

/-- The phases of `force_close`, the call `f`. -/
inductive Phase (f : ι) (w : World ι) : Prop where
  /-- It has not begun. -/
  | before : (w.thread f).todo = Operation.forceClose.program → Phase f w
  /-- It waits for the lanes. -/
  | draining : (w.thread f).todo = [.flow .drainLanes, .session .close] → w.shared.closeCancelled = true → Phase f w
  /-- The lanes are drained, or the deadline has passed. -/
  | drained : (w.thread f).todo = [.session .close] → w.shared.closeCancelled = true → Phase f w
  /-- The session is closed and has to be saved. -/
  | closed : (w.thread f).todo = [.save w.shared.session] → Closed f w → Phase f w
  /-- The closed session is saved. -/
  | saved : (w.thread f).todo = [] → w.shared.store = some w.shared.session → Closed f w → Phase f w

theorem Phase.step_own (h : Phase f w) (hP : Drained w (f, e)) (hs : step w (f, e) = some v) : Phase f v := by
  obtain ⟨x, r, t, next, ht, he, rfl⟩ := step_eq_some.mp hs
  cases h with
  | before hf =>
    cases ht.symm.trans hf
    cases he
    exact .draining (by simp [Call.after]) rfl
  | draining hf hc =>
    cases ht.symm.trans hf
    cases he
    exact .drained (by simp [Call.after]) hc
  | drained hf hc =>
    cases ht.symm.trans hf
    cases he
    refine .closed (by simp [Call.after, committed]) ⟨rfl, hc, fun k hk => ?_⟩
    rw [put_thread_of_ne _ _ _ hk]
    exact hP (by rw [hf]; rfl) k hk
  | closed hf hcl =>
    cases ht.symm.trans hf
    cases he
    refine .saved (by simp [Call.after]) rfl ⟨hcl.status, hcl.cancelled, fun k hk => ?_⟩
    rw [put_thread_of_ne _ _ _ hk]
    exact hcl.atRest k hk
  | saved hf => cases ht.symm.trans hf

theorem Closed.step {i : ι} (h : Closed f w) (hi : i ≠ f)
    (hs : Gateway.step w (i, e) = some v) : v.shared = w.shared ∧ Closed f v := by
  obtain ⟨x, r, t, next, ht, he, rfl⟩ := step_eq_some.mp hs
  obtain ⟨rfl, hr⟩ := atRest_step (h.atRest i hi) ht he h.cancelled
  refine ⟨rfl, h.status, h.cancelled, ?_⟩
  exact forall_put (P := fun k (c : Call) => k ≠ f → c.atRest = true) (fun _ => hr) fun k _ hk => h.atRest k hk

theorem thread_step {i k : ι} (hs : step w (i, e) = some v) (hk : k ≠ i) : v.thread k = w.thread k := by
  obtain ⟨x, r, t, next, -, -, rfl⟩ := step_eq_some.mp hs
  exact put_thread_of_ne _ _ _ hk

theorem Phase.step {l : ι × Env} (h : Phase f w) (hP : Drained w l)
    (hst : Gateway.step w l = some v) : Phase f v := by
  obtain ⟨i, e⟩ := l
  rcases eq_or_ne i f with rfl | hi
  · exact h.step_own hP hst
  · have ht : v.thread f = w.thread f := thread_step hst hi.symm
    have hcn : w.shared.closeCancelled = true → v.shared.closeCancelled = true := by
      obtain ⟨x, r, t, next, -, he, rfl⟩ := step_eq_some.mp hst
      exact exec_closeCancelled he
    cases h with
    | before hf => exact .before (ht ▸ hf)
    | draining hf hw => exact .draining (ht ▸ hf) (hcn hw)
    | drained hf hw => exact .drained (ht ▸ hf) (hcn hw)
    | closed hf hc =>
      obtain ⟨hs, hc⟩ := hc.step hi hst
      exact .closed (by rw [ht, hf, hs]) hc
    | saved hf hsr hc =>
      obtain ⟨hs, hc⟩ := hc.step hi hst
      exact .saved (ht ▸ hf) (by rw [hs, hsr]) hc

/-- What holds once the closed session is saved. -/
structure Final (f : ι) (record : SessionRecord) (w : World ι) : Prop where
  returned : (w.thread f).todo = []
  store : w.shared.store = some record
  session : w.shared.session = record
  closed : Closed f w

theorem Final.step {record : SessionRecord} {l : ι × Env} (h : Final f record w)
    (hst : Gateway.step w l = some v) : Final f record v := by
  obtain ⟨i, e⟩ := l
  have hi : i ≠ f := by
    rintro rfl
    obtain ⟨x, r, t, next, ht, -⟩ := step_eq_some.mp hst
    cases ht.symm.trans h.returned
  obtain ⟨hs, hc⟩ := h.closed.step hi hst
  exact ⟨thread_step hst hi.symm ▸ h.returned, hs ▸ h.store, hs ▸ h.session, hc⟩

/-- **Closing is final**: in a run whose lanes are drained in time, once `force_close` has
returned the store holds the closed session, and nothing that runs afterwards writes to the
store or opens the session. -/
theorem force_close_final {session : SessionRecord} {operations : ι → Operation} {f : ι} {w v : World ι}
    (hf : operations f = .forceClose) (hrun : RunUnder Gateway.step Drained (start session operations) w)
    (hreturned : (w.thread f).todo = []) (hmore : RunUnder Gateway.step Drained w v) :
    (∃ record, w.shared.store = some record ∧ record.status = .closed) ∧
      v.shared.store = w.shared.store ∧ v.shared.session.status = .closed := by
  have hp : Phase f w :=
    hrun.invariant (.before (by simp [start, hf])) fun h hP hst => h.step hP hst
  cases hp with
  | saved hf hs hc =>
    have hfn : Final f w.shared.session v :=
      hmore.invariant ⟨hf, hs, rfl, hc⟩ fun h _ hst => h.step hst
    exact ⟨⟨_, hs, hc.status⟩, hfn.store.trans hs.symm, hfn.closed.status⟩
  | before hf | draining hf | drained hf | closed hf => cases hreturned.symm.trans hf

/-- The session is closed while the lane of the subagent is in flight. -/
def closeAndLane : Bool → Operation
  | true => .forceClose
  | false => .lane "scout"

/-- The lane up to the save of what its worker has done. -/
def laneInFlight : List (Bool × Env) :=
  [(false, {}), (false, {}), (false, {}), (false, {}), (false, {}), (false, {}),
    (false, { lease := .ok ⟨"be_1", "sandbox_1", "s", ""⟩ }), (false, {}), (false, {}),
    (false, { worker := .complete { loopState := some "done" } ⟨.completed, some "done", none, 1⟩ }), (false, {})]

/-- The lane saves and comes to its gate while `force_close` waits for it. -/
theorem force_close_final_in_flight : ∃ w v : World Bool,
    RunUnder Gateway.step Drained (start delegatingSession closeAndLane) w ∧ RunUnder Gateway.step Drained w v ∧
      (w.thread false).todo ≠ [] ∧ (v.thread false).todo = [] ∧
      (∃ record, w.shared.store = some record ∧ record.status = .closed) ∧
      v.shared.store = w.shared.store ∧ v.shared.session.status = .closed := by
  obtain ⟨w, v, hrn, hm, hr, hn, hl⟩ :=
    exists_runs_of_exec Gateway.step Drained (start delegatingSession closeAndLane)
    (fun w v => (w.thread true).todo = [] ∧ (w.thread false).todo ≠ [] ∧ (v.thread false).todo = [])
    (laneInFlight.append
      [(true, {}), (false, {}), (false, {}), (false, {}), (true, {}), (true, {}), (true, {})])
        [(false, {})] (by decide)
  exact ⟨w, v, hrn, hm, hn, hl, force_close_final rfl hrn hr hm⟩

/-- **A straggler reopens the stored session**: a lane that has persisted its state before
the session is closed saves its clone after it. -/
theorem straggler_reopens_stored_session : ∃ w v : World Bool,
    RunUnder Gateway.step Always (start delegatingSession closeAndLane) w ∧ RunUnder Gateway.step Always w v ∧
      (w.thread true).todo = [] ∧ w.shared.store.map (·.status) = some .closed ∧
      v.shared.store.map (·.status) = some .idle :=
  exists_runs_of_exec _ _ _ _ (laneInFlight.append [(true, {}), (true, {}), (true, {}), (true, {})])
    [(false, {})] (by decide)

end XiaoO.Gateway
