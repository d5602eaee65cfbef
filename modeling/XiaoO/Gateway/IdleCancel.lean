import XiaoO.Gateway.SessionActor

/-!
# Cancels that come while no turn is active

A `CancelActiveTurn` that finds no active turn is remembered by its instant (`idle_cancel_at`), and
a turn that starts later is cancelled at once if it was submitted before that instant. The actor
keeps one instant only.

Next to the actor, `Timed` keeps the instant of the last command and of every idle cancel. The clock
is monotone: no command is handled before the last one (`Monotone`).

## What is proved

The one instant is as good as all of them: a turn is cancelled when it starts if and only if some
idle cancel came after it was submitted (`cancelled_at_start_iff`).
-/

namespace XiaoO.Gateway.SessionActor

open XiaoO.Base Option State

variable {ι : Type*} [DecidableEq ι] {s s' : State ι} {act : Act ι}

/-- The instant of an idle cancel: the command comes out of the channel, and no turn is active. -/
def State.idleCancel? (s : State ι) : Act ι → Option ℕ
  | .receive now => if s.channel.head? = some .cancelActiveTurn ∧ s.actor.activeTurn = none then some now else none
  | _ => none

/-- Only an idle cancel changes the remembered instant. -/
theorem idleCancelAt_of_step (h : step s act = some s') :
    s'.actor.idleCancelAt = (s.idleCancel? act).or s.actor.idleCancelAt := by
  cases act with
  | receive =>
    rw [step, receive] at h
    split at h <;> cases h
    next c r hp hc =>
    cases c with
    | runTurn | hibernateIdle =>
      simp only [handleCommand]
      split_ifs <;> simp [idleCancel?, hc, go, reply]
    | snapshot | nop => simp [handleCommand, idleCancel?, hc, go]
    | cancelActiveTurn =>
      cases ha : s.actor.activeTurn <;>
        simp [handleCommand, idleCancel?, hc, ha, cancelActive, go]
    | forceClose =>
      simp only [handleCommand, beginForceClose]
      split_ifs <;> simp [idleCancel?, hc, go, failPendingTurns, cancelActive]
  | _ => cases step_effect h <;> rfl

/-- An actor with the instant of its last command and the instants of all idle cancels, the last one
first. -/
structure Timed (ι : Type*) where
  state : State ι
  clock : ℕ := 0
  idleCancels : List ℕ := []

def Act.instant? : Act ι → Option ℕ
  | .receive now => some now
  | _ => none

variable (w : Timed ι)

def timedStep (act : Act ι) : Option (Timed ι) :=
  (step w.state act).map fun state =>
    { state
      clock := act.instant?.getD w.clock
      idleCancels := (w.state.idleCancel? act).toList ++ w.idleCancels }

/-- The clock does not go back. -/
def Monotone (act : Act ι) : Prop := ∀ now ∈ act.instant?, w.clock ≤ now
  deriving Decidable

/-- The last idle cancel is remembered, and none came later than it. -/
structure Remembers : Prop where
  last : w.state.actor.idleCancelAt = w.idleCancels.head?
  le_last : ∀ t ∈ w.idleCancels, ∀ last ∈ w.idleCancels.head?, t ≤ last
  le_clock : ∀ t ∈ w.idleCancels, t ≤ w.clock

theorem Remembers.step {w w' : Timed ι} (h : Remembers w) (hc : Monotone w act)
    (hst : timedStep w act = some w') : Remembers w' := by
  obtain ⟨st, hs, rfl⟩ := map_eq_some_iff.mp hst
  have hat := idleCancelAt_of_step hs
  cases hi : w.state.idleCancel? act with
  | none =>
    rw [hi, none_or] at hat
    refine ⟨hat.trans h.last, h.le_last, fun t ht => (h.le_clock t ht).trans ?_⟩
    cases hn : act.instant? with
    | none => exact le_rfl
    | some now => exact hc now hn
  | some now =>
    obtain ⟨rfl⟩ : act = .receive now := by
      cases act <;> simp_all [idleCancel?]
    have hle : ∀ t ∈ now :: w.idleCancels, t ≤ now := by
      rintro t (_ | ⟨_, ht⟩)
      · exact le_rfl
      · exact (h.le_clock t ht).trans (hc now rfl)
    rw [hi, some_or] at hat
    refine ⟨hat, fun t ht l hl => ?_, hle⟩
    cases hl
    exact hle t ht

/-- **An idle cancel hits the right turns**: in any run with a monotone clock, a turn's token is
cancelled when the turn is started if and only if some `CancelActiveTurn` was handled before, with
no turn active, at an instant after the turn was submitted. -/
theorem cancelled_at_start_iff {session : Session ι} {w w' : Timed ι}
    (h : RunUnder timedStep Monotone { state := start session } w) (hst : timedStep w act = some w')
    {turn : ι} (hs : w'.state.started = w.state.started ++ [turn]) :
    ∃ active, w'.state.actor.activeTurn = some active ∧ active.turn = turn ∧
      (active.cancelled = true ↔ ∃ t ∈ w.idleCancels, (w.state.session.requests turn).submittedAt < t) := by
  have hi : Remembers w := h.invariant (I := Remembers) ⟨rfl, nofun, nofun⟩ fun h hc hst => h.step hc hst
  have hne : w.state.started ≠ w.state.started ++ [turn] := by simp
  obtain ⟨state, hsta, rfl⟩ := map_eq_some_iff.mp hst
  cases step_effect hsta with
  | started next =>
    obtain rfl : next = turn := by simpa [startTurn] using hs
    refine ⟨_, rfl, rfl, ?_⟩
    rw [hi.last, any_eq_true]
    simp only [decide_eq_true_eq]
    constructor
    · rintro ⟨l, hl, hlt⟩
      exact ⟨l, List.mem_of_mem_head? hl, hlt⟩
    · rintro ⟨t, ht, hlt⟩
      cases hl : w.idleCancels.head? with
      | none => simp [List.head?_eq_none_iff.mp hl] at ht
      | some l => exact ⟨l, rfl, lt_of_lt_of_le hlt (hi.le_last t ht l hl)⟩
  | _ => exact absurd hs hne

/-- A turn that waits in the channel while a cancel is handled. -/
theorem cancelled_at_start_iff_queued :
    ∃ w w' : Timed Unit, timedStep w (.judge .new none) = some w' ∧ w.idleCancels = [2] ∧
      ∃ active, w'.state.actor.activeTurn = some active ∧ active.cancelled = true := by
  obtain ⟨w, hr, hw⟩ := exists_run_of_exec timedStep Monotone
    { state := start ⟨"s", fun _ => 0, fun _ => ⟨none, 1⟩⟩ }
    (fun w => w.idleCancels = [2] ∧ (w.state.session.requests ()).submittedAt = 1 ∧
      (timedStep w (.judge .new none)).any fun w' => w'.state.started = w.state.started ++ [()])
    [.command .cancelActiveTurn, .enter (), .count (), .send (), .startNext, .receive 2, .startNext, .receive 3,
      .finishHandler, .startNext] (by decide +kernel)
  obtain ⟨hc, hsb, hst⟩ := hw
  obtain ⟨w', hsp, hs⟩ := (any_eq_true ..).mp hst
  obtain ⟨active, ha, -, hi⟩ := cancelled_at_start_iff hr hsp (of_decide_eq_true hs)
  exact ⟨w, w', hsp, hc, active, ha, hi.mpr ⟨2, by simp [hc], by omega⟩⟩

end XiaoO.Gateway.SessionActor
