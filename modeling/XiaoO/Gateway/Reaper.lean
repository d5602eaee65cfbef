import XiaoO.Gateway.ActorDiscipline
import XiaoO.Gateway.SessionRecord

/-!
# The reaper of orphan sessions

The reaper (`reap_one_record` of `shared/src/gateway/session_service_impl.rs`) closes sessions that
nobody has used for two hours. It does not want to kill a turn: it looks at the phase that the
session's actor has published, sets the flag `closing` if that is not `Running`, looks again for a
live lease, and then asks the actor to close the session.

## The model

The reaper's steps go from one await to the next, in between the steps of the actor and its callers
(`SessionActor`). It may sweep any number of times, with any record, clock and snapshot of the
leases. The session's handle is registered with the service by the first turn or by the reaper
itself, so a sweep may also find none; the flag and the wakeup are used by nobody but the reaper.
The lease table may change in any way at any time. The `Snapshot` that precedes the `ForceClose` is
sent; its reply is not waited for, as the two go through the same channel.

## What is proved

If the reaper decides only when the actor has no turn in its hands, and the actor finds none to
start while a session without the flag is closed, no turn is active when the reaper's `ForceClose`
is handled (`no_turn_reaped_of_run`). The actor has a turn in its hands that it does not show
between its look at the flag and the publication of `Running`, and a sweep in between kills that
turn (`started_turn_is_reaped`).
-/

namespace XiaoO.Gateway.SessionActor

open XiaoO.Base XiaoO.Gateway.Lease List Option

/-! ### The reaper -/

def orphanSessionThresholdMs : ℕ := 7200000

def hasLiveLease (hash : String → ℕ) (table : SessionLeaseTable) (reading : Option ℕ) (sessionId : String)
    (staleThresholdMs : ℕ) : Bool :=
  match reading with
  | none => false
  | some now => (table.get? hash sessionId).any fun lease => !lease.isStale now staleThresholdMs

/-- What the reaper has at hand when it comes to a session. -/
structure Sweep where
  status : SessionLifecycleStatus
  updatedAtMs : ℕ
  now : ℕ
  /-- The snapshot of the leases: session, client and last heartbeat. -/
  liveLeases : List (String × String × ℕ)

/-- `should_skip_reap`, the first three conditions. -/
def Sweep.skips (sweep : Sweep) (sessionId : String) : Bool :=
  sweep.status = .closed ||
    sweep.liveLeases.any (fun lease => lease.1 = sessionId ∧ sweep.now - lease.2.2 ≤ staleLeaseThresholdMs) ||
    sweep.now - sweep.updatedAtMs < orphanSessionThresholdMs

inductive Reaper where
  | idle
  /-- It waits for the lock of the handles, to look at the phase. -/
  | deciding
  /-- It looks again for a live lease. -/
  | rechecking
  /-- It takes the flag back, and then sends the wakeup. -/
  | undoing
  | waking
  /-- It sends a `Snapshot`, and then the `ForceClose`. -/
  | snapshotting
  | closing
  | done
  deriving DecidableEq

/-- The reaper has looked at the phase, and may close the session. -/
def Reaper.hasDecided : Reaper → Bool
  | .rechecking | .undoing | .snapshotting | .closing | .done => true
  | .idle | .deciding | .waking => false

/-- A session under a reaper. -/
structure World (ι : Type*) where
  state : State ι
  /-- The handle is among `sessions_handler`. -/
  registered : Bool
  table : SessionLeaseTable
  reaper : Reaper

variable {ι : Type*} [DecidableEq ι] (w : World ι)

namespace World

/-- The reaper goes on, and leaves the session as it is. -/
def go (reaper : Reaper) : World ι := { w with reaper }

/-- `reap_one_record`, up to the lock of the handles. -/
def sweep (w : World ι) (sweep : Sweep) : Option (World ι) :=
  if w.reaper = .idle then some (if sweep.skips w.state.session.sessionId then w else w.go .deciding) else none

/-- `should_skip_reap`: the phase, and the flag. -/
def checkPhase : Option (World ι) :=
  if w.reaper = .deciding then
    if w.registered then
      if w.state.status.phase = .running then some (w.go .idle)
      else some { w.go .rechecking with state := w.state.markClosing }
    else some (w.go .rechecking)
  else none

/-- `should_skip_reap`: the second look for a live lease. -/
def recheck (reading : Option ℕ) : Option (World ι) :=
  if w.reaper = .rechecking then
    if hasLiveLease w.state.session.hash w.table reading w.state.session.sessionId staleLeaseThresholdMs then
      some (w.go .undoing)
    else some (w.go .snapshotting)
  else none

/-- `clear_closing`, in its two operations. -/
def undo : Option (World ι) :=
  if w.reaper = .undoing then
    if w.registered then some { w.go .waking with state := w.state.clearClosing } else some (w.go .idle)
  else none

def wake : Option (World ι) :=
  if w.reaper = .waking then w.state.wake.map fun state => { w.go .idle with state } else none

/-- `close_self_record`: `handle_for_session`, which makes a handle if there is none and the stored
record is not `Paused`, and the snapshot of the handle. Without a handle only the record is
closed. -/
def snapshot (paused : Bool) : Option (World ι) :=
  if w.reaper = .snapshotting then
    if w.registered || !paused then
      (w.state.command .snapshot).map fun state => { w.go .closing with state, registered := true }
    else some (w.go .done)
  else none

/-- `close_self_record`: `force_close`. -/
def forceClose (w : World ι) : Option (World ι) :=
  if w.reaper = .closing then (w.state.command (.forceClose .reaper)).map fun state =>
    { w.go .done with state } else none

end World

/-- What is not the reaper's to do. -/
def Act.isOther : Act ι → Bool
  | .markClosing | .clearClosing | .wake | .judge _ _ | .command (.forceClose .reaper) => false
  | _ => true

inductive WorldAct (ι : Type*) where
  /-- A turn finds no handle, and makes one. -/
  | register
  | lease (table : SessionLeaseTable)
  | act (act : Act ι)
  /-- The actor has looked up the lease in the table. -/
  | judge (reading : Option ℕ)
  | sweep (sweep : Sweep)
  | checkPhase
  | recheck (reading : Option ℕ)
  | undo
  | wake
  | snapshot (paused : Bool)
  | forceClose

def worldStep : WorldAct ι → Option (World ι)
  | .register => some { w with registered := true }
  | .lease table => some { w with table }
  | .act act =>
    if w.registered && act.isOther then (step w.state act).map fun state => { w with state } else none
  | .judge reading => if w.registered then (w.state.judge w.table reading).map fun state =>
      { w with state } else none
  | .sweep sweep => w.sweep sweep
  | .checkPhase => w.checkPhase
  | .recheck reading => w.recheck reading
  | .undo => w.undo
  | .wake => w.wake
  | .snapshot paused => w.snapshot paused
  | .forceClose => w.forceClose

/-- A session that has no handle yet. -/
def World.start (session : Session ι) (table : SessionLeaseTable) : World ι where
  state := SessionActor.start session
  registered := false
  table := table
  reaper := .idle

/-! ### What the reaper avoids -/

/-- **The property**: when the `ForceClose` of the reaper is handled, no turn is active. -/
def NoTurnReaped (s : State ι) : Prop :=
  s.actor.place = .waiting → s.channel.head? = some (.forceClose .reaper) → s.actor.activeTurn = none

/-- The actor has a turn in its hands: it has popped one, or one is active. -/
def Actor.HasTurn (actor : Actor ι) : Prop :=
  actor.activeTurn.isSome = true ∨ actor.place.popped ≠ []

/-- A step in a run in which the reaper is **undisturbed**: it decides to close a session only if
the actor has no turn in its hands, and while it closes a session that it could not mark, the actor
finds no turn to start. -/
def Undisturbed : WorldAct ι → Prop
  | .checkPhase => w.registered = true → w.state.status.phase ≠ .running → ¬ w.state.actor.HasTurn
  | .act .startNext => w.reaper.hasDecided = true → w.state.closing = true ∨ w.state.actor.pendingTurns = []
  | _ => True

instance : DecidableRel (Undisturbed : World ι → WorldAct ι → Prop) := fun w a => by
  unfold Undisturbed
  split
  · exact inferInstanceAs (Decidable (_ → _ → ¬ (_ ∨ _)))
  · infer_instance
  · infer_instance

omit [DecidableEq ι] in
theorem not_hasTurn {a : Actor ι} (ha : a.activeTurn = none) (hpl : a.place.popped = []) : ¬ a.HasTurn := by
  rintro (hs | hp)
  · rw [ha] at hs
    cases hs
  · exact hp hpl

omit [DecidableEq ι] in
theorem activeTurn_eq_none {a : Actor ι} (h : ¬ a.HasTurn) : a.activeTurn = none := by
  by_contra hs
  exact h (.inl (isSome_iff_ne_none.mpr hs))

variable {s s' : State ι} {act : Act ι}

/-- An actor takes a turn only when it looks for the next one, finds one and the flag is not set. -/
theorem not_hasTurn_step (h : ¬ s.actor.HasTurn) (he : Effect s act s')
    (hn : act = .startNext → s.closing = true ∨ s.actor.pendingTurns = []) : ¬ s'.actor.HasTurn := by
  have ha := activeTurn_eq_none h
  cases he with
  | called | counted | sent | refused | gaveUp | commanded | marked | cleared | woke | wokeFull | finished => exact h
  | popped _ _ _ _ _ hpn ho =>
    rcases hn rfl with hc | hc
    · rw [hc] at ho
      cases ho
    · rw [hc] at hpn
      cases hpn
  | started next hp =>
    refine absurd (.inr ?_) h
    rw [hp]
    exact cons_ne_nil next []
  | handled _ _ _ _ _ hx =>
    rcases hx with rfl | rfl <;> exact not_hasTurn ha rfl
  | cancelled | closes =>
    refine not_hasTurn ?_ rfl
    show s.actor.activeTurn.map _ = none
    rw [ha]
    rfl
  | doneClosing | done | doneClosed => exact not_hasTurn rfl rfl
  | _ => exact not_hasTurn ha rfl

/-- The reaper's command is sent by nothing else. -/
theorem mem_channel_of_ne_forceClose (he : Effect s act s') (ha : act ≠ .command (.forceClose .reaper))
    (hm : .forceClose .reaper ∈ s'.channel) : .forceClose .reaper ∈ s.channel := by
  cases he with
  | commanded =>
    rcases mem_append.mp hm with hm | hm
    · exact hm
    · rw [← mem_singleton.mp hm] at ha
      exact absurd rfl ha
  | sent | woke =>
    rcases mem_append.mp hm with hm | hm
    · exact hm
    · cases mem_singleton.mp hm
  | turnRejected _ _ _ hc | turnQueued _ _ _ hc | handled _ _ _ hc | cancelled _ _ hc
  | idleCancelled _ _ _ hc | hibernates _ _ _ hc | closesAgain _ _ _ hc | closes _ _ _ hc =>
    rw [hc]
    exact mem_cons_of_mem _ hm
  | _ => exact hm

/-! ### The invariant -/

/-- What holds while the reaper is undisturbed. -/
structure ReaperInv : Prop where
  noTurn : w.reaper.hasDecided = true → ¬ w.state.actor.HasTurn
  /-- The `ForceClose` is the last that the reaper does. -/
  unsent : w.reaper ≠ .done → .forceClose .reaper ∉ w.state.channel
  unregistered : w.registered = false → w.state.channel = [] ∧ ¬ w.state.actor.HasTurn
  /-- The reaper uses the handle only if there is one. -/
  handle : w.reaper = .waking ∨ w.reaper = .closing → w.registered = true

variable {w w' : World ι}

section

omit [DecidableEq ι]

theorem reaperInv_start (ss : Session ι) (t : SessionLeaseTable) : ReaperInv (World.start ss t) where
  noTurn := nofun
  unsent _ := not_mem_nil
  unregistered _ := ⟨rfl, not_hasTurn rfl rfl⟩
  handle := nofun

/-- The reaper goes on without the handle, to a place on the same side of its decision. -/
theorem ReaperInv.go (h : ReaperInv w) {r : Reaper} (hd : r.hasDecided = true → w.reaper.hasDecided = true)
    (hdn : r ≠ .done → w.reaper ≠ .done) (hh : r ≠ .waking ∧ r ≠ .closing) : ReaperInv (w.go r) where
  noTurn hn := h.noTurn (hd hn)
  unsent hn := h.unsent (hdn hn)
  unregistered := h.unregistered
  handle hn := (hn.elim hh.1 hh.2).elim

theorem unregistered_of_registered {P : Prop} (hr : w.registered = true) (hn : w.registered = false) : P := by
  rw [hr] at hn
  cases hn

end

section

variable (h : ReaperInv w)
include h

/-- What the actor and its callers do. -/
theorem ReaperInv.others (hr : w.registered = true) (he : Effect w.state act s')
    (hn : act = .startNext → Undisturbed w (.act .startNext)) (hcl : act ≠ .command (.forceClose .reaper)) :
    ReaperInv { w with state := s' } where
  noTurn hd := not_hasTurn_step (h.noTurn hd) he fun ha => hn ha hd
  unsent hdn hm := h.unsent hdn (mem_channel_of_ne_forceClose he hcl hm)
  unregistered := unregistered_of_registered hr
  handle := h.handle

omit [DecidableEq ι] in
theorem ReaperInv.checkPhase (hu : Undisturbed w .checkPhase) (hs : w.checkPhase = some w') : ReaperInv w' := by
  unfold World.checkPhase at hs
  split_ifs at hs with hrp hr hp <;> cases hs
  · exact h.go nofun (fun _ => by simp [hrp]) ⟨nofun, nofun⟩
  · have hi := hu hr hp
    exact ⟨fun _ => hi, fun _ => h.unsent (by simp [hrp]), h.unregistered, nofun⟩
  · have hi := (h.unregistered (Bool.eq_false_of_not_eq_true hr)).2
    exact ⟨fun _ => hi, fun _ => h.unsent (by simp [hrp]), h.unregistered, nofun⟩

omit [DecidableEq ι] in
theorem ReaperInv.undo (hs : w.undo = some w') : ReaperInv w' := by
  unfold World.undo at hs
  split_ifs at hs with hrp hr <;> cases hs
  · exact ⟨nofun, fun _ => h.unsent (by simp [hrp]), h.unregistered, fun _ => hr⟩
  · exact h.go nofun (fun _ => by simp [hrp]) ⟨nofun, nofun⟩

theorem ReaperInv.wake (hs : w.wake = some w') : ReaperInv w' := by
  unfold World.wake at hs
  split_ifs at hs with hr
  obtain ⟨state, hw, rfl⟩ := map_eq_some_iff.mp hs
  have he : Effect w.state .wake state := step_effect hw
  have ho := h.others (h.handle (.inl hr)) he nofun nofun
  exact ho.go nofun (fun _ => by simp [hr]) ⟨nofun, nofun⟩

omit [DecidableEq ι] in
theorem ReaperInv.register : ReaperInv { w with registered := true } :=
  ⟨h.noTurn, h.unsent, nofun, fun _ => rfl⟩

theorem ReaperInv.snapshot {paused : Bool} (hs : w.snapshot paused = some w') : ReaperInv w' := by
  unfold World.snapshot at hs
  split_ifs at hs with hrp
  · obtain ⟨state, hc, rfl⟩ := map_eq_some_iff.mp hs
    have he : Effect w.state (.command .snapshot) state := step_effect hc
    have ho := h.register.others rfl he nofun nofun
    have hd : w.reaper.hasDecided = true := by rw [hrp]; rfl
    exact ⟨fun _ => ho.noTurn hd, fun _ => ho.unsent (by simp [hrp]), nofun, fun _ => rfl⟩
  · cases hs
    exact h.go (fun _ => by rw [hrp]; rfl) (fun hn => absurd rfl hn) ⟨nofun, nofun⟩

theorem ReaperInv.forceClose (hs : w.forceClose = some w') : ReaperInv w' := by
  unfold World.forceClose at hs
  split_ifs at hs with hrp
  obtain ⟨state, hc, rfl⟩ := map_eq_some_iff.mp hs
  have he : Effect w.state (.command (.forceClose .reaper)) state := step_effect hc
  have hn := h.noTurn (by rw [hrp]; rfl)
  exact ⟨fun _ => not_hasTurn_step hn he nofun, fun hn => absurd rfl hn,
    unregistered_of_registered (h.handle (.inr hrp)), nofun⟩

theorem ReaperInv.step {a : WorldAct ι} (hu : Undisturbed w a) (hs : worldStep w a = some w') : ReaperInv w' := by
  cases a with
  | register =>
    cases hs
    exact h.register
  | lease =>
    cases hs
    exact ⟨h.noTurn, h.unsent, h.unregistered, h.handle⟩
  | act =>
    rw [worldStep] at hs
    split_ifs at hs with hg
    rw [Bool.and_eq_true] at hg
    obtain ⟨st, ha, rfl⟩ := map_eq_some_iff.mp hs
    refine h.others hg.1 (step_effect ha) ?_ ?_
    · rintro rfl
      exact hu
    · rintro rfl
      cases hg.2
  | judge =>
    rw [worldStep] at hs
    split_ifs at hs with hrg
    obtain ⟨st, hj, rfl⟩ := map_eq_some_iff.mp hs
    exact h.others hrg (judge_effect hj) nofun nofun
  | sweep =>
    rw [worldStep, World.sweep] at hs
    split_ifs at hs with hr <;> cases hs
    · exact h
    · exact h.go nofun (fun _ => by simp [hr]) ⟨nofun, nofun⟩
  | checkPhase => exact h.checkPhase hu hs
  | recheck =>
    rw [worldStep, World.recheck] at hs
    split_ifs at hs with hr <;> cases hs
    · exact h.go (fun _ => by rw [hr]; rfl) (fun _ => by simp [hr]) ⟨nofun, nofun⟩
    · exact h.go (fun _ => by rw [hr]; rfl) (fun _ => by simp [hr]) ⟨nofun, nofun⟩
  | undo => exact h.undo hs
  | wake => exact h.wake hs
  | snapshot => exact h.snapshot hs
  | forceClose => exact h.forceClose hs

end

/-- **The reaper kills no turn** in a run in which it is undisturbed. -/
theorem no_turn_reaped_of_run {session : Session ι} {table : SessionLeaseTable}
    (hrun : RunUnder worldStep Undisturbed (World.start session table) w) : NoTurnReaped w.state := by
  have hi : ReaperInv w := hrun.invariant (I := ReaperInv) (reaperInv_start session table)
    fun h hu hs => h.step hu hs
  intro _ hh
  have hm : .forceClose .reaper ∈ w.state.channel := mem_of_mem_head? hh
  have hd : w.reaper = .done := by
    by_contra hd
    exact hi.unsent hd hm
  exact activeTurn_eq_none (hi.noTurn (by rw [hd]; rfl))

/-- A session that nobody has used for two hours, when no lease is live. -/
def orphaned : Sweep where
  status := .idle
  updatedAtMs := 0
  now := orphanSessionThresholdMs
  liveLeases := []

/-- A turn of a client whose lease is gone. -/
def detachedSession : Session (Fin 1) where
  sessionId := "session"
  hash _ := 0
  requests _ := { clientId := some "tui", submittedAt := 0 }

/-- An orphan is closed while a turn comes in: the turn is popped after the flag is set, goes back
to the queue, and is there when the `ForceClose` is handled. -/
theorem no_turn_reaped_of_run_requeued :
    ∃ w : World (Fin 1), RunUnder worldStep Undisturbed (World.start detachedSession .new) w ∧
      (w.state.actor.place = .waiting ∧ w.state.channel.head? = some (.forceClose .reaper) ∧
        w.state.actor.pendingTurns = [0]) ∧ NoTurnReaped w.state :=
  (exists_run_of_exec _ _ _ _
    (flatten [[.register], (submit 0).map .act, [.act .startNext, .sweep orphaned, .checkPhase], takeTurn.map .act,
      [.recheck (some orphanSessionThresholdMs), .snapshot false], takeTurn.map .act, [.forceClose]])
    (by decide +kernel)).imp
    fun w ⟨hr, he⟩ => ⟨hr, he, no_turn_reaped_of_run hr⟩

/-- The actor pops a turn and looks up its lease. The reaper sees the phase `Idle`, sets the flag,
finds no live lease and asks for the session to be closed; the actor has looked at the flag before,
and starts the turn. -/
theorem started_turn_is_reaped :
    ∃ w : World (Fin 1), RunUnder worldStep Always (World.start detachedSession .new) w ∧
      w.state.actor.place = .waiting ∧ w.state.channel.head? = some (.forceClose .reaper) ∧
      w.state.actor.activeTurn.isSome = true ∧ w.state.running = [0] :=
  exists_run_of_exec _ _ _ _
    (flatten [[.register], (submit 0).map .act, [.act .startNext], takeTurn.map .act, [.sweep orphaned, .checkPhase,
      .judge (some orphanSessionThresholdMs), .act .spawn, .recheck (some orphanSessionThresholdMs), .snapshot false],
      takeTurn.map .act, [.forceClose]]) (by decide +kernel)

end XiaoO.Gateway.SessionActor
