import XiaoO.Gateway.SessionActor

/-!
# The discipline of the session actor

The callers and the actor keep a line of turns in front of one server, as in
`XiaoO.Base.ServiceLine`: who is counted in `queue_depth` and who was popped, waits in the queue or
in the channel, is somebody who is counted and has not left.

## What is proved

What the actor's fields say to each other at each of its places is kept by every step
(`Placed.step`), and every step is one of the line (`step_books`). So the books of the line are
those of the session in every run.

* `discipline_of_run` — the counter, the order of turns, their answers, and what a `ForceClose`
  ends. A turn stays without an answer while the handle is marked as closing
  (`turn_left_by_mark_closing`).
* `no_stranded_turn` — once the mark is cleared, the actor does not wait in vain with a turn in its
  queue.
-/

namespace XiaoO.Gateway.SessionActor

open XiaoO.Base XiaoO.Gateway.Lease List Function SessionCommand State

variable {ι : Type*}

/-! ### Where the actor can be -/

/-- The actor between two commands. -/
def Actor.AtRest (actor : Actor ι) : Prop :=
  match actor.phase with
  | .idle => actor.activeTurn = none ∧ actor.closeReply = none
  | .running => actor.activeTurn.isSome = true ∧ actor.closeReply = none
  | .closing => actor.activeTurn.isSome = true ∧ actor.closeReply.isSome = true ∧ actor.pendingTurns = []
  | .paused | .closed => actor.activeTurn = none ∧ actor.closeReply = none ∧ actor.pendingTurns = []

/-- What the fields say to each other, at each place. -/
def Actor.Placed (actor : Actor ι) : Prop :=
  match actor.place with
  | .loop | .waiting | .publishing | .snapshotting => actor.AtRest
  | .checking _ => actor.phase = .idle ∧ actor.activeTurn = none ∧ actor.closeReply = none
  | .starting turn =>
    actor.phase = .running ∧ actor.activeTurn.map ActiveTurn.turn = some turn ∧ actor.closeReply = none
  | .hibernating _ | .pausing =>
    actor.phase = .idle ∧ actor.activeTurn = none ∧ actor.closeReply = none ∧ actor.pendingTurns = []
  | .closing _ =>
    actor.phase = .closing ∧ (actor.closeReply.isSome = true → actor.activeTurn.isSome = true) ∧
      actor.pendingTurns = []
  | .finishing _ =>
    actor.phase = .closing ∧ actor.activeTurn = none ∧ actor.closeReply = none ∧ actor.pendingTurns = []

theorem Actor.AtRest.pendingTurns_eq_nil {a : Actor ι} (h : a.AtRest) (hs : a.phase.isShut = true) :
    a.pendingTurns = [] := by
  unfold Actor.AtRest at h
  cases hp : a.phase with
  | idle | running =>
    rw [hp] at hs
    cases hs
  | paused | closing | closed =>
    rw [hp] at h
    exact h.2.2

variable [DecidableEq ι] {s s' : State ι} {act : Act ι}

/-- **Every step keeps the actor's fields in agreement.** -/
theorem Actor.Placed.step (h : s.actor.Placed) (he : Effect s act s') : s'.actor.Placed := by
  unfold Actor.Placed at h
  cases he with
  | called | counted | sent | refused | gaveUp | commanded | marked | cleared | woke | wokeFull | finished => exact h
  | waits hpl | published hpl | snapshotted hpl | turnRejected t r hpl | idleCancelled r now hpl
  | closesAgain c r hpl | idled ib hpl =>
    rw [hpl] at h
    exact h
  | popped next r hpl =>
    show s.actor.phase = .idle ∧ _
    unfold Actor.AtRest at h
    cases hp : s.actor.phase <;> simp_all [SessionPhase.isShut]
  | rejected next hpl =>
    rw [hpl] at h
    show Actor.AtRest _
    unfold Actor.AtRest
    simpa [go, reply, h.1] using h.2
  | started next hpl =>
    rw [hpl] at h
    exact ⟨rfl, rfl, h.2.2⟩
  | spawned t hpl =>
    rw [hpl] at h
    show Actor.AtRest s.actor
    have hs : s.actor.activeTurn.isSome = true := by
      obtain ⟨a, ha, -⟩ := Option.map_eq_some_iff.mp h.2.1
      rw [ha]
      rfl
    unfold Actor.AtRest
    simpa [h.1] using ⟨hs, h.2.2⟩
  | turnQueued t r hpl =>
    show Actor.AtRest _
    unfold Actor.AtRest at h ⊢
    cases hph : s.actor.phase <;> simp_all [SessionPhase.isShut]
  | handled cm r hpl hc ht hn =>
    rw [hpl] at h
    rcases hn with rfl | rfl <;> exact h
  | cancelled r hpl =>
    rw [hpl] at h
    show Actor.AtRest _
    unfold Actor.AtRest at h ⊢
    simpa [cancelActive, go] using h
  | hibernates ib r hpl hc hph hpn =>
    rw [hpl] at h
    unfold Actor.AtRest at h
    rw [hph] at h
    exact ⟨hph, h.1, h.2, hpn⟩
  | closes c r hpl =>
    refine ⟨rfl, fun hr => ?_, rfl⟩
    -- a reply is owed only while a turn is active
    show (s.actor.activeTurn.map _).isSome = true
    have hr : s.actor.closeReply.isSome = true := hr
    unfold Actor.AtRest at h
    cases hph : s.actor.phase <;> simp_all
  | doneClosing a hpl =>
    show s.actor.phase = .closing ∧ _
    unfold Actor.AtRest at h
    cases hp : s.actor.phase <;> simp_all
  | done a hpl ha hd hr =>
    exact ⟨rfl, hr⟩
  | doneClosed a hpl ha hd hr hph =>
    rw [hpl] at h
    unfold Actor.AtRest at h
    rw [hph] at h
    rw [h.1] at ha
    cases ha
  | keptAwake ib hpl =>
    rw [hpl] at h
    show Actor.AtRest s.actor
    unfold Actor.AtRest
    simpa [h.1] using ⟨h.2.1, h.2.2.1⟩
  | hibernated hpl | closed c hpl =>
    rw [hpl] at h
    exact h.2
  | closeRefused c hpl ha hr =>
    rw [hpl] at h
    show Actor.AtRest s.actor
    unfold Actor.AtRest
    simpa [h.1] using ⟨ha, hr, h.2.2⟩
  | closeWaits c hpl ha =>
    rw [hpl] at h
    show Actor.AtRest _
    unfold Actor.AtRest
    simpa [h.1] using ⟨ha, h.2.2⟩
  | closeGoesOn c hpl ha =>
    rw [hpl] at h
    refine ⟨h.1, ha, ?_, h.2.2⟩
    show s.actor.closeReply = none
    by_contra hr
    have hs := h.2.1 (Option.isSome_iff_ne_none.mpr hr)
    rw [ha] at hs
    cases hs

/-! ### The line of turns -/

/-- The turn that is popped and looked at. -/
@[simp] def Place.popped : Place ι → List ι
  | .checking turn => [turn]
  | _ => []

/-- The turn that is active and has no task yet. -/
@[simp] def Place.unspawned : Place ι → List ι
  | .starting turn => [turn]
  | _ => []

def turnsOf (channel : List (SessionCommand ι)) : List ι := channel.filterMap turn?

/-- The line of turns in front of the actor. -/
def State.books (s : State ι) : ServiceLine ι TurnResult where
  stage i := (s.calls i).stage
  count := s.queueDepth
  joined := s.entered
  line := s.actor.place.popped ++ s.actor.pendingTurns ++ turnsOf s.channel
  served := s.started
  busy := s.actor.activeTurn.map ActiveTurn.turn
  unanswered := s.actor.place.unspawned ++ s.running
  answers := s.answers

omit [DecidableEq ι] in
@[simp] theorem turnsOf_cons (c : SessionCommand ι) (channel : List (SessionCommand ι)) :
    turnsOf (c :: channel) = c.turn?.toList ++ turnsOf channel := by
  cases ht : c.turn? <;> simp [turnsOf, ht]

omit [DecidableEq ι] in
@[simp] theorem turnsOf_concat (ch : List (SessionCommand ι)) (c : SessionCommand ι) :
    turnsOf (ch ++ [c]) = turnsOf ch ++ c.turn?.toList := by
  cases ht : c.turn? <;> simp [turnsOf, ht]

theorem books_setCall (s : State ι) (i : ι) (c : Call) :
    (s.setCall i c).books = { s.books with stage := update s.books.stage i c.stage } := by
  have hs : (fun k => ((s.setCall i c).calls k).stage) = update s.books.stage i c.stage :=
    comp_update Call.stage s.calls i c
  simp only [books, hs]
  rfl

abbrev limit : ℕ := sessionCommandQueueCapacity

/-- What leaves the books as they are. -/
theorem step_stay (h : s'.books = s.books) : ServiceLine.Step limit s.books s'.books := by
  rw [h]
  exact .stay

section

variable (hk : s.books.Kept limit)
include hk

omit [DecidableEq ι] in
theorem queueDepth_pos {t : ι} {r : List ι} (hl : s.books.line = t :: r) : 0 < s.queueDepth := by
  have hle := hk.length_le_count
  rw [hl] at hle
  exact Nat.lt_of_lt_of_le (Nat.succ_pos _) hle

/-- The turn that was looked at is turned away. -/
theorem rejected_books {next : ι} (hp : s.actor.place = .checking next) {r : TurnResult} :
    ServiceLine.Step limit s.books
      ({ s with queueDepth := fetchSub s.queueDepth }.reply next r |>.go .loop).books := by
  have hl : s.books.line = [next] ++ (s.actor.pendingTurns ++ turnsOf s.channel) := by
    simp [books, hp]
  have hs : ServiceLine.Step limit s.books _ := .turnAway [next] _ r hl
  rw [show s.books.count - [next].length = fetchSub s.queueDepth from
    (fetchSub_of_pos (queueDepth_pos hk hl)).symm] at hs
  simpa [books, reply, go, hp] using hs

/-- The turn that was looked at is started. -/
theorem started_books {next : ι} (hp : s.actor.place = .checking next)
    (hf : s.actor.activeTurn = none) : ServiceLine.Step limit s.books (s.startTurn next).books := by
  have hl : s.books.line = next :: (s.actor.pendingTurns ++ turnsOf s.channel) := by
    simp [books, hp]
  have hs : ServiceLine.Step limit s.books _ := .takeUp next _ hl (by simp [books, hf])
  rw [show s.books.count - 1 = fetchSub s.queueDepth from (fetchSub_of_pos (queueDepth_pos hk hl)).symm] at hs
  simpa [books, startTurn, hp] using hs

/-- A turn that comes to a session that is shut is turned away. -/
theorem turnRejected_books {t : ι} {rest : List (SessionCommand ι)} {r : TurnResult}
    (hpl : s.actor.place = .waiting) (hc : s.channel = .runTurn t :: rest) (hp : s.actor.pendingTurns = []) :
    ServiceLine.Step limit s.books
      (({ s with channel := rest, queueDepth := fetchSub s.queueDepth }.reply t r).go .publishing).books := by
  have hl : s.books.line = [t] ++ turnsOf rest := by
    simp [books, hpl, hp, hc, turn?]
  have hs : ServiceLine.Step limit s.books _ := .turnAway [t] _ r hl
  rw [show s.books.count - [t].length = fetchSub s.queueDepth
    from (fetchSub_of_pos (queueDepth_pos hk hl)).symm] at hs
  simpa [books, reply, go, hpl, hp] using hs

/-- All that wait in the queue are turned away. -/
theorem closes_books {c : Closer} {rest : List (SessionCommand ι)}
    (hp : s.actor.place = .waiting) (hc : s.channel = .forceClose c :: rest) : ServiceLine.Step limit s.books
      (({ s with channel := rest, forceClosed := true, actor := { s.actor with phase := .closing } }.cancelActive
        |>.failPendingTurns).go (.closing c)).books := by
  have hl : s.books.line = s.actor.pendingTurns ++ turnsOf rest := by
    simp [books, hp, hc, turn?]
  have hle : s.actor.pendingTurns.length ≤ s.queueDepth := by
    refine Nat.le_trans ?_ hk.length_le_count
    rw [hl, length_append]
    exact Nat.le_add_right _ _
  have hs : ServiceLine.Step limit s.books _ := .turnAway _ _ s.sessionClosed hl
  rw [show s.books.count - s.actor.pendingTurns.length = _ from (foldl_fetchSub hle).symm] at hs
  simpa [books, failPendingTurns, cancelActive, go, hp, sessionClosed, comp_def] using hs

end

/-- **Every step is one of the line.** -/
theorem step_books (hpl : s.actor.Placed) (hk : s.books.Kept limit) (he : Effect s act s') :
    ServiceLine.Step limit s.books s'.books := by
  unfold Actor.Placed at hpl
  cases he with
  | called i hb haf hbc =>
    rw [books_setCall]
    exact .move i hb haf hbc
  | counted i hcl hdp =>
    show ServiceLine.Step limit s.books { (s.setCall i .counted).books with count := s.queueDepth + 1 }
    rw [books_setCall]
    exact .count i (by simp [books, hcl]) hdp
  | sent i hcl =>
    have hl : s.actor.place.popped ++ s.actor.pendingTurns ++ turnsOf (s.channel ++ [.runTurn i]) =
        s.books.line ++ [i] := by
      simp [books, turn?]
    show ServiceLine.Step limit s.books { (s.setCall i .waiting).books with
      joined := s.entered ++ [i]
      line := s.actor.place.popped ++ s.actor.pendingTurns ++ turnsOf (s.channel ++ [.runTurn i]) }
    rw [hl, books_setCall]
    exact .join i (by simp [books, hcl])
  | refused i hcl =>
    have hsm : update s.books.stage i (Call.stage .refused) = s.books.stage :=
      update_eq_self_iff.mpr (by simp [books, hcl])
    apply step_stay
    rw [books_setCall, hsm]
  | gaveUp i hcl =>
    have hst : s.books.stage i = .counted := by simp [books, hcl]
    have hps : 0 < s.queueDepth := hk.count_pos hst
    show ServiceLine.Step limit s.books { (s.setCall i (.returned _)).books with count := fetchSub s.queueDepth }
    rw [books_setCall, fetchSub_of_pos hps]
    exact .giveUp i hst
  | commanded hrm ht =>
    apply step_stay
    simp [books, push, ht]
  | woke =>
    apply step_stay
    simp [books, push, turn?]
  | marked | cleared | wokeFull => exact .stay
  | waits hp | published hp | snapshotted hp | keptAwake _ hp | idled _ hp | hibernated hp
  | closeRefused _ hp | closeWaits _ hp | closeGoesOn _ hp | closed _ hp | spawned _ hp =>
    apply step_stay
    simp [books, go, publishStatus, hp]
  | popped next r hp ha hph hpn =>
    apply step_stay
    simp [books, hp, hpn]
  | rejected next hp => exact rejected_books hk hp
  | started next hp =>
    rw [hp] at hpl
    exact started_books hk hp hpl.2.1
  | turnRejected turn r hp hc hsh =>
    rw [hp] at hpl
    exact turnRejected_books hk hp hc (hpl.pendingTurns_eq_nil hsh)
  | turnQueued turn r hp hc =>
    apply step_stay
    simp [books, hp, hc, turn?]
  | handled c r hp hc ht hn =>
    apply step_stay
    rcases hn with rfl | rfl <;>
      simp [books, go, hp, hc, ht]
  | cancelled r hp hc =>
    apply step_stay
    simp [books, go, cancelActive, hp, hc, turn?, comp_def]
  | idleCancelled r _ hp hc | hibernates _ r hp hc | closesAgain _ r hp hc =>
    apply step_stay
    simp [books, go, hp, hc, turn?]
  | closes cl r hp hc => exact closes_books hk hp hc
  | doneClosing a hp ha hd | done a hp ha hd | doneClosed a hp ha hd =>
    have hbs : s.books.busy = some a.turn := by simp [books, ha]
    have hnn : a.turn ∉ s.books.unanswered := by simpa [books, hp] using hd
    have hs : ServiceLine.Step limit s.books _ := .done a.turn hbs hnn
    simpa [books, hp] using hs
  | finished turn rs hr =>
    have hm : turn ∈ s.books.unanswered := mem_append_right _ hr
    have her : s.books.unanswered.erase turn = s.actor.place.unspawned ++ s.running.erase turn := by
      refine erase_append_right _ fun hu => ?_
      exact disjoint_of_nodup_append hk.single hu hr
    have hs : ServiceLine.Step limit s.books _ := .answer turn rs hm
    rw [her] at hs
    exact hs

/-! ### What holds in every run -/

/-- If the actor waits and could start a turn, somebody will wake it up: the flag is set, a call of
`clear_closing` has still to send its wakeup, or there is a command in the channel. -/
def Awake (s : State ι) : Prop :=
  s.actor.place = .waiting → s.actor.activeTurn = none → s.actor.phase.isShut = false → s.actor.pendingTurns ≠ [] →
    s.closing = true ∨ 0 < s.clearing ∨ s.channel ≠ []

omit [DecidableEq ι] in
theorem channel_ne_nil_of_full (h : s.hasRoom = false) : s.channel ≠ [] := by
  intro hn
  rw [hasRoom, hn] at h
  cases h

theorem Awake.step (h : Awake s) (hp : s.actor.Placed) (he : Effect s act s') : Awake s' := by
  cases he with
  | called | counted | refused | gaveUp | finished => exact h
  | sent | commanded | woke =>
    intro _ _ _ _
    exact .inr (.inr (append_ne_nil_of_right_ne_nil _ (cons_ne_nil _ _)))
  | wokeFull _ hr =>
    intro _ _ _ _
    exact .inr (.inr (channel_ne_nil_of_full hr))
  | marked =>
    intro _ _ _ _
    exact .inl rfl
  | cleared =>
    intro _ _ _ _
    exact .inr (.inl (Nat.succ_pos _))
  | waits hpl hs =>
    intro _ ha hph hpn
    have ha : s.actor.activeTurn = none := ha
    have hph : s.actor.phase.isShut = false := hph
    rcases hs with hs | hs | hs | hs
    · rw [ha] at hs
      cases hs
    · rw [hph] at hs
      cases hs
    · exact absurd hs hpn
    · exact .inl hs
  | spawned turn hpl =>
    intro _ ha
    unfold Actor.Placed at hp
    rw [hpl] at hp
    rw [show s.actor.activeTurn = none from ha] at hp
    cases hp.2.1
  | handled command rest hpl hc ht hn =>
    intro hw
    rcases hn with rfl | rfl <;> cases hw
  | _ =>
    intro hw
    cases hw

/-- What holds in every state that is reached. -/
structure Inv (s : State ι) : Prop where
  placed : s.actor.Placed
  kept : s.books.Kept limit
  awake : Awake s
  shut : s.forceClosed = true → s.actor.phase = .closing ∨ s.actor.phase = .closed

omit [DecidableEq ι] in
theorem inv_start (ss : Session ι) : Inv (start ss) where
  placed := ⟨rfl, rfl⟩
  kept :=
    { count := ⟨∅, by simp [books, start, turnsOf], rfl⟩
      count_le := Nat.zero_le _
      past := forall_mem_nil _
      nodup := nodup_nil
      gone := ⟨[], rfl, List.Sublist.refl _, List.Subset.refl _, forall_mem_nil _⟩
      once := nodup_nil
      unanswered := forall_mem_nil _
      single := nodup_nil }
  awake := nofun
  shut := nofun

/-- A session that was closed by force stays so. -/
theorem Inv.shut_step (h : Inv s) (he : Effect s act s') (hc : s'.forceClosed = true) :
    s'.actor.phase = .closing ∨ s'.actor.phase = .closed := by
  have hp := h.placed
  unfold Actor.Placed at hp
  cases he with
  | started next hpl | hibernated hpl =>
    rw [hpl] at hp
    rcases h.shut hc with hph | hph <;> rw [hp.1] at hph <;> cases hph
  | done active hpl ha hd hr hph =>
    -- while a session is being closed, somebody waits for the end of the active turn
    rw [hpl] at hp
    rcases h.shut hc with hcl | hcl
    · unfold Actor.AtRest at hp
      rw [hcl, hr] at hp
      cases hp.2.1
    · exact absurd hcl hph
  | closes => exact .inl rfl
  | closesAgain closer rest hpl hch hph => exact .inr hph
  | closed => exact .inr rfl
  | _ => exact h.shut hc

theorem Inv.step (h : Inv s) (he : Effect s act s') : Inv s' where
  placed := h.placed.step he
  kept := h.kept.step (step_books h.placed h.kept he)
  awake := h.awake.step h.placed he
  shut := h.shut_step he

theorem inv_of_run {ss : Session ι} (hr : RunUnder step Always (start ss) s) : Inv s :=
  hr.invariant (I := Inv) (inv_start ss) fun h _ hs => h.step (step_effect hs)

/-! ### The discipline -/

def State.answered (s : State ι) : List ι := s.answers.map Prod.fst

/-- The call has incremented `queue_depth`, and its turn is neither started nor answered. -/
def State.Outstanding (s : State ι) (i : ι) : Prop :=
  (s.calls i = .counted ∨ s.calls i = .refused ∨ i ∈ s.entered) ∧ i ∉ s.started ∧ i ∉ s.answered

/-- The actor has handled every command, no turn is active, and no `mark_closing` is without its
`clear_closing` or `ForceClose`. -/
structure Quiescent (s : State ι) : Prop where
  place : s.actor.place = .waiting
  channel : s.channel = []
  activeTurn : s.actor.activeTurn = none
  clearing : s.clearing = 0
  closing : s.closing = false ∨ s.forceClosed = true

/-- What holds of a session at any moment. -/
structure Discipline (s : State ι) : Prop where
  /-- `queue_depth` is the number of calls that are counted and whose turn is neither started nor
  answered. -/
  depth : ∃ turns : Finset ι, (∀ i, i ∈ turns ↔ s.Outstanding i) ∧ s.queueDepth = turns.card
  depth_le : s.queueDepth ≤ sessionCommandQueueCapacity
  /-- A turn that was started and has no answer is the active one, and so is one whose task runs. -/
  active : ∀ i, (i ∈ s.started ∧ i ∉ s.answered ∨ i ∈ s.running) → s.actor.activeTurn.map ActiveTurn.turn = some i
  /-- Turns start in the order in which they entered the channel. -/
  order : s.started.Sublist s.entered ∧ s.entered.Nodup
  /-- No turn is answered twice, and only those that were accepted. -/
  once : s.answered.Nodup ∧ s.answered ⊆ s.entered
  /-- In the end every turn that was accepted is answered. -/
  all : Quiescent s → s.entered ⊆ s.answered

/-- What holds of two moments of a session. -/
structure ClosedForGood (s t : State ι) : Prop where
  started : s.forceClosed = true → t.started = s.started
  phase : s.forceClosed = true → t.actor.phase = .closing ∨ t.actor.phase = .closed
  closed : s.actor.phase = .closed → t.actor.phase = .closed

section

omit [DecidableEq ι]

theorem outstanding_iff (i : ι) : s.Outstanding i ↔ s.books.Outstanding i := by
  have hs : s.books.stage i = .counted ↔ s.calls i = .counted ∨ s.calls i = .refused := by
    show (s.calls i).stage = .counted ↔ _
    cases s.calls i <;> simp
  unfold State.Outstanding ServiceLine.Outstanding
  rw [hs, or_assoc]
  rfl

/-- Nobody waits in a session at rest. -/
theorem Inv.pendingTurns_eq_nil (h : Inv s) (hq : Quiescent s) : s.actor.pendingTurns = [] := by
  have hr : s.actor.AtRest := by
    have hp := h.placed
    unfold Actor.Placed at hp
    rw [hq.place] at hp
    exact hp
  by_cases hs : s.actor.phase.isShut = true
  · exact hr.pendingTurns_eq_nil hs
  · by_contra hpn
    rcases h.awake hq.place hq.activeTurn (Bool.eq_false_of_not_eq_true hs) hpn with hm | hcl | hc
    · rcases hq.closing with ho | hcs
      · rw [ho] at hm
        cases hm
      · rcases h.shut hcs with hph | hph <;> exact hs (by rw [hph]; rfl)
    · rw [hq.clearing] at hcl
      exact absurd hcl (Nat.lt_irrefl 0)
    · exact hc hq.channel

theorem Inv.all_answered (h : Inv s) (hq : Quiescent s) : s.entered ⊆ s.answered := by
  refine h.kept.all_answered ?_ ?_
  · show s.actor.place.popped ++ s.actor.pendingTurns ++ turnsOf s.channel = []
    rw [hq.place, h.pendingTurns_eq_nil hq, hq.channel]
    rfl
  · refine eq_nil_iff_forall_not_mem.mpr fun i hi => ?_
    have hb : s.actor.activeTurn.map ActiveTurn.turn = some i := (h.kept.unanswered i hi).2.2
    rw [hq.activeTurn] at hb
    cases hb

theorem Inv.active (h : Inv s) {i : ι} (hi : i ∈ s.started ∧ i ∉ s.answered ∨ i ∈ s.running) :
    s.actor.activeTurn.map ActiveTurn.turn = some i := by
  have hu : i ∈ s.books.unanswered := by
    rcases hi with ⟨hs, ha⟩ | hr
    · obtain ⟨g, -, hsr, -, hg⟩ := h.kept.gone
      exact (hg i (hsr.subset hs)).resolve_left ha
    · exact mem_append_right _ hr
  exact (h.kept.unanswered i hu).2.2

end

theorem Inv.discipline (h : Inv s) : Discipline s where
  depth := by
    obtain ⟨ts, ht, hc⟩ := h.kept.count_eq
    exact ⟨ts, fun i => by rw [ht, outstanding_iff], hc⟩
  depth_le := h.kept.count_le
  active _ hi := h.active hi
  order := ⟨h.kept.served_sublist, h.kept.nodup⟩
  once := ⟨h.kept.once, h.kept.answered_subset⟩
  all := h.all_answered

/-- After a `ForceClose` no turn starts. -/
theorem Inv.started_eq (h : Inv s) (he : Effect s act s') (hc : s.forceClosed = true) : s'.started = s.started := by
  cases he with
  | started next hpl =>
    have hp := h.placed
    unfold Actor.Placed at hp
    rw [hpl] at hp
    rcases h.shut hc with hph | hph <;> rw [hp.1] at hph <;> cases hph
  | _ => rfl

theorem forceClosed_of_effect (he : Effect s act s') (hc : s.forceClosed = true) : s'.forceClosed = true := by
  cases he with
  | closes | closesAgain => rfl
  | _ => exact hc

theorem Inv.closed_step (h : Inv s) (he : Effect s act s') (hc : s.actor.phase = .closed) :
    s'.actor.phase = .closed := by
  have hpl := h.placed
  unfold Actor.Placed at hpl
  cases he with
  | started next hp | hibernated hp =>
    rw [hp, hc] at hpl
    cases hpl.1
  | done a hp ha hd hr hph | closes c r hp hch hph => exact absurd hc hph
  | closed => rfl
  | _ => exact hc

theorem closedForGood_of_run {t : State ι} (h : Inv s) (hr : RunUnder step Always s t) : ClosedForGood s t := by
  have hen : Inv t ∧ (s.forceClosed = true → t.forceClosed = true ∧ t.started = s.started) ∧
      (s.actor.phase = .closed → t.actor.phase = .closed) := by
    refine hr.invariant (I := fun t => Inv t ∧
      (s.forceClosed = true → t.forceClosed = true ∧ t.started = s.started) ∧
      (s.actor.phase = .closed → t.actor.phase = .closed)) ⟨h, fun hc => ⟨hc, rfl⟩, id⟩ ?_
    rintro u v a ⟨hu, hf, hcl⟩ - hst
    have he := step_effect hst
    refine ⟨hu.step he, fun hc => ?_, fun hc => hu.closed_step he (hcl hc)⟩
    obtain ⟨hfl, hs⟩ := hf hc
    exact ⟨forceClosed_of_effect he hfl, (hu.started_eq he hfl).trans hs⟩
  obtain ⟨ht, hf, hcl⟩ := hen
  exact ⟨fun hc => (hf hc).2, fun hc => ht.shut (hf hc).1, hcl⟩

/-- **The discipline**: in every run the counter, the order of the turns and their answers are
right, and from any moment on a `ForceClose` that has been handled ends the starting of turns. -/
theorem discipline_of_run {session : Session ι} {t : State ι} (hs : RunUnder step Always (start session) s)
    (ht : RunUnder step Always s t) : Discipline t ∧ ClosedForGood s t :=
  ⟨(inv_of_run (hs.trans ht)).discipline, closedForGood_of_run (inv_of_run hs) ht⟩

/-- A session whose turns come from callers without a client id. -/
def anonymousSession (n : ℕ) : Session (Fin n) where
  sessionId := "session"
  hash _ := 0
  requests _ := { clientId := none, submittedAt := 0 }

/-- A call of `run_turn`, up to its wait for the reply. -/
def submit (i : ι) : List (Act ι) := [.enter i, .count i, .send i]

/-- The actor takes a `RunTurn` out of the channel and looks at its queue. -/
def takeTurn : List (Act ι) := [.receive 0, .finishHandler, .startNext]

/-- A turn runs and ends, the session is closed by force, and a second turn is turned away. -/
theorem discipline_of_run_force_close :
    ∃ s t : State (Fin 2), RunUnder step Always (start (anonymousSession 2)) s ∧ RunUnder step Always s t ∧
      (s.forceClosed = true ∧ s.answers = [(0, .ok)] ∧
        t.answers = [(0, .ok), (1, .err (.sessionClosed "session"))] ∧ t.actor.phase = .closed ∧ t.queueDepth = 0) ∧
      Discipline t ∧ ClosedForGood s t := by
  obtain ⟨s, t, hs, ht, he⟩ := exists_runs_of_exec step Always (start (anonymousSession 2))
    (fun s t => s.forceClosed = true ∧ s.answers = [(0, .ok)] ∧
      t.answers = [(0, .ok), (1, .err (.sessionClosed "session"))] ∧ t.actor.phase = .closed ∧ t.queueDepth = 0)
    (flatten [submit 0, [.startNext], takeTurn, [.judge .new (some 0), .spawn, .command (.forceClose .client),
      .finish 0 .ok, .activeDone, .finishHandler, .startNext, .receive 0]])
    (flatten [submit 1, [.continueForceClose, .closed, .finishHandler, .startNext], takeTurn]) (by decide +kernel)
  exact ⟨s, t, hs, ht, he, discipline_of_run hs ht⟩

/-- A turn that the actor pops while the handle is marked as closing goes back to the queue: the
actor has handled every command, no turn is active, and the turn has no answer. -/
theorem turn_left_by_mark_closing : ∃ s : State (Fin 1), RunUnder step Always (start (anonymousSession 1)) s ∧
      s.actor.place = .waiting ∧ s.channel = [] ∧ s.actor.activeTurn = none ∧ s.running = [] ∧ s.clearing = 0 ∧
      s.entered = [0] ∧ s.answers = [] :=
  exists_run_of_exec _ _ _ _
    (submit 0 ++ [.markClosing, .startNext] ++ takeTurn) (by decide +kernel)

/-! ### No turn is stranded -/

/-- The actor waits for a command and nobody sends one, although it could start a turn. -/
structure Stranded (s : State ι) : Prop where
  place : s.actor.place = .waiting
  channel : s.channel = []
  activeTurn : s.actor.activeTurn = none
  phase : s.actor.phase = .idle
  closing : s.closing = false
  /-- No `clear_closing` is between its two operations, with its wakeup still to be sent. -/
  clearing : s.clearing = 0
  pendingTurns : s.actor.pendingTurns ≠ []

/-- **No turn is stranded** after the closing window, whether the wakeup found room in the channel
or not. -/
theorem no_stranded_turn {session : Session ι} (hrun : RunUnder step Always (start session) s) : ¬ Stranded s := by
  intro hs
  have ho : s.actor.phase.isShut = false := by
    rw [hs.phase]
    rfl
  rcases (inv_of_run hrun).awake hs.place hs.activeTurn ho hs.pendingTurns with hm | hcl | hc
  · rw [hs.closing] at hm
    cases hm
  · rw [hs.clearing] at hcl
    exact absurd hcl (Nat.lt_irrefl 0)
  · exact hc hs.channel

/-- The wakeup does not fit into the channel, and the commands that fill it are the ones that wake
the actor. -/
theorem no_stranded_turn_full_channel : ∃ s : State (Fin 1), RunUnder step Always (start (anonymousSession 1)) s ∧
      (s.actor.pendingTurns = [0] ∧ s.closing = false ∧ s.clearing = 0 ∧ s.channel = List.replicate 16 .snapshot) ∧
      ¬ Stranded s :=
  (exists_run_of_exec _ _ _ _
    (flatten [submit 0, [.markClosing, .startNext], takeTurn, replicate 16 (.command .snapshot), [.clearClosing, .wake]])
    (by decide +kernel)).imp
    fun s ⟨hr, he⟩ => ⟨hr, he, no_stranded_turn hr⟩

end XiaoO.Gateway.SessionActor
