import XiaoO.Gateway.ActorDiscipline
import XiaoO.Gateway.SessionRecord

/-!
# Pausing a runtime while turns come in

`pause_runtime_internal` (`shared/src/gateway/session_service_impl.rs`) looks at the published
status of the session's actor, asks it for a snapshot of the record, checkpoints and releases the
backend, saves the checkpoint and the record with the status `Paused`, and takes the handle out of
`sessions_handler`. All of this is outside the actor, which takes up turns meanwhile.

## The model

Of the record there is the status, whether it has a backend, and the turns whose messages it holds.
A call of `run_turn` first loads the record, may save it again, and gets the handle of the session,
or makes one from the record it loaded; then it goes through the actor of that handle
(`SessionActor`). The task of a turn changes the record of the handle's supervisor, saves a clone
after each change, and then ends. A pause takes the handle out, and a later call makes a new one, so
the handles are numbered. Each await is the end of a step. The backend may fail to checkpoint or to
release.

## What is proved

If no turn is active when the snapshot of a pause is answered, no turn is started from then on, and
a call saves only a record that has the messages of the stored one, then the stored record and the
checkpoint have every turn whose `run_turn` returned `Ok`, and no turn runs when the backend is
released (`turns_kept_of_run`). Otherwise a turn that starts after the snapshot loses its backend,
and its messages are overwritten (`pause_loses_turn`).
-/

namespace XiaoO.Gateway.Pausing

open XiaoO.Base XiaoO.Gateway.SessionActor List Function Option

/-! ### Records and handles -/

/-- `SessionRecord`, as far as a turn and a pause change it. -/
structure Record (ι : Type*) where
  status : SessionLifecycleStatus := .idle
  hasBackend : Bool := true
  /-- The turns whose messages are in the record. -/
  messages : List ι := []
  deriving DecidableEq

def Record.paused {ι : Type*} (record : Record ι) : Record ι :=
    { record with status := .paused, hasBackend := false }

/-- A change that the task of a turn makes to the record of the supervisor. -/
inductive Change where
  /-- `prepare_root_turn`. -/
  | prepare
  /-- `set_session_status`. -/
  | status (status : SessionLifecycleStatus)
  /-- `persist_lane_state`. -/
  | persist
  deriving DecidableEq

def Change.apply {ι : Type*} (turn : ι) : Change → Record ι → Record ι
  | .prepare, record => record
  | .status next, record => { record with status := next }
  | .persist, record => { record with messages := record.messages ++ [turn] }

/-- The task of a turn: the changes it has still to make, and the clone that it has still to
save. -/
structure Task (ι : Type*) where
  todo : List Change := [.prepare, .status .running, .persist, .status .idle]
  clone : Option (Record ι) := none
  failed : Bool := false
  deriving DecidableEq

/-- A handle: the session's actor, the record of its supervisor, and the tasks of its turns. -/
structure Handle (ι : Type*) where
  state : State ι
  session : Record ι
  tasks : ι → Task ι := fun _ => {}

/-- Where a call of the service's `run_turn` is, before it calls the handle's. -/
inductive Caller (ι : Type*) where
  | fresh
  /-- It has loaded the record, with `runtime_initialization_lock`. -/
  | loaded (seed : Record ι)
  /-- It has let go of the lock, and looks for the handle. -/
  | seeded (seed : Record ι)
  | holding (handle : ℕ)
  deriving DecidableEq

/-- The record that the call has loaded and may save. -/
def Caller.loaded? {ι : Type*} : Caller ι → Option (Record ι)
  | .loaded seed => some seed
  | .fresh | .seeded _ | .holding _ => none

/-- Where the call of `pause_runtime_internal` is. -/
inductive Pauser (ι : Type*) where
  | idle
  /-- It has found the handle idle. -/
  | checked (handle : ℕ)
  /-- It waits for the snapshot. -/
  | asking (handle : ℕ)
  | snapped (session : Record ι)
  | checkpointed (session : Record ι)
  | released (session : Record ι)
  | checkpointSaved (session : Record ι)
  | sessionSaved (session : Record ι)
  | done (session : Record ι)
  | failed
  deriving DecidableEq

def Pauser.handle? {ι : Type*} : Pauser ι → Option ℕ
  | .checked handle | .asking handle => some handle
  | _ => none

def Pauser.session? {ι : Type*} : Pauser ι → Option (Record ι)
  | .idle | .checked _ | .asking _ | .failed => none
  | .snapped session | .checkpointed session | .released session | .checkpointSaved session | .sessionSaved session
  | .done session => some session

structure Service (ι : Type*) where
  identity : Session ι
  handles : ℕ → Handle ι
  /-- How many handles have been made. -/
  made : ℕ := 0
  /-- The handle in `sessions_handler`. -/
  current : Option ℕ := none
  stored : Record ι
  callers : ι → Caller ι := fun _ => .fresh
  /-- Who has `runtime_initialization_lock`. -/
  initializing : Option ι := none
  pauser : Pauser ι := .idle
  checkpoint : Option (Record ι) := none
  /-- The turns that ran on the backend when it was released. -/
  releasedWhile : List ι := []

open Service

variable {ι : Type*} [DecidableEq ι] (w : Service ι) (i : ι)

namespace Service

def setHandle (h : ℕ) (handle : Handle ι) : Service ι :=
  { w with handles := Function.update w.handles h handle }

def setCaller (caller : Caller ι) : Service ι :=
  { w with callers := Function.update w.callers i caller }

def running (w : Service ι) : List ι := (List.range w.made).flatMap fun h => (w.handles h).state.running

/-! ### Calls of `run_turn` -/

/-- `run_turn_inner`: the record is loaded. -/
def load : Option (Service ι) :=
  if w.callers i = .fresh ∧ w.initializing = none then
    some { w.setCaller i (.loaded w.stored) with initializing := some i }
  else none

/-- `run_turn_inner`: the backend is leased, and the record is saved if that has changed it or if it
was paused. -/
def saveSeed (updated : Bool) : Option (Service ι) :=
  match w.callers i with
  | .loaded seed =>
    let wasPaused := decide (seed.status = .paused)
    let seed := { seed with
      status := if wasPaused then .idle else seed.status
      hasBackend := seed.hasBackend || updated }
    some { w.setCaller i (.seeded seed) with
      initializing := none
      stored := if updated || wasPaused then seed else w.stored }
  | _ => none

/-- `get_or_create_session_handle`. -/
def getHandle : Option (Service ι) :=
  match w.callers i with
  | .seeded seed =>
    match w.current with
    | some h => some (w.setCaller i (.holding h))
    | none =>
      some { (w.setCaller i (.holding w.made)).setHandle w.made { state := start w.identity, session := seed } with
        made := w.made + 1
        current := some w.made }
  | _ => none

/-- A call enters the handle that it holds, and the end of a task is a step of its own; nothing else
is restricted. -/
def allows (h : ℕ) : Act ι → Bool
  | .enter i => w.callers i = .holding h
  | .finish _ _ => false
  | _ => true

/-- A step of the actor of a handle, or of a call in it. -/
def act (w : Service ι) (h : ℕ) (act : Act ι) : Option (Service ι) :=
  if h < w.made ∧ w.allows h act then
    (step (w.handles h).state act).map fun state => w.setHandle h { w.handles h with state }
  else none

/-! ### Tasks of turns -/

/-- A task changes the record and clones it. -/
def change (w : Service ι) (h : ℕ) (i : ι) : Option (Service ι) :=
  match ((w.handles h).tasks i).todo, ((w.handles h).tasks i).clone with
  | change :: todo, none =>
    if i ∈ (w.handles h).state.running then
      let session := change.apply i (w.handles h).session
      some (w.setHandle h { w.handles h with
        session
        tasks := Function.update (w.handles h).tasks i { (w.handles h).tasks i with todo, clone := some session } })
    else none
  | _, _ => none

/-- A task saves its clone. -/
def save (h : ℕ) (i : ι) : Option (Service ι) :=
  match ((w.handles h).tasks i).clone with
  | some record =>
    if i ∈ (w.handles h).state.running then
      some { w.setHandle h { w.handles h with
        tasks := Function.update (w.handles h).tasks i { (w.handles h).tasks i with clone := none } } with
        stored := record }
    else none
  | none => none

/-- The turn fails: what there is of it may be persisted, and the status is set. -/
def fail (h : ℕ) (i : ι) (partially : Bool) : Option (Service ι) :=
  if i ∈ (w.handles h).state.running ∧ ((w.handles h).tasks i).clone = none then
    some (w.setHandle h { w.handles h with
      tasks := Function.update (w.handles h).tasks i
        { todo := if partially then [.persist, .status .failed] else [.status .failed], failed := true } })
  else none

/-- The task ends: with `Ok` when it has done everything, and it may break off with an error at any
time. -/
def finish (w : Service ι) (h : ℕ) (i : ι) (result : TurnResult) : Option (Service ι) :=
  let task := (w.handles h).tasks i
  if result = .ok → task.todo = [] ∧ task.clone = none ∧ task.failed = false then
    ((w.handles h).state.finish i result).map fun state => w.setHandle h { w.handles h with state }
  else none

/-! ### The pause -/

/-- The pause goes on with a record, unless that is closed or paused. -/
def snap (session : Record ι) : Service ι :=
  { w with pauser := if session.status = .closed ∨ session.status = .paused then .failed else .snapped session }

/-- `idle_session_snapshot`: the status of the handle, or the stored record. -/
def look : Option (Service ι) :=
  if w.pauser = .idle then
    match w.current with
    | some h =>
      let status := (w.handles h).state.status
      some { w with pauser := if status.phase ≠ .idle ∨ status.queueDepth > 0 then .failed else .checked h }
    | none => some (if w.stored.status = .running then { w with pauser := .failed } else w.snap w.stored)
  else none

/-- `idle_session_snapshot`: the `Snapshot` is sent. -/
def ask : Option (Service ι) :=
  match w.pauser with
  | .checked h =>
    ((w.handles h).state.command .snapshot).map fun state =>
      { w.setHandle h { w.handles h with state } with pauser := .asking h }
  | _ => none

/-- `idle_session_snapshot`: the `Snapshot` is answered. -/
def answer : Option (Service ι) :=
  match w.pauser with
  | .asking h =>
    if (w.handles h).state.actor.place = .snapshotting then
      (w.handles h).state.finishHandler.map fun state =>
        (w.setHandle h { w.handles h with state }).snap (w.handles h).session
    else none
  | _ => none

/-- `checkpoint_backend`, if there is a backend. -/
def checkpointBackend (succeeds : Bool) : Option (Service ι) :=
  match w.pauser with
  | .snapped session =>
    some { w with pauser := if !session.hasBackend || succeeds then .checkpointed session else .failed }
  | _ => none

/-- `release_session`. -/
def release (succeeds : Bool) : Option (Service ι) :=
  match w.pauser with
  | .checkpointed session =>
    some (if succeeds then { w with pauser := .released session, releasedWhile := w.running }
      else { w with pauser := .failed })
  | _ => none

/-- `runtime_checkpoints.save`. -/
def saveCheckpoint : Option (Service ι) :=
  match w.pauser with
  | .released session => some { w with pauser := .checkpointSaved session, checkpoint := some session.paused }
  | _ => none

/-- `session_store.save`. -/
def saveSession : Option (Service ι) :=
  match w.pauser with
  | .checkpointSaved session => some { w with pauser := .sessionSaved session, stored := session.paused }
  | _ => none

/-- `sessions_handler.remove`. -/
def remove : Option (Service ι) :=
  match w.pauser with
  | .sessionSaved session => some { w with pauser := .done session, current := none }
  | _ => none

end Service

inductive ServiceAct (ι : Type*) where
  | load (i : ι)
  | saveSeed (i : ι) (updated : Bool)
  | getHandle (i : ι)
  | act (h : ℕ) (act : Act ι)
  | change (h : ℕ) (i : ι)
  | save (h : ℕ) (i : ι)
  | fail (h : ℕ) (i : ι) (partially : Bool)
  | finish (h : ℕ) (i : ι) (result : TurnResult)
  | look
  | ask
  | answer
  | checkpointBackend (succeeds : Bool)
  | release (succeeds : Bool)
  | saveCheckpoint
  | saveSession
  | remove

def serviceStep : ServiceAct ι → Option (Service ι)
  | .load i => w.load i
  | .saveSeed i updated => w.saveSeed i updated
  | .getHandle i => w.getHandle i
  | .act h act => w.act h act
  | .change h i => w.change h i
  | .save h i => w.save h i
  | .fail h i partially => w.fail h i partially
  | .finish h i result => w.finish h i result
  | .look => w.look
  | .ask => w.ask
  | .answer => w.answer
  | .checkpointBackend succeeds => w.checkpointBackend succeeds
  | .release succeeds => w.release succeeds
  | .saveCheckpoint => w.saveCheckpoint
  | .saveSession => w.saveSession
  | .remove => w.remove

/-- A runtime with its stored record, and no handle yet. -/
def Service.new (identity : Session ι) (stored : Record ι) : Service ι where
  identity := identity
  handles _ := { state := start identity, session := stored }
  stored := stored

/-! ### The property and its condition -/

/-- **The property**: what a turn whose `run_turn` returned `Ok` said is in the stored record and in
the checkpoint of the pause, and no turn ran on the backend when it was released. -/
structure TurnsKept : Prop where
  stored : ∀ h i, (w.handles h).state.calls i = .returned .ok → i ∈ w.stored.messages
  checkpoint : ∀ record, w.checkpoint = some record →
    ∀ h i, (w.handles h).state.calls i = .returned .ok → i ∈ record.messages
  released : w.releasedWhile = []

/-- A step in a run in which the pause is **undisturbed**: no turn is active when its snapshot is
answered, no turn is started from then on, and a call saves no record with other messages than the
stored one has. -/
def Undisturbed : ServiceAct ι → Prop
  | .answer => ∀ h ∈ w.pauser.handle?, (w.handles h).state.actor.activeTurn = none
  | .act _ (.judge _ _) => w.pauser.session? = none
  | .saveSeed i _ => ∀ seed ∈ (w.callers i).loaded?, seed.messages = w.stored.messages
  | _ => True

instance : DecidableRel (Undisturbed : Service ι → ServiceAct ι → Prop) := fun _ a => by
  unfold Undisturbed
  split <;> infer_instance

/-! ### What a step of an actor does to turns -/

section Effects

variable {s s' : State ι} {a : Act ι} {i : ι}

/-- Only the end of a task answers with `Ok`. -/
theorem ok_mem_of_effect (he : Effect s a s') (ha : ∀ t r, a ≠ .finish t r)
    (h : (i, .ok) ∈ s'.answers) : (i, .ok) ∈ s.answers := by
  cases he with
  | rejected | turnRejected =>
    rcases mem_append.mp h with h | h
    · exact h
    · cases mem_singleton.mp h
  | closes =>
    rcases mem_append.mp h with h | h
    · exact h
    · obtain ⟨t, -, heq⟩ := mem_map.mp h
      cases heq
  | finished t r => exact absurd rfl (ha t r)
  | _ => exact h

/-- What `run_turn` returns was sent as a reply. -/
theorem returned_of_effect (he : Effect s a s') (h : ∀ i, s.calls i = .returned .ok → (i, .ok) ∈ s.answers)
    (hi : s'.calls i = .returned .ok) : (i, .ok) ∈ s'.answers := by
  have hu : ∀ {k c}, update s.calls k c i = .returned .ok → (c = .returned .ok → (k, .ok) ∈ s.answers) →
      (i, .ok) ∈ s.answers := by
    intro k c hi hok
    by_cases hik : i = k
    · subst hik
      rw [update_self] at hi
      exact hok hi
    · rw [update_of_ne hik] at hi
      exact h i hi
  cases he with
  | called _ _ _ _ hok => exact hu hi hok
  | counted | sent | refused | gaveUp => exact hu hi nofun
  | rejected | turnRejected | closes | finished => exact mem_append_left _ (h i hi)
  | _ => exact h i hi

/-- A task runs that ran before, or that is spawned for a turn that was started. -/
theorem mem_running_of_effect (he : Effect s a s') (hi : i ∈ s'.running) :
    i ∈ s.running ∨ i ∈ s.actor.place.unspawned := by
  cases he with
  | spawned t hp =>
    rcases mem_cons.mp hi with rfl | hi
    · rw [hp]
      exact .inr mem_cons_self
    · exact .inl hi
  | finished => exact .inl (mem_of_mem_erase hi)
  | _ => exact .inl hi

/-- A turn without a task has not been started before, or has just been. -/
theorem untouched_of_effect (hin : Inv s) (he : Effect s a s')
    (hi : i ∉ s'.started ∨ i ∈ s'.actor.place.unspawned) : i ∉ s.started ∨ i ∈ s.actor.place.unspawned := by
  cases he with
  | started next hp =>
    rcases hi with hi | hi
    · exact .inl fun hm => hi (mem_append_left _ hm)
    · rw [mem_singleton.mp hi]
      have hl : next ∈ s.books.line := by simp [State.books, hp]
      exact .inl (hin.kept.mem_line.mp hl).2.1
  | called | counted | sent | refused | gaveUp | commanded | marked | cleared | woke | wokeFull | finished => exact hi
  | handled _ _ _ _ _ hn => rcases hn with rfl | rfl <;> exact hi.imp id nofun
  | _ => exact hi.imp id nofun

/-- Without a `judge` no turn is started. -/
theorem unspawned_of_effect (he : Effect s a s') (ha : ∀ t r, a ≠ .judge t r)
    (h : s.actor.place.unspawned = []) : s'.actor.place.unspawned = [] := by
  cases he with
  | started => exact absurd rfl (ha _ _)
  | called | counted | sent | refused | gaveUp | commanded | marked | cleared | woke | wokeFull | finished => exact h
  | handled _ _ _ _ _ hn => rcases hn with rfl | rfl <;> rfl
  | _ => rfl

/-- No turn is between its start and the end of its task. -/
structure Still (s : State ι) : Prop where
  unspawned : s.actor.place.unspawned = []
  running : s.running = []

theorem Still.step (h : Still s) (he : Effect s a s') (ha : ∀ t r, a ≠ .judge t r) : Still s' := by
  refine ⟨unspawned_of_effect he ha h.unspawned, eq_nil_iff_forall_not_mem.mpr fun i hi => ?_⟩
  rcases mem_running_of_effect he hi with hi | hi
  · rw [h.running] at hi
    cases hi
  · rw [h.unspawned] at hi
    cases hi

omit [DecidableEq ι] in
/-- Without an active turn nothing is under way. -/
theorem still_of_activeTurn_eq_none (hin : Inv s) (ha : s.actor.activeTurn = none) : Still s := by
  have hn : s.actor.place.unspawned ++ s.running = [] := by
    refine eq_nil_iff_forall_not_mem.mpr fun i hi => ?_
    have hb : s.actor.activeTurn.map ActiveTurn.turn = some i := (hin.kept.unanswered i hi).2.2
    rw [ha] at hb
    cases hb
  exact ⟨(append_eq_nil_iff.mp hn).1, (append_eq_nil_iff.mp hn).2⟩

end Effects

/-! ### What a handle keeps -/

/-- A handle that keeps what its turns said, and has it stored. -/
structure HandleKept (stored : List ι) (handle : Handle ι) : Prop where
  inv : Inv handle.state
  returned : ∀ i, handle.state.calls i = .returned .ok → (i, .ok) ∈ handle.state.answers
  untouched : ∀ i, i ∉ handle.state.started ∨ i ∈ handle.state.actor.place.unspawned → handle.tasks i = {}
  /-- What is to be saved is the record as it is. -/
  cloned : ∀ i ∈ handle.state.running, ∀ record, (handle.tasks i).clone = some record → record = handle.session
  ok : ∀ i, (i, .ok) ∈ handle.state.answers → i ∈ handle.session.messages ∧ i ∈ stored
  persisted : ∀ i ∈ handle.state.running, (handle.tasks i).failed = false → .persist ∉ (handle.tasks i).todo →
    i ∈ handle.session.messages ∧ ((handle.tasks i).clone = none → i ∈ stored)

namespace HandleKept

variable {st stored' : List ι} {handle : Handle ι} {s' : State ι} {act : Act ι} {i : ι}

omit [DecidableEq ι] in
theorem new (identity : Session ι) (session : Record ι) (stored : List ι) :
    HandleKept stored { state := start identity, session } where
  inv := inv_start identity
  returned _ := nofun
  untouched _ _ := rfl
  cloned := nofun
  ok := nofun
  persisted := nofun

variable (h : HandleKept st handle)
include h

omit [DecidableEq ι] in
/-- While nothing is under way, only what was said with `Ok` needs to be stored. -/
theorem of_still (hs : Still handle.state)
    (hok : ∀ i, (i, .ok) ∈ handle.state.answers → i ∈ stored') : HandleKept stored' handle :=
  { h with
    ok := fun i hi => ⟨(h.ok i hi).1, hok i hi⟩
    persisted := fun i hi => by
      rw [hs.running] at hi
      cases hi }

/-- The actor and its callers do not touch the record. -/
theorem step (he : Effect handle.state act s')
    (ha : ∀ turn result, act ≠ .finish turn result) : HandleKept st { handle with state := s' } where
  inv := h.inv.step he
  returned _ hi := returned_of_effect he h.returned hi
  untouched i hi := h.untouched i (untouched_of_effect h.inv he hi)
  cloned i hi record hc := by
    rcases mem_running_of_effect he hi with hi | hi
    · exact h.cloned i hi record hc
    · rw [show handle.tasks i = {} from h.untouched i (.inr hi)] at hc
      cases hc
  ok i hi := h.ok i (ok_mem_of_effect he ha hi)
  persisted i hi hf ht := by
    rcases mem_running_of_effect he hi with hi | hi
    · exact h.persisted i hi hf ht
    · -- the task of a turn that was just started has its record still to persist
      rw [show handle.tasks i = {} from h.untouched i (.inr hi)] at ht
      simp at ht

variable (hi : i ∈ handle.state.running)
include hi

omit [DecidableEq ι] in
/-- One task runs at a time. -/
theorem eq_of_mem_running {j : ι} (hj : j ∈ handle.state.running) : i = j := by
  have hb : ∀ k ∈ handle.state.running, handle.state.actor.activeTurn.map ActiveTurn.turn = some k := fun k hk =>
    h.inv.active (.inr hk)
  exact some.inj ((hb i hi).symm.trans (hb j hj))

/-- What a change of the record and of the task that runs has to keep. -/
theorem setTask {session : Record ι} {task : Task ι} (hm : ∀ k ∈ handle.session.messages, k ∈ session.messages)
    (hc : ∀ record, task.clone = some record → record = session)
    (hp : task.failed = false → .persist ∉ task.todo → i ∈ session.messages ∧ (task.clone = none → i ∈ st)) :
    HandleKept st { handle with session, tasks := update handle.tasks i task } where
  inv := h.inv
  returned := h.returned
  untouched k hk := by
    have hki : k ≠ i := by
      -- a task that runs belongs to a turn that was started and has its task
      rintro rfl
      rcases hk with hn | hu
      · exact hn (h.inv.kept.unanswered k (mem_append_right _ hi)).1
      · exact disjoint_of_nodup_append h.inv.kept.single hu hi
    show update handle.tasks i task k = {}
    rw [update_of_ne hki]
    exact h.untouched k hk
  cloned k hk record hr := by
    obtain rfl := h.eq_of_mem_running hk hi
    have hr : (update handle.tasks k task k).clone = some record := hr
    rw [update_self] at hr
    exact hc record hr
  ok k hk := ⟨hm k (h.ok k hk).1, (h.ok k hk).2⟩
  persisted k hk hf ht := by
    obtain rfl := h.eq_of_mem_running hk hi
    dsimp only at hf ht ⊢
    rw [update_self] at hf ht ⊢
    exact hp hf ht

/-- A change of the record loses no message, and is to be saved. -/
theorem change {c : Change} {todo : List Change} (ht : (handle.tasks i).todo = c :: todo) :
    HandleKept st { handle with
      session := c.apply i handle.session
      tasks := update handle.tasks i
        { handle.tasks i with todo, clone := some (c.apply i handle.session) } } := by
  have hm : ∀ k ∈ handle.session.messages, k ∈ (c.apply i handle.session).messages := by
    intro k hk
    cases c with
    | prepare | status => exact hk
    | persist => exact mem_append_left _ hk
  refine h.setTask hi hm (fun r hr => (some.inj hr).symm) fun hf hn => ⟨?_, nofun⟩
  by_cases hp : c = .persist
  · subst hp
    exact mem_append_right _ mem_cons_self
  · refine hm i (h.persisted i hi hf ?_).1
    rw [ht, mem_cons, not_or]
    exact ⟨Ne.symm hp, hn⟩

omit hi in
omit [DecidableEq ι] in
/-- The record of the handle has what its turns said. -/
theorem session : HandleKept handle.session.messages handle :=
  { h with
    ok := fun i hi => ⟨(h.ok i hi).1, (h.ok i hi).1⟩
    persisted := fun i hi hf ht =>
      ⟨(h.persisted i hi hf ht).1, fun _ => (h.persisted i hi hf ht).1⟩ }

theorem save : HandleKept handle.session.messages { handle with
      tasks := update handle.tasks i { handle.tasks i with clone := none } } :=
  h.session.setTask hi (fun _ hk => hk) nofun fun hf ht =>
    ⟨(h.persisted i hi hf ht).1, fun _ => (h.persisted i hi hf ht).1⟩

theorem fail (todo : List Change) :
    HandleKept st { handle with tasks := update handle.tasks i { todo, failed := true } } :=
  h.setTask hi (fun _ hk => hk) nofun nofun

/-- A task that ends with `Ok` has persisted and saved what it said. -/
theorem finish {r : TurnResult}
    (hok : r = .ok → (handle.tasks i).todo = [] ∧ (handle.tasks i).clone = none ∧ (handle.tasks i).failed = false) :
    HandleKept st { handle with
      state := { handle.state with running := handle.state.running.erase i }.reply i r } where
  inv := h.inv.step (.finished i r hi)
  returned k hk := returned_of_effect (.finished i r hi) h.returned hk
  untouched := h.untouched
  cloned k hk := h.cloned k (mem_of_mem_erase hk)
  ok k hk := by
    rcases mem_append.mp hk with hk | hk
    · exact h.ok k hk
    · obtain ⟨rfl, rfl⟩ := Prod.mk.inj (mem_singleton.mp hk)
      obtain ⟨ht, hc, hf⟩ := hok rfl
      have hp := h.persisted k hi hf (by simp [ht])
      exact ⟨hp.1, hp.2 hc⟩
  persisted k hk := h.persisted k (mem_of_mem_erase hk)

end HandleKept

/-! ### What the service keeps -/

/-- The record whose checkpoint the pause has saved. -/
def Pauser.saved? {ι : Type*} : Pauser ι → Option (Record ι)
  | .checkpointSaved session | .sessionSaved session | .done session => some session
  | _ => none

omit [DecidableEq ι] in
theorem Pauser.session?_of_saved? {p : Pauser ι} {session : Record ι} (h : p.saved? = some session) :
    p.session? = some session := by
  cases p with
  | checkpointSaved | sessionSaved | done => exact h
  | _ => cases h

omit [DecidableEq ι] in
/-- Without its snapshot the pause is not done. -/
theorem Pauser.ne_done {p : Pauser ι} (h : p.session? = none) (session : Record ι) : p ≠ .done session := by
  rintro rfl
  cases h

/-- No turn is under way, and the record has what was said with `Ok`. -/
structure Quiet (handles : ℕ → Handle ι) (session : Record ι) : Prop where
  still : ∀ h, Still (handles h).state
  said : ∀ h i, (i, .ok) ∈ (handles h).state.answers → i ∈ session.messages

variable {d : Handle ι}

omit [DecidableEq ι] in
/-- Quiet is the handle that is set, and the others are. -/
theorem Quiet.setHandle {w : Service ι} {g : ℕ} {s : Record ι} (hs : Still d.state)
    (hsd : ∀ i, (i, .ok) ∈ d.state.answers → i ∈ s.messages) (ho : ∀ k, k ≠ g → Still (w.handles k).state ∧
      ∀ i, (i, .ok) ∈ (w.handles k).state.answers → i ∈ s.messages) : Quiet (w.setHandle g d).handles s where
  still := (forall_update_iff w.handles fun _ d => Still d.state).mpr
    ⟨hs, fun k hk => (ho k hk).1⟩
  said := (forall_update_iff w.handles fun _ d =>
    ∀ i, (i, .ok) ∈ d.state.answers → i ∈ s.messages).mpr ⟨hsd, fun k hk => (ho k hk).2⟩

/-- What holds throughout an undisturbed run. -/
structure ServiceInv : Prop where
  kept : ∀ h, HandleKept w.stored.messages (w.handles h)
  unmade : ∀ h, w.made ≤ h → (w.handles h).state = start w.identity
  /-- Until the pause takes it out, there is at most one handle. -/
  single : (∀ session, w.pauser ≠ .done session) → w.made = 0 ∧ w.current = none ∨ w.made = 1 ∧ w.current = some 0
  asked : ∀ h ∈ w.pauser.handle?, h = 0 ∧ w.made = 1
  quiet : ∀ session, w.pauser.session? = some session → Quiet w.handles session
  checkpoint : w.checkpoint = w.pauser.saved?.map Record.paused
  released : w.releasedWhile = []

namespace ServiceInv

variable {w w' : Service ι} {g : ℕ} {i : ι}

section

omit [DecidableEq ι]

theorem new (identity : Session ι) (stored : Record ι) : ServiceInv (new identity stored) where
  kept _ := .new identity stored stored.messages
  unmade _ _ := rfl
  single _ := .inl ⟨rfl, rfl⟩
  asked := nofun
  quiet := nofun
  checkpoint := rfl
  released := rfl

variable (h : ServiceInv w)
include h

theorem lt_made (hi : i ∈ (w.handles g).state.running) : g < w.made := by
  by_contra hle
  rw [h.unmade g (Nat.le_of_not_lt hle)] at hi
  cases hi

/-- While a task runs, no pause has its snapshot. -/
theorem session?_eq_none (hi : i ∈ (w.handles g).state.running) : w.pauser.session? = none := by
  cases hs : w.pauser.session? with
  | none => rfl
  | some s =>
    rw [((h.quiet s hs).still g).running] at hi
    cases hi

/-- Until the pause has its snapshot, other handles than the first have done nothing. -/
theorem state_eq_start (hs : w.pauser.session? = none) {k : ℕ} (hg : g < w.made) (hk : k ≠ g) :
    (w.handles k).state = start w.identity := by
  refine h.unmade k ?_
  rcases h.single (Pauser.ne_done hs) with ⟨hm, -⟩ | ⟨hm, -⟩ <;> omega

/-- Until the pause is done, there has been no handle if there is none. -/
theorem made_eq_zero (hp : ∀ s, w.pauser ≠ .done s) (hc : w.current = none) : w.made = 0 := by
  rcases h.single hp with ⟨hm, -⟩ | ⟨-, hs⟩
  · exact hm
  · rw [hc] at hs
    cases hs

/-- With no handle, nothing has been said. -/
theorem quiet_of_made_eq_zero (hm : w.made = 0) (session : Record ι) : Quiet w.handles session := by
  have hs : ∀ k, (w.handles k).state = start w.identity := fun k => h.unmade k (by omega)
  refine ⟨fun k => ?_, fun k i hi => ?_⟩
  · rw [hs k]
    exact ⟨rfl, rfl⟩
  · rw [hs k] at hi
    cases hi

theorem setHandle (hg : w.made ≤ g → d.state = start w.identity)
    (hk : HandleKept w.stored.messages d) (hq : w.pauser.session? ≠ none → Still d.state ∧
      ∀ i, (i, .ok) ∈ d.state.answers → (i, .ok) ∈ (w.handles g).state.answers) : ServiceInv (w.setHandle g d) where
  kept := (forall_update_iff w.handles fun _ => HandleKept _).mpr ⟨hk, fun k _ => h.kept k⟩
  unmade := (forall_update_iff w.handles fun k d => w.made ≤ k → d.state = start w.identity).mpr
    ⟨hg, fun k _ => h.unmade k⟩
  single := h.single
  asked := h.asked
  quiet session hs := by
    have hs : w.pauser.session? = some session := hs
    have hb := h.quiet session hs
    have ha := hq (by simp [hs])
    exact .setHandle ha.1 (fun i hi => hb.said g i (ha.2 i hi)) fun k _ => ⟨hb.still k, hb.said k⟩
  checkpoint := h.checkpoint
  released := h.released

theorem quiet_of_eq {p : Pauser ι} (hp : p.session? = w.pauser.session?) (s : Record ι) (hs : p.session? = some s) :
    Quiet w.handles s := h.quiet s (hp ▸ hs)

theorem go {pauser : Pauser ι} (hb : ∀ s, w.pauser ≠ .done s) (hasked : ∀ k ∈ pauser.handle?, k = 0 ∧ w.made = 1)
    (hq : ∀ s, pauser.session? = some s → Quiet w.handles s) (hs : pauser.saved? = w.pauser.saved?) :
    ServiceInv { w with pauser } :=
  { h with
    single := fun _ => h.single hb
    asked := hasked
    quiet := hq
    checkpoint := by rw [h.checkpoint, hs] }

theorem fails (hb : ∀ s, w.pauser ≠ .done s) (hs : w.pauser.saved? = none) :
    ServiceInv { w with pauser := .failed } := h.go hb nofun nofun hs.symm

/-- The pause goes on with a record that has everything. -/
theorem snap (hs : w.pauser.session? = none) {s : Record ι} (hq : Quiet w.handles s) : ServiceInv (w.snap s) := by
  have hb := Pauser.ne_done hs
  have hsv : w.pauser.saved? = none := by
    by_contra hne
    obtain ⟨s, hsm⟩ := ne_none_iff_exists'.mp hne
    rw [Pauser.session?_of_saved? hsm] at hs
    cases hs
  unfold Service.snap
  split_ifs
  · exact h.fails hb hsv
  · refine h.go hb nofun (fun r hr => ?_) hsv.symm
    cases hr
    exact hq

theorem store {record : Record ι} (hm : record.messages = w.stored.messages) :
    ServiceInv { w with stored := record } :=
  { h with kept := fun k => hm ▸ h.kept k }

/-- The next handle is put into `sessions_handler`. -/
theorem make (hc : w.current = none) : ServiceInv { w with made := w.made + 1, current := some w.made } := by
  refine { h with unmade := ?_, single := ?_, asked := ?_ }
  · intro k hk
    exact h.unmade k (Nat.le_of_succ_le hk)
  · intro hp
    show _ ∨ w.made + 1 = 1 ∧ some w.made = some 0
    rw [h.made_eq_zero hp hc]
    exact .inr ⟨rfl, rfl⟩
  · intro k hk
    have hp : ∀ session, w.pauser ≠ .done session := by
      intro session hd
      rw [show w.pauser = .done session from hd] at hk
      cases hk
    have ho := (h.asked k hk).2
    rw [h.made_eq_zero hp hc] at ho
    cases ho

/-- A task changes the handle that it runs in. -/
theorem setTask (hi : i ∈ (w.handles g).state.running)
    (hk : HandleKept w.stored.messages d) : ServiceInv (w.setHandle g d) :=
  h.setHandle (fun hle => absurd (h.lt_made hi) (by omega)) hk fun hs => absurd (h.session?_eq_none hi) hs

end

/-! Calls of `run_turn` -/

section

variable (h : ServiceInv w)
include h

theorem setCaller (c : Caller ι) (initializing : Option ι) : ServiceInv { w.setCaller i c with initializing } :=
  { h with }

theorem saveSeed {u : Bool} (hu : Undisturbed w (.saveSeed i u)) (hs : w.saveSeed i u = some w') :
    ServiceInv w' := by
  unfold Service.saveSeed at hs
  split at hs
  · rename_i s hc
    cases hs
    have hm : s.messages = w.stored.messages := hu s (by rw [hc]; rfl)
    refine (h.setCaller _ none).store ?_
    show (if u || decide (s.status = .paused) then _ else w.stored).messages = w.stored.messages
    split
    · exact hm
    · rfl
  · cases hs

theorem getHandle (hs : w.getHandle i = some w') : ServiceInv w' := by
  unfold Service.getHandle at hs
  split at hs
  · rename_i seed hca
    split at hs
    · cases hs
      exact h.setCaller _ w.initializing
    · rename_i hc
      cases hs
      have hcl : ServiceInv (w.setCaller i (.holding w.made)) := h.setCaller _ w.initializing
      refine (hcl.setHandle (fun _ => rfl) (.new w.identity seed _) fun _ =>
        ⟨⟨rfl, rfl⟩, fun _ hi => by cases hi⟩).make hc
  · cases hs

theorem act {a : Act ι} (hu : Undisturbed w (.act g a)) (hst : w.act g a = some w') : ServiceInv w' := by
  unfold Service.act at hst
  split_ifs at hst with hg
  obtain ⟨st, ha, rfl⟩ := map_eq_some_iff.mp hst
  have he := step_effect ha
  have hf : ∀ turn result, a ≠ .finish turn result := by
    rintro turn result rfl
    cases hg.2
  refine h.setHandle (fun hle => absurd hg.1 (by omega)) ((h.kept g).step he hf) fun hs => ?_
  have hj : ∀ table reading, a ≠ .judge table reading := by
    rintro table reading rfl
    exact hs hu
  obtain ⟨s, hs⟩ := ne_none_iff_exists'.mp hs
  exact ⟨((h.quiet s hs).still g).step he hj, fun i hi => ok_mem_of_effect he hf hi⟩

/-! Tasks of turns -/

theorem change (hs : w.change g i = some w') : ServiceInv w' := by
  unfold Service.change at hs
  split at hs
  · rename_i change t ht hc
    split_ifs at hs with hi
    cases hs
    exact h.setTask hi ((h.kept g).change hi ht)
  · cases hs

theorem save (hst : w.save g i = some w') : ServiceInv w' := by
  unfold Service.save at hst
  split at hst
  · rename_i r hc
    split_ifs at hst with hi
    cases hst
    obtain rfl := (h.kept g).cloned i hi r hc
    have hs := h.session?_eq_none hi
    have hkp : ∀ k, HandleKept (w.handles g).session.messages (w.handles k) := by
      intro k
      by_cases hk : k = g
      · subst hk
        exact (h.kept k).session
      · -- the other handles have said nothing
        have hsr := h.state_eq_start hs (h.lt_made hi) hk
        refine (h.kept k).of_still ?_ fun i hi => ?_
        · rw [hsr]
          exact ⟨rfl, rfl⟩
        · rw [hsr] at hi
          cases hi
    have hsv : ServiceInv { w with stored := (w.handles g).session } :=
      { h with
        kept := hkp
        quiet := fun s hn => absurd hn (by simp [hs]) }
    exact hsv.setTask hi ((h.kept g).save hi)
  · cases hst

theorem fail {partially : Bool} (hs : w.fail g i partially = some w') : ServiceInv w' := by
  unfold Service.fail at hs
  split_ifs at hs with hg <;> cases hs
  · exact h.setTask hg.1 ((h.kept g).fail hg.1 _)
  · exact h.setTask hg.1 ((h.kept g).fail hg.1 _)

theorem finish {r : TurnResult} (hs : w.finish g i r = some w') : ServiceInv w' := by
  unfold Service.finish at hs
  dsimp only at hs
  split_ifs at hs with hok
  obtain ⟨s, hf, rfl⟩ := map_eq_some_iff.mp hs
  unfold State.finish at hf
  split_ifs at hf with hi
  cases hf
  exact h.setTask hi ((h.kept g).finish hi hok)

/-! The pause -/

theorem look (hs : w.look = some w') : ServiceInv w' := by
  unfold Service.look at hs
  by_cases hi : w.pauser = .idle
  case neg =>
    rw [if_neg hi] at hs
    cases hs
  rw [if_pos hi] at hs
  have hb : ∀ session, w.pauser ≠ .done session := by simp [hi]
  have hsv : w.pauser.saved? = none := by rw [hi]; rfl
  split at hs
  · rename_i k hc
    cases hs
    split_ifs
    · exact h.fails hb hsv
    · refine h.go hb (fun k' hk' => ?_) (fun _ hs => by cases hs) hsv.symm
      cases hk'
      rcases h.single hb with ⟨-, hn⟩ | ⟨hm, hsm⟩
      · rw [hc] at hn
        cases hn
      · rw [hc] at hsm
        exact ⟨some.inj hsm, hm⟩
  · rename_i hc
    cases hs
    split_ifs
    · exact h.fails hb hsv
    · exact h.snap (by rw [hi]; rfl) (h.quiet_of_made_eq_zero (h.made_eq_zero hb hc) _)

theorem ask (hs : w.ask = some w') : ServiceInv w' := by
  unfold Service.ask at hs
  split at hs
  · rename_i k hp
    obtain ⟨state, hc, rfl⟩ := map_eq_some_iff.mp hs
    have he : Effect (w.handles k).state (.command .snapshot) state := step_effect hc
    obtain ⟨rfl, hm⟩ := h.asked k (by rw [hp]; rfl)
    have hst := h.setHandle (g := 0) (fun hle => absurd hle (by omega)) ((h.kept 0).step he nofun)
      fun hss => absurd (by rw [hp]; rfl) hss
    refine hst.go (fun s => ?_) ?_ nofun ?_
    · show w.pauser ≠ _
      simp [hp]
    · rintro k ⟨⟩
      exact ⟨rfl, hm⟩
    · show _ = w.pauser.saved?
      rw [hp]
      rfl
  · cases hs

theorem answer (hu : Undisturbed w .answer) (hst : w.answer = some w') : ServiceInv w' := by
  unfold Service.answer at hst
  split at hst
  · rename_i k hp
    split_ifs at hst with hpl
    obtain ⟨state, hf, rfl⟩ := map_eq_some_iff.mp hst
    have he : Effect (w.handles k).state .finishHandler state := step_effect hf
    have ha := hu k (by rw [hp]; rfl)
    have hs : w.pauser.session? = none := by rw [hp]; rfl
    obtain ⟨rfl, hm⟩ := h.asked k (by rw [hp]; rfl)
    have hsl : Still state := (still_of_activeTurn_eq_none (h.kept 0).inv ha).step he nofun
    have hse := h.setHandle (g := 0) (fun hle => absurd hle (by omega)) ((h.kept 0).step he nofun)
      fun hne => absurd hs hne
    refine hse.snap hs (.setHandle hsl ?_ fun k hk => ?_)
    · exact fun i hi => ((h.kept 0).ok i (ok_mem_of_effect he nofun hi)).1
    · rw [h.state_eq_start (g := 0) hs (by omega) hk]
      exact ⟨⟨rfl, rfl⟩, nofun⟩
  · cases hst

end

section

variable (h : ServiceInv w)
include h

omit [DecidableEq ι]

theorem checkpointBackend {ss : Bool} (hs : w.checkpointBackend ss = some w') : ServiceInv w' := by
  unfold Service.checkpointBackend at hs
  split at hs
  · rename_i session hp
    cases hs
    have hb : ∀ session, w.pauser ≠ .done session := by simp [hp]
    split_ifs
    · exact h.go hb nofun (h.quiet_of_eq (by rw [hp]; rfl)) (by rw [hp]; rfl)
    · exact h.go hb nofun nofun (by rw [hp]; rfl)
  · cases hs

/-- Nothing runs on the backend when it is released. -/
theorem release {ss : Bool} (hs : w.release ss = some w') : ServiceInv w' := by
  unfold Service.release at hs
  split at hs
  · rename_i session hp
    cases hs
    have hb : ∀ session, w.pauser ≠ .done session := by simp [hp]
    split_ifs
    · have hgo : ServiceInv { w with pauser := .released session } :=
        h.go hb nofun (h.quiet_of_eq (by rw [hp]; rfl)) (by rw [hp]; rfl)
      have hr : w.running = [] := by
        rw [running, flatMap_eq_nil_iff]
        exact fun k _ => ((hgo.quiet session rfl).still k).running
      exact { hgo with released := hr }
    · exact h.go hb nofun nofun (by rw [hp]; rfl)
  · cases hs

theorem saveCheckpoint (hs : w.saveCheckpoint = some w') : ServiceInv w' := by
  unfold Service.saveCheckpoint at hs
  split at hs
  · rename_i session hp
    cases hs
    exact { h with
      single := fun _ => h.single (by simp [hp])
      asked := nofun
      checkpoint := rfl
      quiet := h.quiet_of_eq (by rw [hp]; rfl) }
  · cases hs

/-- What is stored in place of the record has what was said. -/
theorem saveSession (hs : w.saveSession = some w') : ServiceInv w' := by
  unfold Service.saveSession at hs
  split at hs
  · rename_i session hp
    cases hs
    have hq : Quiet w.handles session := h.quiet session (by rw [hp]; rfl)
    have hgo : ServiceInv { w with pauser := .sessionSaved session } :=
      h.go (by simp [hp]) nofun (h.quiet_of_eq (by rw [hp]; rfl)) (by rw [hp]; rfl)
    exact { hgo with kept := fun k => (h.kept k).of_still (hq.still k) (hq.said k) }
  · cases hs

theorem remove (hs : w.remove = some w') : ServiceInv w' := by
  unfold Service.remove at hs
  split at hs
  · rename_i session hp
    cases hs
    have hgo : ServiceInv { w with pauser := .done session } :=
      h.go (by simp [hp]) nofun (h.quiet_of_eq (by rw [hp]; rfl)) (by rw [hp]; rfl)
    exact { hgo with single := fun hn => absurd rfl (hn session) }
  · cases hs

end

theorem step {a : ServiceAct ι} (h : ServiceInv w) (hu : Undisturbed w a) (hs : serviceStep w a = some w') :
    ServiceInv w' := by
  cases a with
  | load =>
    rw [serviceStep, load] at hs
    split_ifs at hs
    cases hs
    exact h.setCaller _ _
  | saveSeed => exact h.saveSeed hu hs
  | getHandle => exact h.getHandle hs
  | act => exact h.act hu hs
  | change => exact h.change hs
  | save => exact h.save hs
  | fail => exact h.fail hs
  | finish => exact h.finish hs
  | look => exact h.look hs
  | ask => exact h.ask hs
  | answer => exact h.answer hu hs
  | checkpointBackend => exact h.checkpointBackend hs
  | release => exact h.release hs
  | saveCheckpoint => exact h.saveCheckpoint hs
  | saveSession => exact h.saveSession hs
  | remove => exact h.remove hs

end ServiceInv

/-- **Pausing loses no turn** in a run in which the pause is undisturbed. -/
theorem turns_kept_of_run {identity : Session ι} {stored : Record ι} {w : Service ι}
    (hrun : RunUnder serviceStep Undisturbed (new identity stored) w) : TurnsKept w := by
  have hin : ServiceInv w := hrun.invariant (I := ServiceInv) (.new identity stored)
    fun h hu hst => h.step hu hst
  have hs : ∀ h i, (w.handles h).state.calls i = .returned .ok → (i, .ok) ∈ (w.handles h).state.answers :=
    fun h i hi => (hin.kept h).returned i hi
  refine ⟨fun h i hi => ((hin.kept h).ok i (hs h i hi)).2, fun r hr h i hi => ?_, hin.released⟩
  rw [hin.checkpoint] at hr
  obtain ⟨s, hsv, rfl⟩ := map_eq_some_iff.mp hr
  exact (hin.quiet s (Pauser.session?_of_saved? hsv)).said h i (hs h i hi)

/-- A call finds no handle, and makes one. -/
def makeHandle : List (ServiceAct (Fin 1)) := [.load 0, .saveSeed 0 false, .getHandle 0, .act 0 .startNext]

/-- The call enters the handle, and its turn is started. -/
def startTurn : List (ServiceAct (Fin 1)) :=
  (submit (0 : Fin 1) ++ takeTurn).map (.act 0) ++ [.act 0 (.judge .new none), .act 0 .spawn]

/-- The task saves the record after each change, and the call returns. -/
def endTurn : List (ServiceAct (Fin 1)) :=
  [.change 0 0, .save 0 0, .change 0 0, .save 0 0, .change 0 0, .save 0 0, .change 0 0, .save 0 0, .finish 0 0 .ok,
    .act 0 (.receiveReply 0)]

/-- The pause finds the session idle and gets its snapshot. -/
def takeSnapshot : List (ServiceAct (Fin 1)) := [.look, .ask, .act 0 (.receive 0), .answer]

/-- A session with a backend whose record has no message. -/
def newService : Service (Fin 1) := new (anonymousSession 1) {}

/-- A turn ends before the pause. -/
theorem turns_kept_of_run_after_turn : ∃ w : Service (Fin 1), RunUnder serviceStep Undisturbed newService w ∧
      ((w.handles 0).state.calls 0 = .returned .ok ∧ w.pauser.session?.isSome = true ∧ w.current = none ∧
        w.stored.status = .paused) ∧ TurnsKept w :=
  (exists_run_of_exec _ _ _ _
    (flatten [makeHandle, startTurn, endTurn, [.act 0 .activeDone, .act 0 .finishHandler, .act 0 .startNext],
      takeSnapshot, [.checkpointBackend true, .release true, .saveCheckpoint, .saveSession, .remove]])
    (by decide +kernel)).imp
    fun w ⟨hr, he⟩ => ⟨hr, he, turns_kept_of_run hr⟩

/-- A turn is started after the snapshot of the pause. The backend is released while it runs; its
messages are stored, and the pause then saves the record of the snapshot over them. The call has
returned `Ok` by then. -/
theorem pause_loses_turn : ∃ w : Service (Fin 1), RunUnder serviceStep Always newService w ∧
      (w.handles 0).state.calls 0 = .returned .ok ∧ w.pauser = .done {} ∧ w.releasedWhile = [0] ∧
      w.stored.messages = [] ∧ w.checkpoint.map Record.messages = some [] :=
  exists_run_of_exec _ _ _ _
    (flatten [makeHandle, takeSnapshot, [.act 0 .startNext], startTurn, [.checkpointBackend true, .release true],
      endTurn, [.saveCheckpoint, .saveSession, .remove]]) (by decide +kernel)

end XiaoO.Gateway.Pausing
