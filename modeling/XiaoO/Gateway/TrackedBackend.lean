import XiaoO.Backend.Processes
import XiaoO.Gateway.SessionRecord
import Mathlib.Data.Fintype.Basic

/-!
# A backend that is written to, checkpointed and evicted

One e2b backend of a backend manager, with all that goes on around it at the same time:
the calls of a turn on it, which go through `DirtyTrackedOperationBackend`
(`dirty_write.rs`), checkpoints (`checkpoint_backend`), and evictions
(`try_evict_if_needed`, `check_and_evict_marked_backends` and what they call,
`backend_manager.rs`), which mark the sessions of the backend in the session store.

## The model

A call is a list of instructions it still has to carry out, and the calls take turns in
any order. An instruction is what happens without another call in between: a critical
section of the manager, the tracker, the registry or the store, or a request to the
provider. The contents of the sandbox are of any type: a call on the backend changes
them any number of times before it returns `Ok` or `Err`, and a snapshot keeps the
contents at one moment between the request and its answer.

The two looks at the tracker by which `checkpoint_backend` decides to reuse a checkpoint
are two critical sections of the tracker.

Three lists record what has happened: the checkpoints that were reused, the removals of
the backend, and the sessions that were marked.

The sandbox counter and the entries of other backends are left out, as is the lock of
the manager, which no call holds while it waits for the provider. With
`checkpoint_before_eviction` every eviction asks for a checkpoint first.
-/

namespace XiaoO.Gateway.Tracked

open XiaoO.Base XiaoO.Backend XiaoO.Backend.Processes List Threads

/-! ### Calls -/

/-- The calls on a backend that may change its contents. -/
inductive Mutation where
  | exec
  | execStreaming
  | writeBytes
  | createDirAll
  | createDirAllWithExtra
  | tempPath
  deriving DecidableEq

/-- The calls after which `DirtyTrackedFileSystem` and `DirtyTrackedExec` call `mark_dirty`. -/
def Mutation.marks : Mutation → Bool
  | .execStreaming => false
  | _ => true

inductive Evictor where
  /-- `try_evict_if_needed`, in the process that owns the backend. -/
  | owner
  /-- `check_and_evict_marked_backends`. -/
  | marked
  /-- `try_evict_if_needed`, in another process. -/
  | foreign
  deriving DecidableEq

/-- What a checkpoint is made for. -/
inductive Purpose where
  /-- `checkpoint_backend` is called with a name and metadata. -/
  | request (name : Option String) (metadata : String)
  /-- `create_checkpoint_for_eviction`; the sessions are those of the registry's entry. -/
  | eviction (sessionIds : List String)
  deriving DecidableEq

/-- What a call still has to do, in a host whose processes are `π`. -/
inductive Instr (π : Type) where
  /-- A call on the backend is under way; it may have changed the contents already. -/
  | inner (mutation : Mutation) (touched : Bool)
  /-- `mark_dirty`. -/
  | markDirty (touched : Bool)
  /-- `BackendRegistry::update_session_status`. -/
  | updateSessionStatus (sessionId status : String) (queueDepth : ℕ)
  /-- `is_dirty`, in `checkpoint_backend`. -/
  | readDirty (purpose : Purpose)
  /-- `checkpoint`, of a tracker that was not dirty. -/
  | readCheckpoint (purpose : Purpose)
  /-- `e2b::create_snapshot`. -/
  | createSnapshot (purpose : Purpose)
  /-- `set_checkpoint`, with the snapshot the provider has made. -/
  | setCheckpoint (snapshot : E2bSnapshotResult) (purpose : Purpose)
  /-- `refresh_heartbeats_for_process`. -/
  | refreshHeartbeats
  /-- `get_entries_by_key` or `get_entries_for_process`. -/
  | readRegistry (evictor : Evictor)
  /-- The loop comes to the entry of the backend. -/
  | choose (evictor : Evictor) (entry : BackendRegistryEntry π)
  /-- `set_pending_eviction`. -/
  | setPendingEviction (pending : Bool)
  /-- The locked part of `evict_backend_by_id`. -/
  | evict (sessionIds : List String) (checkpoint : Option BackendCheckpointRef)
  /-- `BackendRegistry::unregister` in `finalize_removal`. -/
  | unregister (sessionIds : List String) (checkpoint : Option BackendCheckpointRef)
  /-- `delete_backend_instance`. -/
  | delete (sessionIds : List String) (checkpoint : Option BackendCheckpointRef)
  /-- `batch_mark_paused_due_to_eviction`. -/
  | markPaused (sessionIds : List String) (checkpoint : Option BackendCheckpointRef)
  /-- `reclaim_orphaned_backend`. -/
  | reclaim (sessionIds : List String)

inductive Operation where
  | mutate (mutation : Mutation)
  | updateSessionStatus (sessionId status : String) (queueDepth : ℕ)
  | checkpointBackend (name : Option String) (metadata : String)
  | evict (evictor : Evictor)
  | heartbeat

def Operation.program {π : Type} : Operation → List (Instr π)
  | .mutate mutation => [.inner mutation false]
  | .updateSessionStatus sessionId status queueDepth => [.updateSessionStatus sessionId status queueDepth]
  | .checkpointBackend name metadata => [.readDirty (.request name metadata)]
  | .evict .marked => [.refreshHeartbeats, .readRegistry .marked]
  | .evict evictor => [.readRegistry evictor]
  | .heartbeat => [.refreshHeartbeats]

theorem Operation.forall_mem_program {π : Type} {P : Instr π → Prop} (hi : ∀ mt, P (.inner mt false))
    (hs : ∀ i s q, P (.updateSessionStatus i s q))
    (hc : ∀ n m, P (.readDirty (.request n m))) (hrf : P .refreshHeartbeats)
    (hr : ∀ e, P (.readRegistry e)) (o : Operation) : ∀ x ∈ o.program, P x := by
  cases o with
  | mutate mt => exact forall_mem_singleton.mpr (hi mt)
  | updateSessionStatus i s q =>
    exact forall_mem_singleton.mpr (hs i s q)
  | checkpointBackend n m => exact forall_mem_singleton.mpr (hc n m)
  | heartbeat => exact forall_mem_singleton.mpr hrf
  | evict e =>
    cases e with
    | marked => exact forall_mem_cons.mpr ⟨hrf, forall_mem_singleton.mpr (hr .marked)⟩
    | owner => exact forall_mem_singleton.mpr (hr .owner)
    | foreign => exact forall_mem_singleton.mpr (hr .foreign)

/-! ### The machine -/

/-- A checkpoint was reused: the contents at that time, and those of its snapshot. -/
structure Reuse (C : Type) where
  checkpoint : BackendCheckpointRef
  contents : C
  captured : Option C

/-- A call has removed the backend: the contents and the sessions bound to it at that time. -/
structure Removal (ι C : Type) where
  call : ι
  contents : C
  sessionIds : List String

/-- A call has marked a stored session as paused. -/
structure Paused (ι : Type) where
  call : ι
  sessionId : String
  checkpoint : Option BackendCheckpointRef

/-- The sandbox and its snapshots, the tracker, the backend in the manager's map with the
sessions bound to it, its entry in the registry, the session store, and the history. -/
structure Shared (ι π C : Type) where
  contents : C
  captured : String → Option C := fun _ => none
  tracker : BackendDirtyTracker := {}
  bound : Option (List String) := none
  registered : Option (BackendRegistryEntry π) := none
  store : SortedMap String SessionRecord := .empty
  reuses : List (Reuse C) := []
  removals : List (Removal ι C) := []
  paused : List (Paused ι) := []

/-- What an instruction gets from outside. -/
structure Env (C : Type) where
  nowMs : ℕ := 0
  uuid : String := ""
  /-- New contents, or the call on the backend returns. -/
  effect : Option C := none
  /-- It returns `Ok`. -/
  ok : Bool := true
  snapshot : Except BackendError E2bSnapshotResult := .error .needsEviction
  /-- The provider fails to delete the sandbox. -/
  refused : Bool := false

/-- What is fixed: the request that the backend was made for, the process that owns it, its
sandbox and the time. -/
structure Setup (π : Type) where
  request : NewBackend
  owner : π
  instanceId : String := ""
  createdAtMs : ℕ := 0

variable {ι π C : Type}

/-- `create_checkpoint_for_eviction` gives its checkpoints a name. -/
def Purpose.name (setup : Setup π) : Purpose → Option String
  | .request name _ => name
  | .eviction _ => some ("eviction-" ++ setup.request.backendId)

def Purpose.metadata : Purpose → String
  | .request _ metadata => metadata
  | .eviction _ => "\x7b\"reason\":\"eviction\"\x7d"

variable (setup : Setup π)

def newCheckpoint (purpose : Purpose) (snapshot : E2bSnapshotResult) (env : Env C) : BackendCheckpointRef where
  checkpointId := "bcp_" ++ env.uuid
  provider := setup.request.config.kind
  sourceBackendId := some setup.request.backendId
  providerSnapshotId := some snapshot.snapshotId
  providerSnapshotNames := snapshot.names
  workspaceRoot := setup.request.workspaceRoot
  name := purpose.name setup
  metadata := purpose.metadata
  createdAtMs := env.nowMs
  providerOptions := setup.request.config.options

/-- How a call goes on with the result of `checkpoint_backend`: an eviction goes on without
a checkpoint if there is none. -/
def Purpose.goOn (result : Option BackendCheckpointRef) : Purpose → List (Instr π)
  | .request _ _ => []
  | .eviction sessionIds => [.evict sessionIds result]

/-- What the loop of an evictor does with the entry of the backend. -/
def Evictor.choose (nowMs : ℕ) (entry : BackendRegistryEntry π) : Evictor → List (Instr π)
  | .owner => if entry.isEvictable nowMs then [.readDirty (.eviction entry.sessionIds)] else []
  | .marked =>
    if !entry.pendingEviction then []
    else if !entry.isEvictionSafe nowMs then [.setPendingEviction false]
    else [.readDirty (.eviction entry.sessionIds)]
  | .foreign =>
    if !entry.isEvictable nowMs then []
    else if entry.isOwnerStale nowMs then [.reclaim entry.sessionIds]
    else [.setPendingEviction true]

/-- Carry out an instruction of the call `i`: the state after it, and what it leads to. -/
def exec (i : ι) (env : Env C) (s : Shared ι π C) : Instr π → Shared ι π C × List (Instr π)
  | .inner mutation touched =>
    match env.effect with
    | some contents => ({ s with contents }, [.inner mutation true])
    | none => (s, if env.ok && mutation.marks then [.markDirty touched] else [])
  | .markDirty _ => ({ s with tracker := s.tracker.markDirty }, [])
  | .updateSessionStatus sessionId status queueDepth =>
    ({ s with registered := s.registered.map (·.updateSessionStatus sessionId status queueDepth) }, [])
  | .readDirty purpose =>
    if s.bound.isNone then (s, purpose.goOn none)
    else (s, if s.tracker.dirty then [.createSnapshot purpose] else [.readCheckpoint purpose])
  | .readCheckpoint purpose =>
    match s.tracker.checkpoint with
    | none => (s, [.createSnapshot purpose])
    | some checkpoint =>
      ({ s with reuses := ⟨checkpoint, s.contents, checkpoint.providerSnapshotId.bind s.captured⟩ :: s.reuses },
        purpose.goOn (some checkpoint))
  | .createSnapshot purpose =>
    match env.snapshot with
    | .error _ => (s, purpose.goOn none)
    | .ok snapshot =>
      ({ s with captured := Function.update s.captured snapshot.snapshotId (some s.contents) },
        [.setCheckpoint snapshot purpose])
  | .setCheckpoint snapshot purpose =>
    if s.bound.isNone then (s, purpose.goOn none)
    else
      let checkpoint := newCheckpoint setup purpose snapshot env
      ({ s with tracker := s.tracker.setCheckpoint checkpoint }, purpose.goOn (some checkpoint))
  | .refreshHeartbeats =>
    ({ s with registered := s.registered.map fun entry => { entry with ownerHeartbeatMs := env.nowMs } }, [])
  | .readRegistry evictor => (s, s.registered.toList.map (.choose evictor))
  | .choose evictor entry => (s, evictor.choose env.nowMs entry)
  | .setPendingEviction pending =>
    ({ s with registered := s.registered.map fun entry => { entry with pendingEviction := pending } }, [])
  | .evict sessionIds checkpoint =>
    match s.bound with
    | none => (s, [])
    | some bound =>
      ({ s with bound := none, removals := ⟨i, s.contents, bound⟩ :: s.removals },
        [.unregister sessionIds checkpoint])
  | .unregister sessionIds checkpoint => ({ s with registered := none }, [.delete sessionIds checkpoint])
  | .delete sessionIds checkpoint => (s, if env.refused then [] else [.markPaused sessionIds checkpoint])
  | .markPaused sessionIds checkpoint =>
    ({ s with
        store := sessionIds.foldl
          (fun store sessionId => store.modify sessionId (·.markPausedDueToEviction checkpoint env.nowMs)) s.store
        paused := (sessionIds.filter fun sessionId => (s.store.get? sessionId).isSome).map
          (fun sessionId => ⟨i, sessionId, checkpoint⟩) ++ s.paused }, [])
  | .reclaim sessionIds =>
    ({ s with registered := none, removals := ⟨i, s.contents, sessionIds⟩ :: s.removals }, [])

def act (l : ι × Env C) (s : Shared ι π C) : List (Instr π) → Option (Shared ι π C × List (Instr π))
  | [] => none
  | x :: rest => some ((exec setup l.1 l.2 s x).1, (exec setup l.1 l.2 s x).2 ++ rest)

/-- The calls `ι`. -/
abbrev World (ι π C : Type) := Threads ι (Shared ι π C) (List (Instr π))

variable [DecidableEq ι]

def step (setup : Setup π) (w : World ι π C) (l : ι × Env C) : Option (World ι π C) :=
  Threads.step (act setup) w (l.1, l)

/-- A backend right after it was made, perhaps from the snapshot of a checkpoint, with the
calls that will be made. -/
def start (contents : C) (captured : String → Option C) (origin : Option BackendCheckpointRef)
    (store : SortedMap String SessionRecord) (operations : ι → Operation) : World ι π C where
  shared :=
    { contents
      captured
      tracker := match origin with
        | none => {}
        | some checkpoint => ({} : BackendDirtyTracker).setCheckpoint checkpoint
      bound := some setup.request.sessionId.toList
      registered := some (.new setup.request setup.owner setup.instanceId setup.createdAtMs)
      store }
  thread i := (operations i).program

/-- A call that goes on carries out its first instruction. -/
theorem step_eq_some {su : Setup π} {w w' : World ι π C} {l : ι × Env C} (h : step su w l = some w') :
    ∃ x r, w.thread l.1 = x :: r ∧
      w' = w.put l.1 (exec su l.1 l.2 w.shared x).1 ((exec su l.1 l.2 w.shared x).2 ++ r) := by
  obtain ⟨s, t, ha, rfl⟩ := Threads.step_eq_some.mp h
  cases ht : w.thread l.1 with
  | nil => simp [act, ht] at ha
  | cons x r =>
    simp only [act, ht] at ha
    obtain ⟨rfl, rfl⟩ := Prod.mk.inj (Option.some.inj ha)
    exact ⟨x, r, rfl, rfl⟩

/-! ### What a call is still to do -/

section Todo

variable {w : World ι π C} {i : ι} {x y : Instr π} {r f : List (Instr π)} {s : Shared ι π C}

/-- Some call has an instruction of a kind to carry out. -/
def Somewhere (w : World ι π C) (kind : Instr π → Bool) : Prop := ∃ k, ∃ x ∈ w.thread k, kind x

instance [Fintype ι] (w : World ι π C) (kind : Instr π → Bool) : Decidable (Somewhere w kind) := by
  delta Somewhere
  infer_instance

theorem mem_put (ht : w.thread i = x :: r) {k : ι} (h : y ∈ (w.put i s (f ++ r)).thread k) :
    y ∈ f ∧ k = i ∨ y ∈ w.thread k := by
  rcases eq_or_ne k i with rfl | hk
  · rw [put_thread_self, mem_append] at h
    refine h.imp (fun h => ⟨h, rfl⟩) fun h => ?_
    rw [ht]
    exact mem_cons_of_mem x h
  · rw [put_thread_of_ne w s _ hk] at h
    exact .inr h

theorem mem_put_of_mem (ht : w.thread i = x :: r) {k : ι} (h : y ∈ w.thread k) :
    y ∈ (w.put i s (f ++ r)).thread k ∨ y = x ∧ k = i := by
  rcases eq_or_ne k i with rfl | hk
  · rw [ht, mem_cons] at h
    rw [put_thread_self, mem_append]
    exact h.symm.imp .inr fun h => ⟨h, rfl⟩
  · rw [put_thread_of_ne w s _ hk]
    exact .inl h

/-- What a call is to do stays, if the instruction that does it leads to more of the kind. -/
theorem Somewhere.put {kind : Instr π → Bool} (h : Somewhere w kind) (ht : w.thread i = x :: r)
    (hx : kind x → ∃ y ∈ f, kind y) : Somewhere (w.put i s (f ++ r)) kind := by
  obtain ⟨k, y, hy, hk⟩ := h
  have hp : y ∈ (w.put i s (f ++ r)).thread k ∨ y = x ∧ k = i := mem_put_of_mem ht hy
  obtain hy | ⟨rfl, rfl⟩ := hp
  · exact ⟨k, y, hy, hk⟩
  · obtain ⟨z, hz, hk⟩ := hx hk
    exact ⟨k, z, by simp [hz], hk⟩

end Todo

end XiaoO.Gateway.Tracked
