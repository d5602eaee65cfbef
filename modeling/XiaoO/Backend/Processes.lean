import XiaoO.Base.Threads
import XiaoO.Backend.Checkpoint
import XiaoO.Backend.SandboxCounter

/-!
# Processes that share a pool of sandboxes

Every daemon process has a backend manager (`backend_manager.rs`) with its backends in
memory. The processes of a host share the sandbox counter and the registry of backends
(`backend_registry.rs`), two files with a lock each.

## The model

A call of a manager is a list of instructions it still has to carry out; an instruction
is a critical section of the registry, of the counter or of the manager's own state, or
a local decision between them. The calls of all processes take turns in any order.
What an instruction reads from outside (the clock, the answers of the provider) is its
environment. A process can die at any time: its memory and its calls are gone, its
registry entries stay.

`ensure_session_backend` keeps the lock of the state until its backend is confirmed and
registered, `checkout_backend` releases it right after the backend is in the map.

For every backend id, `confirms` and `releases` count the calls of
`SandboxCounter::confirm_creation` and `SandboxCounter::release` on its behalf.

I/O errors of the two files, the pid and the activity time of an entry, checkpoints
before an eviction and the reconciliation of the counter at startup are left out. A
backend is removed under the id it was made with.
-/

namespace XiaoO.Backend.Processes

open XiaoO.Base

/-! ### The registry -/

structure SessionStatusSnapshot where
  status : String := "idle"
  queueDepth : ℕ := 0
  deriving DecidableEq

/-- `BackendRegistryEntry`, of an owner among the processes `π`. -/
structure BackendRegistryEntry (π : Type) where
  backendId : String
  sandboxKey : String
  sessionIds : List String
  ownerProcessId : π
  sessionStatuses : SortedMap String SessionStatusSnapshot
  createdAtMs : ℕ
  pendingEviction : Bool
  instanceId : String
  ownerHeartbeatMs : ℕ

def staleOwnerThresholdMs : ℕ := 30000

namespace BackendRegistryEntry

variable {π : Type} (entry : BackendRegistryEntry π) (nowMs : ℕ)

def updateSessionStatus (sessionId status : String) (queueDepth : ℕ) : BackendRegistryEntry π :=
  { entry with sessionStatuses := entry.sessionStatuses.insert sessionId ⟨status, queueDepth⟩ }

def isAllSessionsIdle : Bool :=
  entry.sessionStatuses.entries.all fun session => session.2.status = "idle" ∧ session.2.queueDepth = 0

def isOwnerStale : Bool :=
  entry.ownerHeartbeatMs = 0 ∨ staleOwnerThresholdMs < nowMs - entry.ownerHeartbeatMs

def isEvictionSafe : Bool := entry.isAllSessionsIdle || entry.isOwnerStale nowMs

def isEvictable : Bool := !entry.pendingEviction && entry.isEvictionSafe nowMs

end BackendRegistryEntry

/-! ### Calls -/

/-- A backend to be made: the request of `ensure_session_backend` or `checkout_backend`. -/
structure NewBackend where
  backendId : String
  sessionId : Option String := none
  config : GatewayBackendConfig := ⟨"e2b", "null"⟩
  sandboxKey : String := ""
  workspaceRoot : String := ""
  dirtyTracker : BackendDirtyTracker := {}
  initialStatus : Option SessionStatusSnapshot := none

def BackendRegistryEntry.new {π : Type} (request : NewBackend) (owner : π) (instanceId : String) (nowMs : ℕ) :
    BackendRegistryEntry π where
  backendId := request.backendId
  sandboxKey := request.sandboxKey
  sessionIds := request.sessionId.toList
  ownerProcessId := owner
  sessionStatuses := match request.sessionId with
    | none => .empty
    | some sessionId => SortedMap.empty.insert sessionId (request.initialStatus.getD {})
  createdAtMs := nowMs
  pendingEviction := false
  instanceId
  ownerHeartbeatMs := nowMs

def isCountedKind (kind : String) : Bool := kind = "e2b"

/-- The loop that a call of `try_evict_if_needed` is in, with the attempts that are left. -/
inductive RetryLoop where
  /-- `reserve_with_eviction`. -/
  | reserve (sandboxKey : String) (attempts : ℕ)
  /-- `checkout_backend_with_eviction`. -/
  | checkout (request : NewBackend) (attempts : ℕ)

/-- What a call still has to do. In the loops with evictions, `marked` is the backend of
another process that the call has marked (`marked_backend_id`). -/
inductive Instr (π : Type) where
  /-- The fast path of `ensure_session_backend`: a session that has its backend is done. -/
  | leaseBound (request : NewBackend)
  /-- `check_and_reserve`, with an eviction and another try if the limit is reached. -/
  | reserve (sandboxKey : String) (attempts : ℕ) (marked : Option String)
  /-- `try_evict_if_needed`: the count. -/
  | countTotal (sandboxKey : String) (marked : Option String) (loop : RetryLoop)
  /-- `get_entries_by_key`. -/
  | readByKey (sandboxKey : String) (marked : Option String) (loop : RetryLoop)
  /-- The loop of `try_evict_if_needed` over the entries it has read. -/
  | evictFirst (entries : List (BackendRegistryEntry π)) (marked : Option String) (loop : RetryLoop)
  /-- `evict_backend_by_id` in that loop. -/
  | evictOwn (backendId : String) (rest : List (BackendRegistryEntry π)) (marked : Option String) (loop : RetryLoop)
  /-- `set_pending_eviction`. -/
  | setPendingEviction (backendId : String) (pending : Bool)
  /-- The rest of `ensure_session_backend`, with the lock of the state. -/
  | create (request : NewBackend)
  /-- The first locked part of `checkout_backend`, which reserves a place, with an eviction
  and another try if the limit is reached. -/
  | reserveChild (request : NewBackend) (attempts : ℕ) (marked : Option String)
  /-- The second locked part of `checkout_backend`. -/
  | insertCheckoutChild (request : NewBackend)
  /-- The attempts are used up. -/
  | giveUp
  /-- `confirm_creation`. -/
  | confirm (request : NewBackend) (instanceId : String)
  /-- `BackendRegistry::register`. -/
  | register (entry : BackendRegistryEntry π)
  /-- The end of a locked part of `ensure_session_backend`. -/
  | unlock
  /-- The locked part of `release_session`. -/
  | releaseSession (sessionId : String)
  /-- The locked part of `shutdown_all`. -/
  | drain
  /-- `SandboxCounter::release` in `finalize_removal`. -/
  | release (backendId sandboxKey : String)
  /-- `SandboxCounter::release` in `reclaim_orphaned_backend`. -/
  | reclaim (entry : BackendRegistryEntry π)
  /-- `BackendRegistry::unregister`. -/
  | unregister (backendId : String)
  /-- `delete_backend_instance`. -/
  | delete (backendId : String)
  /-- `refresh_heartbeats_for_process`. -/
  | refreshHeartbeats
  /-- `get_entries_for_process`. -/
  | readOwn
  /-- The loop of `check_and_evict_marked_backends`. -/
  | evictMarked (entries : List (BackendRegistryEntry π))
  /-- `evict_backend_by_id` in that loop. -/
  | evictMarkedOwn (backendId : String) (rest : List (BackendRegistryEntry π))
  /-- `BackendRegistry::update_session_status`. -/
  | updateSessionStatus (backendId sessionId status : String) (queueDepth : ℕ)

/-- The calls of a manager. -/
inductive Operation where
  | ensureSessionBackend (request : NewBackend) (attempts : ℕ)
  /-- `checkout_backend`, or `checkout_backend_with_eviction` with a number of attempts. -/
  | checkoutBackend (request : NewBackend) (attempts : ℕ)
  | releaseSession (sessionId : String)
  | checkAndEvictMarkedBackends
  | shutdownAll
  | heartbeat
  | updateSessionStatus (backendId sessionId status : String) (queueDepth : ℕ)

/-! ### The machine -/

/-- What is fixed: the limit, and `sandbox_key_from_config`, which looks for the API key in
the options and in the environment of the process. -/
structure Setup where
  maxPerKey : ℕ
  sandboxKey : GatewayBackendConfig → String

/-- The instructions of a call. A session's backend has the key of its configuration; a
checkout makes an e2b sandbox, with a key that its options may change. -/
def Operation.program {π : Type} (setup : Setup) : Operation → List (Instr π)
  | .ensureSessionBackend request attempts =>
    let request := { request with sandboxKey := setup.sandboxKey request.config }
    if isCountedKind request.config.kind then
      [.leaseBound request, .reserve request.sandboxKey attempts none, .create request]
    else [.leaseBound request, .create request]
  | .checkoutBackend request attempts =>
    let request := { request with config := ⟨"e2b", request.config.options⟩ }
    [.reserveChild request attempts none, .insertCheckoutChild request]
  | .releaseSession sessionId => [.releaseSession sessionId]
  | .checkAndEvictMarkedBackends => [.refreshHeartbeats, .readOwn]
  | .shutdownAll => [.drain]
  | .heartbeat => [.refreshHeartbeats]
  | .updateSessionStatus backendId sessionId status queueDepth =>
    [.updateSessionStatus backendId sessionId status queueDepth]

/-- What an instruction gets from outside. -/
structure Env where
  nowMs : ℕ := 0
  /-- The sandbox that the provider builds. -/
  built : Option String := none
  /-- The provider fails to delete a sandbox. -/
  refused : Bool := false
  /-- The ids in the order in which a map is walked. -/
  order : List String := []

/-- What a map has, as it is walked. -/
def Env.walk {α : Type} (env : Env) (id : α → String) (l : List α) : List α :=
  l.insertionSort fun a b => env.order.idxOf (id a) ≤ env.order.idxOf (id b)

theorem Env.walk_perm {α : Type} (env : Env) (id : α → String) (l : List α) : (env.walk id l).Perm l :=
  List.perm_insertionSort ..

/-- The memory of every process, the two files, and what has happened so far: the ids that
were given to backends, and the calls of the counter for each of them. -/
structure Shared (π : Type) where
  memory : π → BackendManagerState := fun _ => {}
  locked : π → Bool := fun _ => false
  registry : SortedMap String (BackendRegistryEntry π) := .empty
  counter : SandboxCounterData := .empty
  issued : List String := []
  confirms : String → ℕ := fun _ => 0
  releases : String → ℕ := fun _ => 0

variable {π : Type} [DecidableEq π]

/-- How a call goes on after an instruction: with further instructions before the rest, or
in place of it. -/
inductive Next (π : Type) where
  | goOn (first : List (Instr π))
  | leave (first : List (Instr π))

/-- The instructions after one is carried out. -/
def Next.todo (rest : List (Instr π)) : Next π → List (Instr π)
  | .goOn first => first ++ rest
  | .leave first => first

variable (state : BackendManagerState) (request : NewBackend) (setup : Setup) (marked : Option String)

/-- `clear_pending_eviction` of the backend that a call has marked. -/
def unmark : List (Instr π) := marked.toList.map (.setPendingEviction · false)

/-- The loop goes on after `try_evict_if_needed`. When the attempts are used up, the mark is
taken back; `reserve_with_eviction` then tries a last time. -/
def RetryLoop.goOn : RetryLoop → List (Instr π)
  | .reserve sandboxKey 0 => unmark marked ++ [.reserve sandboxKey 0 none]
  | .reserve sandboxKey (attempts + 1) => [.reserve sandboxKey (attempts + 1) marked]
  | .checkout _ 0 => unmark marked ++ [.giveUp]
  | .checkout request (attempts + 1) => [.reserveChild request (attempts + 1) marked]

/-- The loop goes on after a place was freed: no mark is needed any more. -/
def RetryLoop.freed (loop : RetryLoop) : List (Instr π) := unmark marked ++ loop.goOn none

/-- Assert the status of a session that has its backend, and release the lock. -/
def reassert (backendId : String) : List (Instr π) :=
  match request.sessionId, request.initialStatus with
  | some sessionId, some initial =>
    if isCountedKind request.config.kind then
      [.updateSessionStatus backendId sessionId initial.status initial.queueDepth, .unlock]
    else [.unlock]
  | _, _ => [.unlock]

/-- `finalize_removal` of a backend. -/
def finalizeRemoval (removed : String × BackendInstanceEntry) : List (Instr π) :=
  if isCountedKind removed.2.config.kind then [.release removed.1 (setup.sandboxKey removed.2.config)]
  else [.delete removed.1]

namespace Shared

variable (s : Shared π)

/-- Replace the memory of a process. -/
def remember (p : π) (state : BackendManagerState) : Shared π :=
    { s with memory := Function.update s.memory p state }

/-- Take or release the lock of a process. -/
def lock (p : π) (held : Bool) : Shared π := { s with locked := Function.update s.locked p held }

def insertBackend (p : π) (request : NewBackend) (instanceId : String) : Shared π :=
  { s.remember p ((s.memory p).bind request.backendId request.sessionId
      { backendInstance :=
          { backendId := request.backendId
            instanceId
            sessionId := request.sessionId.getD request.backendId }
        config := request.config
        workspaceRoot := request.workspaceRoot
        sessionIds := request.sessionId.toList
        dirtyTracker := request.dirtyTracker }) with
    issued := request.backendId :: s.issued }

/-- `cancel_reservation`, if there is one. -/
def cancel (request : NewBackend) (nowMs : ℕ) : Shared π :=
  if isCountedKind request.config.kind then
    { s with counter := s.counter.cancelReservation nowMs request.sandboxKey }
  else s

/-- `SandboxCounter::release` for a backend. -/
def releaseFor (backendId sandboxKey : String) (nowMs : ℕ) : Shared π :=
  { s with
    counter := s.counter.release nowMs sandboxKey
    releases := Function.update s.releases backendId (s.releases backendId + 1) }

end Shared

/-- A session that already has a backend. -/
def isBound : Bool :=
  (request.sessionId.bind state.sessionIndex.get?).isSome

/-- The backend of the session, if it has the same workspace and configuration. -/
def boundBackend? : Option String :=
  (request.sessionId.bind state.sessionIndex.get?).filter fun backendId =>
    (state.backends.get? backendId).any fun entry =>
      entry.workspaceRoot = request.workspaceRoot ∧ entry.config = request.config

/-- An instruction that needs the lock of the manager's state. -/
def Instr.needsLock : Instr π → Bool
  | .leaseBound _ | .create _ | .reserveChild _ _ _ | .insertCheckoutChild _ | .releaseSession _ | .drain
  | .evictOwn _ _ _ _ | .evictMarkedOwn _ _ => true
  | _ => false

/-- What an instruction removes from the memory of its process, and the memory after it. -/
def Instr.remove : Instr π → List (String × BackendInstanceEntry) × BackendManagerState
  | .releaseSession sessionId => ((state.releaseSession sessionId).1.toList, (state.releaseSession sessionId).2)
  | .evictOwn backendId _ _ _ | .evictMarkedOwn backendId _ =>
    ((state.evict backendId).1.toList.map (backendId, ·), (state.evict backendId).2)
  | .drain => (state.backends.entries, {})
  | _ => ([], state)

def Shared.entriesWhere (s : Shared π) (test : BackendRegistryEntry π → Bool) : List (BackendRegistryEntry π) :=
  (s.registry.entries.map Prod.snd).filter test

/-- Carry out an instruction of a call of the process `p`. -/
def exec (p : π) (env : Env) (s : Shared π) (instr : Instr π) : Shared π × Next π :=
  let removal := instr.remove (s.memory p)
  let removed := removal.1.flatMap (finalizeRemoval setup)
  match instr with
  | .leaseBound request =>
    match boundBackend? (s.memory p) request with
    | none => (s, .goOn [])
    | some backendId => (s.lock p true, .leave (reassert request backendId))
  | .reserve sandboxKey attempts marked =>
    let (counter, result) := s.counter.checkAndReserve setup.maxPerKey env.nowMs env.nowMs sandboxKey
    ({ s with counter }, match result, attempts with
      | .ok (), _ => .goOn []
      | .error _, 0 => .leave []
      | .error _, attempts + 1 => .goOn [.countTotal sandboxKey marked (.reserve sandboxKey attempts)])
  | .countTotal sandboxKey marked loop =>
    let (counter, total) := s.counter.getTotalCount env.nowMs sandboxKey
    ({ s with counter },
      .goOn (if total < setup.maxPerKey then loop.freed marked else [.readByKey sandboxKey marked loop]))
  | .readByKey sandboxKey marked loop =>
    let entries := env.walk (·.backendId) (s.entriesWhere (·.sandboxKey = sandboxKey))
    (s, .goOn (if entries.any (·.pendingEviction) then loop.goOn marked
      else [.evictFirst (entries.insertionSort fun a b => a.createdAtMs ≤ b.createdAtMs) marked loop]))
  | .evictFirst [] marked loop => (s, .goOn (loop.goOn marked))
  | .evictFirst (entry :: rest) marked loop =>
    (s, .goOn <|
      if !entry.isEvictable env.nowMs then [.evictFirst rest marked loop]
      else if entry.ownerProcessId = p then [.evictOwn entry.backendId rest marked loop]
      else if entry.isOwnerStale env.nowMs then .reclaim entry :: loop.freed marked
      else .setPendingEviction entry.backendId true :: loop.goOn (some entry.backendId))
  | .evictOwn _ rest marked loop =>
    (s.remember p removal.2,
      .goOn (if removal.1 = [] then [.evictFirst rest marked loop] else removed ++ loop.freed marked))
  | .setPendingEviction backendId pending =>
    ({ s with
        registry := s.registry.modify backendId fun entry => { entry with pendingEviction := pending } },
      .goOn [])
  | .create request =>
    if isBound (s.memory p) request then
      match boundBackend? (s.memory p) request with
      | none => (s.cancel request env.nowMs, .leave [])
      | some backendId => ((s.cancel request env.nowMs).lock p true, .leave (reassert request backendId))
    else match env.built with
      | none => (s.cancel request env.nowMs, .leave [])
      | some instanceId =>
        if isCountedKind request.config.kind then
          ((s.insertBackend p request instanceId).lock p true, .goOn [.confirm request instanceId, .unlock])
        else (s.insertBackend p request instanceId, .goOn [])
  | .reserveChild request attempts marked =>
    match checkoutConflict (s.memory p) request.backendId request.sessionId with
    | .error _ => (s, .leave [])
    | .ok () =>
      let (counter, result) := s.counter.checkAndReserve setup.maxPerKey env.nowMs env.nowMs request.sandboxKey
      ({ s with counter }, match result, attempts with
        | .ok (), _ => .goOn []
        | .error _, 0 => .leave []
        | .error _, attempts + 1 =>
            .goOn [.countTotal (setup.sandboxKey request.config) marked (.checkout request attempts)])
  | .giveUp => (s, .leave [])
  | .insertCheckoutChild request =>
    match env.built, checkoutConflict (s.memory p) request.backendId request.sessionId with
    | some instanceId, .ok () => (s.insertBackend p request instanceId, .goOn [.confirm request instanceId])
    | _, _ => (s.cancel request env.nowMs, .leave [])
  | .confirm request instanceId =>
    ({ s with
        counter := s.counter.confirmCreation setup.maxPerKey env.nowMs request.sandboxKey
        confirms := Function.update s.confirms request.backendId (s.confirms request.backendId + 1) },
      .goOn [.register (.new request p instanceId env.nowMs)])
  | .register entry => ({ s with registry := s.registry.insert entry.backendId entry }, .goOn [])
  | .unlock => (s.lock p false, .goOn [])
  | .releaseSession _ => (s.remember p removal.2, .goOn removed)
  | .drain => (s.remember p removal.2, .goOn ((env.walk Prod.fst removal.1).flatMap (finalizeRemoval setup)))
  | .release backendId sandboxKey =>
    (s.releaseFor backendId sandboxKey env.nowMs, .goOn [.unregister backendId, .delete backendId])
  | .reclaim entry => (s.releaseFor entry.backendId entry.sandboxKey env.nowMs, .goOn [.unregister entry.backendId])
  | .unregister backendId => ({ s with registry := s.registry.erase backendId }, .goOn [])
  | .delete _ => (s, if env.refused then .leave [] else .goOn [])
  | .refreshHeartbeats =>
    ({ s with registry := s.registry.mapValues fun _ entry =>
        if entry.ownerProcessId = p then { entry with ownerHeartbeatMs := env.nowMs } else entry }, .goOn [])
  | .readOwn => (s, .goOn [.evictMarked (env.walk (·.backendId) (s.entriesWhere (·.ownerProcessId = p)))])
  | .evictMarked [] => (s, .goOn [])
  | .evictMarked (entry :: rest) =>
    (s, .goOn <|
      if !entry.pendingEviction then [.evictMarked rest]
      else if !entry.isEvictionSafe env.nowMs then [.setPendingEviction entry.backendId false, .evictMarked rest]
      else [.evictMarkedOwn entry.backendId rest])
  | .evictMarkedOwn _ rest =>
    (s.remember p removal.2, if removal.1 = [] then .leave [] else .goOn (removed ++ [.evictMarked rest]))
  | .updateSessionStatus backendId sessionId status queueDepth =>
    ({ s with
        registry := s.registry.modify backendId (·.updateSessionStatus sessionId status queueDepth) }, .goOn [])

/-- One call of the process `p` goes on, if it does not have to wait for the lock. -/
def act (l : π × Env) (s : Shared π) (todo : List (Instr π)) : Option (Shared π × List (Instr π)) :=
  match todo with
  | [] => none
  | instr :: rest =>
    if instr.needsLock ∧ s.locked l.1 then none
    else some ((exec setup l.1 l.2 s instr).1, (exec setup l.1 l.2 s instr).2.todo rest)

/-- What happens next: a call goes on, or a process dies. -/
inductive Label (ι π : Type) where
  | call (i : ι) (env : Env)
  | die (p : π)

/-- The calls `ι` of the processes `π`. -/
abbrev World (ι π : Type) := Threads ι (Shared π) (List (Instr π))

variable {ι : Type} [DecidableEq ι]

/-- A step of the machine; `process` says whose a call is. -/
def step (setup : Setup) (process : ι → π) (w : World ι π) : Label ι π → Option (World ι π)
  | .call i env => Threads.step (act setup) w (i, (process i, env))
  | .die p => some
    { shared := (w.shared.remember p {}).lock p false
      thread := fun k => if process k = p then [] else w.thread k }

/-- Nothing is made yet; the calls that will be made. -/
def start (setup : Setup) (operations : ι → Operation) : World ι π := ⟨{}, fun i => (operations i).program setup⟩

end XiaoO.Backend.Processes
