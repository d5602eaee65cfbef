import XiaoO.Base.SortedMap
import XiaoO.Base.Threads
import Mathlib.Data.String.Basic

/-!
# Session leases

`gateway/session_lease.rs` keeps one lease for each attached session, so that a session
has one writer at a time. The table is sharded by a hash of the session id, each shard
behind its own mutex. A call reads the wall clock first and then does all its work
in one critical section of the shard, so the reading may be old by the time it is used,
and two calls may use their readings in the other order.

## The model

A call is two instructions, `enter` that reads the clock and `locked` that is the critical
section; threads run any lists of calls, in any interleaving. The reading is an input of
the step, `none` for a clock before the epoch (`ClockSkew`), and nothing relates one
reading to another. The log is for the statements: each finished call with its reading, its
reply and the lease that it found.

## What is proved

Under any interleaving and with positive readings, a lease carries the reading of the last
call that stamped it for its holder, be that an acquire, a heartbeat or a takeover
(`Stamped.step`), and so nobody else gets through as long as that reading is not too old
(`single_writer_of_run`). Counting only acquires and heartbeats is not enough: a client
may hold its lease by a takeover that it made with an earlier reading than that of its last
acquire (`takeover_with_earlier_reading`).
-/

namespace XiaoO.Gateway.Lease

open XiaoO.Base

/-! ### The table -/

def leaseTableShardCount : ℕ := 16

def staleLeaseThresholdMs : ℕ := 45000

structure SessionLease where
  clientId : String
  clientPid : Option UInt32
  clientHostname : Option String
  lastHeartbeatMs : ℕ
  deriving DecidableEq

def SessionLease.isStale (lease : SessionLease) (now thresholdMs : ℕ) : Bool :=
  lease.lastHeartbeatMs = 0 || now - lease.lastHeartbeatMs > thresholdMs

def freshLease (clientId : String) (clientPid : Option UInt32) (clientHostname : Option String) (now : ℕ) :
    SessionLease :=
  { clientId, clientPid, clientHostname, lastHeartbeatMs := now }

/-- `SessionLeaseTable`: its shards. -/
abbrev SessionLeaseTable := Fin leaseTableShardCount → SortedMap String SessionLease

namespace SessionLeaseTable

/-- `SessionLeaseTable::default`. -/
def new : SessionLeaseTable := fun _ => .empty

variable (hash : String → ℕ) (table : SessionLeaseTable) (sessionId : String)

/-- `shard_for`, with the hash of the session id. -/
def shardFor : Fin leaseTableShardCount := ⟨hash sessionId % leaseTableShardCount, Nat.mod_lt _ (by decide)⟩

/-- The lease of a session, in its shard. -/
def get? : Option SessionLease := (table (shardFor hash sessionId)).get? sessionId

def insert (lease : SessionLease) : SessionLeaseTable :=
  Function.update table (shardFor hash sessionId) ((table (shardFor hash sessionId)).insert sessionId lease)

def erase : SessionLeaseTable :=
  Function.update table (shardFor hash sessionId) ((table (shardFor hash sessionId)).erase sessionId)

variable {hash table sessionId}

/-- Sharding does not show: the table is one map. -/
theorem get?_update {m : SortedMap String SessionLease} {o : Option SessionLease} (hm : ∀ id, m.get? id =
      if id = sessionId then o else (table (shardFor hash sessionId)).get? id) (id : String) :
    get? hash (Function.update table (shardFor hash sessionId) m) id =
      if id = sessionId then o else get? hash table id := by
  rw [get?, Function.update_apply]
  split_ifs with hs h h
  · rw [hm, if_pos h]
  · rw [hm, if_neg h, ← hs, get?]
  · exact absurd (congrArg (shardFor hash) h) hs
  · rfl

theorem get?_insert {id : String} {l : SessionLease} :
    get? hash (insert hash table sessionId l) id = if id = sessionId then some l else get? hash table id :=
  get?_update (fun _ => SortedMap.get?_insert ..) id

theorem get?_erase {id : String} :
    get? hash (erase hash table sessionId) id = if id = sessionId then none else get? hash table id :=
  get?_update (fun _ => SortedMap.get?_erase ..) id

end SessionLeaseTable

/-! ### The calls -/

/-- The fields of a `Busy` answer. -/
structure Holder where
  holderClientId : String
  holderHostname : Option String
  holderPid : Option UInt32
  lastHeartbeatMs : ℕ
  stale : Bool
  deriving DecidableEq

/-- The holder of a lease, as a `Busy` answer names it. -/
def SessionLease.holder (lease : SessionLease) (stale : Bool) : Holder where
  holderClientId := lease.clientId
  holderHostname := lease.clientHostname
  holderPid := lease.clientPid
  lastHeartbeatMs := lease.lastHeartbeatMs
  stale := stale

inductive LeaseAcquireOutcome where
  | acquired
  | busy (holder : Holder)
  | clockSkew
  deriving DecidableEq

inductive LeaseCheckFailure where
  | busy (holder : Holder)
  | clockSkew
  deriving DecidableEq

/-- `Result<(), LeaseCheckFailure>`. -/
inductive LeaseCheck where
  | ok
  | err (failure : LeaseCheckFailure)
  deriving DecidableEq

section Calls

variable (hash : String → ℕ) (table : SessionLeaseTable) (reading : Option ℕ) (sessionId : String)
  (clientId : String)

/-- `SessionLeaseTable::acquire`, with its reading of the clock. -/
def acquire (clientPid : Option UInt32) (clientHostname : Option String) : LeaseAcquireOutcome × SessionLeaseTable :=
  match reading with
  | none => (.clockSkew, table)
  | some now =>
    match table.get? hash sessionId with
    | some lease =>
      if lease.clientId = clientId then
        -- a missing pid or hostname does not erase the recorded one
        (.acquired, table.insert hash sessionId { lease with
          lastHeartbeatMs := now
          clientPid := clientPid.or lease.clientPid
          clientHostname := clientHostname.or lease.clientHostname })
      else if lease.isStale now staleLeaseThresholdMs then
        (.acquired, table.insert hash sessionId (freshLease clientId clientPid clientHostname now))
      else (.busy (lease.holder false), table)
    | none => (.acquired, table.insert hash sessionId (freshLease clientId clientPid clientHostname now))

def heartbeat (clientPid : Option UInt32) (clientHostname : Option String) : LeaseCheck × SessionLeaseTable :=
  match reading with
  | none => (.err .clockSkew, table)
  | some now =>
    match table.get? hash sessionId with
    | some lease =>
      if lease.clientId = clientId then
        (.ok, table.insert hash sessionId { lease with lastHeartbeatMs := now })
      else (.err (.busy (lease.holder (lease.isStale now staleLeaseThresholdMs))), table)
    | none => (.ok, table.insert hash sessionId (freshLease clientId clientPid clientHostname now))

def detach : SessionLeaseTable :=
  match table.get? hash sessionId with
  | some lease => if lease.clientId = clientId then table.erase hash sessionId else table
  | none => table

def checkHolder (clientId : Option String) : LeaseCheck :=
  match reading with
  | none => .err .clockSkew
  | some now =>
    match table.get? hash sessionId with
    | none => .ok
    | some lease =>
      if clientId = some lease.clientId ∨ lease.isStale now staleLeaseThresholdMs then .ok
      else .err (.busy (lease.holder false))

def checkOrTakeoverHolder (clientId : Option String) : LeaseCheck × SessionLeaseTable :=
  match reading with
  | none => (.err .clockSkew, table)
  | some now =>
    match table.get? hash sessionId with
    | none => (.ok, table)
    | some lease =>
      if clientId = some lease.clientId then (.ok, table)
      else if lease.isStale now staleLeaseThresholdMs then
        match clientId.filter (· ≠ "") with
        | some clientId => (.ok, table.insert hash sessionId (freshLease clientId none none now))
        | none => (.ok, table)
      else (.err (.busy (lease.holder false)), table)

end Calls

/-- A call of the table. -/
inductive Request where
  | acquire (sessionId clientId : String) (clientPid : Option UInt32) (clientHostname : Option String)
  | heartbeat (sessionId clientId : String) (clientPid : Option UInt32) (clientHostname : Option String)
  | detach (sessionId clientId : String)
  | checkHolder (sessionId : String) (clientId : Option String)
  | checkOrTakeoverHolder (sessionId : String) (clientId : Option String)
  | remove (sessionId : String)

open Request

namespace Request

def sessionId : Request → String
  | acquire sessionId .. | heartbeat sessionId .. | detach sessionId _ | checkHolder sessionId _
  | checkOrTakeoverHolder sessionId _ | remove sessionId => sessionId

/-- The client that makes a call; an anonymous caller has none, nor has the gateway that removes a
lease. -/
def client? : Request → Option String
  | acquire _ clientId .. | heartbeat _ clientId .. | detach _ clientId => some clientId
  | checkHolder _ clientId | checkOrTakeoverHolder _ clientId => clientId
  | remove _ => none

/-- Whether a call reads the clock: the calls that give a lease up do not. -/
def readsClock : Request → Bool
  | detach .. | remove _ => false
  | _ => true

end Request

/-- What a call answers. -/
inductive Reply where
  | outcome (outcome : LeaseAcquireOutcome)
  | check (check : LeaseCheck)
  | done
  deriving DecidableEq

/-- The call was let through. -/
def Reply.Succeeds (reply : Reply) : Prop := reply = .outcome .acquired ∨ reply = .check .ok
  deriving Decidable

/-- The call was refused, with `Busy` or `ClockSkew`. -/
def Reply.Refused (reply : Reply) : Prop :=
  (∃ outcome, reply = .outcome outcome ∧ outcome ≠ .acquired) ∨ ∃ failure, reply = .check (.err failure)

/-- A whole call, with its reading of the clock. -/
def Request.perform (hash : String → ℕ) (table : SessionLeaseTable) (reading : Option ℕ) :
    Request → Reply × SessionLeaseTable
  | .acquire sessionId clientId clientPid clientHostname =>
    (Lease.acquire hash table reading sessionId clientId clientPid clientHostname).map .outcome id
  | .heartbeat sessionId clientId clientPid clientHostname =>
    (Lease.heartbeat hash table reading sessionId clientId clientPid clientHostname).map .check id
  | .detach sessionId clientId => (.done, Lease.detach hash table sessionId clientId)
  | .checkHolder sessionId clientId => (.check (Lease.checkHolder hash table reading sessionId clientId), table)
  | .checkOrTakeoverHolder sessionId clientId =>
    (Lease.checkOrTakeoverHolder hash table reading sessionId clientId).map .check id
  | .remove sessionId => (.done, table.erase hash sessionId)

/-! ### The log -/

/-- A finished call. -/
structure Event where
  request : Request
  reading : Option ℕ
  reply : Reply
  found : Option SessionLease

/-- A reading that a client put, or may have put, on the lease of a session. -/
structure Stamp where
  sessionId : String
  clientId : String
  now : ℕ

variable (event : Event)

/-- The reading of a successful acquire or heartbeat. -/
def Event.renewal? : Option Stamp :=
  match event.request, event.reading, event.reply with
  | .acquire sessionId clientId .., some now, .outcome .acquired => some { sessionId, clientId, now }
  | .heartbeat sessionId clientId .., some now, .check .ok => some { sessionId, clientId, now }
  | _, _, _ => none

/-- The reading of a takeover: the check succeeds for a client with an id that found the lease
of somebody else. -/
def Event.takeover? : Option Stamp :=
  match event.request, event.reading, event.reply, event.found with
  | .checkOrTakeoverHolder sessionId (some clientId), some now, .check .ok, some lease =>
    if clientId ≠ "" ∧ clientId ≠ lease.clientId then some { sessionId, clientId, now } else none
  | _, _, _, _ => none

/-- The reading of a successful acquire or heartbeat, or of a takeover. -/
def Event.stamp? : Option Stamp := event.renewal?.or event.takeover?

/-- The last reading of a client on a session, in a log whose last call is first. -/
def lastReading (stamp? : Event → Option Stamp) (log : List Event) (sessionId clientId : String) : Option ℕ :=
  ((log.filterMap stamp?).find? fun stamp => stamp.sessionId = sessionId ∧ stamp.clientId = clientId).map Stamp.now

/-! ### The machine -/

/-- The shared state: the table, and the log of the calls in the order of their critical
sections. -/
structure Shared where
  table : SessionLeaseTable
  log : List Event

/-- The two halves of a call. -/
inductive Instr where
  | enter (request : Request)
  | locked (request : Request) (reading : Option ℕ)

variable {ι : Type} {hash : String → ℕ}

/-- A thread reads the clock, or does the work of its call in the critical section. -/
def act (hash : String → ℕ) (reading : Option ℕ) (s : Shared) : List Instr → Option (Shared × List Instr)
  | [] => none
  | .enter request :: rest => some (s, .locked request reading :: rest)
  | .locked request reading :: rest =>
    let (reply, table) := request.perform hash s.table reading
    some ({ table, log := { request, reading, reply, found := s.table.get? hash request.sessionId } :: s.log }, rest)

/-- The gateway's callers over the table. -/
abbrev World (ι : Type) := Threads ι Shared (List Instr)

def step [DecidableEq ι] (hash : String → ℕ) : World ι → ι × Option ℕ → Option (World ι) := Threads.step (act hash)

/-- An empty table, and each thread with its calls. -/
def start (requests : ι → List Request) : World ι where
  shared := { table := .new, log := [] }
  thread i := (requests i).map .enter

/-- The clock reads a positive time, or is before the epoch. -/
def Positive (_ : World ι) (label : ι × Option ℕ) : Prop := label.2 ≠ some 0
  deriving Decidable

/-- **One writer**: no call of another client is let through as long as its reading is at most the
threshold above the holder's last one, and a call that is refused changes nothing. -/
structure SingleWriter (hash : String → ℕ) (stamp? : Event → Option Stamp) (s : Shared) : Prop where
  excludes : ∀ (request : Request) (now last : ℕ) (lease : SessionLease),
    s.table.get? hash request.sessionId = some lease →
    lastReading stamp? s.log request.sessionId lease.clientId = some last →
    request.readsClock → request.client? ≠ some lease.clientId → now ≤ last + staleLeaseThresholdMs →
    ¬(request.perform hash s.table (some now)).1.Succeeds
  refused : ∀ (request : Request) (reading : Option ℕ),
    (request.perform hash s.table reading).1.Refused → (request.perform hash s.table reading).2 = s.table

/-! ### What a call does -/

/-- **What a call does to the table**: nothing; it puts its reading on the lease of its session; or
it drops the lease. -/
inductive Effect (hash : String → ℕ) (table : SessionLeaseTable) (request : Request) (reading : Option ℕ) :
    Reply → SessionLeaseTable → Prop where
  | kept {reply : Reply}
      (unstamped : Event.stamp? ⟨request, reading, reply, table.get? hash request.sessionId⟩ = none) :
      Effect hash table request reading reply table
  | stamped {reply : Reply} (lease : SessionLease) (succeeds : reply.Succeeds)
      (read : reading = some lease.lastHeartbeatMs)
      (stamp : Event.stamp? ⟨request, reading, reply, table.get? hash request.sessionId⟩ =
        some ⟨request.sessionId, lease.clientId, lease.lastHeartbeatMs⟩) :
      Effect hash table request reading reply (table.insert hash request.sessionId lease)
  | freed (unstamped : Event.stamp? ⟨request, reading, .done, table.get? hash request.sessionId⟩ = none) :
      Effect hash table request reading .done (table.erase hash request.sessionId)

theorem perform_effect (hash : String → ℕ) (t : SessionLeaseTable) (r : Request) (rd : Option ℕ) :
    Effect hash t r rd (r.perform hash t rd).1 (r.perform hash t rd).2 := by
  cases r with
  | acquire =>
    dsimp only [perform, acquire, Prod.map]
    split
    · exact .kept rfl
    · next n =>
      split
      · next lease hl =>
        split_ifs with ho hs
        · exact .stamped _ (.inl rfl) rfl (by rw [ho]; rfl)
        · exact .stamped _ (.inl rfl) rfl rfl
        · exact .kept rfl
      · exact .stamped _ (.inl rfl) rfl rfl
  | heartbeat =>
    dsimp only [perform, heartbeat, Prod.map]
    split
    · exact .kept rfl
    · next n =>
      split
      · next lease hl =>
        split_ifs with ho
        · exact .stamped _ (.inr rfl) rfl (by rw [ho]; rfl)
        · exact .kept rfl
      · exact .stamped _ (.inr rfl) rfl rfl
  | detach =>
    dsimp only [perform, detach]
    split
    · split_ifs
      · exact .freed rfl
      · exact .kept rfl
    · exact .kept rfl
  | checkHolder => exact .kept rfl
  | checkOrTakeoverHolder i c =>
    dsimp only [perform, checkOrTakeoverHolder, Prod.map]
    split
    · cases c <;> exact .kept rfl
    · next n =>
      split
      · next hfr => exact .kept (by cases c <;> simp [Event.stamp?, Event.renewal?, Event.takeover?,
          sessionId, hfr])
      · next lease hl =>
        have hf : t.get? hash (Request.checkOrTakeoverHolder i c).sessionId = some lease := hl
        split_ifs with ho hs
        · exact .kept (by rw [hf, ho]; simp [Event.stamp?, Event.renewal?, Event.takeover?])
        · split
          · next c' hid =>
            obtain ⟨rfl, hne⟩ := Option.filter_eq_some_iff.mp hid
            refine .stamped (freshLease c' none none n) (.inr rfl) rfl ?_
            rw [hf]
            have hot : c' ≠ lease.clientId := fun heq => ho (congrArg some heq)
            simp [Event.stamp?, Event.renewal?, Event.takeover?, hot, freshLease, sessionId,
              of_decide_eq_true hne]
          · next ha =>
            refine .kept ?_
            cases c with
            | none => rfl
            | some c' =>
              have he : c' = "" := by simpa using ha
              rw [hf, he]
              simp [Event.stamp?, Event.renewal?, Event.takeover?]
        · cases c <;> exact .kept rfl
  | remove => exact .freed rfl

theorem Reply.Succeeds.not_refused {reply : Reply} (h : reply.Succeeds) : ¬reply.Refused := by
  rcases h with rfl | rfl
  · rintro (⟨outcome, heq, hne⟩ | ⟨failure, heq⟩)
    · exact hne (Reply.outcome.inj heq).symm
    · cases heq
  · rintro (⟨outcome, heq, -⟩ | ⟨failure, heq⟩) <;> cases heq

variable {request : Request} {table : SessionLeaseTable} {w : World ι}

theorem perform_refused {reading : Option ℕ}
    (h : (request.perform hash table reading).1.Refused) : (request.perform hash table reading).2 = table := by
  generalize hr : (request.perform hash table reading).1 = reply at h
  generalize ht : (request.perform hash table reading).2 = table'
  have he := perform_effect hash table request reading
  rw [hr, ht] at he
  cases he with
  | kept => rfl
  | stamped _ hs => exact absurd h hs.not_refused
  | freed => rcases h with ⟨outcome, heq, -⟩ | ⟨failure, heq⟩ <;> cases heq

/-- A lease that is not stale lets nobody through but its holder. -/
theorem perform_of_live {n : ℕ} {l : SessionLease}
    (hl : table.get? hash request.sessionId = some l) (hr : request.readsClock)
    (ho : request.client? ≠ some l.clientId) (hlv : l.isStale n staleLeaseThresholdMs = false) :
    ¬(request.perform hash table (some n)).1.Succeeds := by
  cases request with
  | acquire sessionId clientId =>
    have hne : l.clientId ≠ clientId := fun heq => ho (congrArg some heq.symm)
    change table.get? hash sessionId = some l at hl
    simp [perform, acquire, hl, hne, hlv, Reply.Succeeds]
  | heartbeat sessionId clientId =>
    have hne : l.clientId ≠ clientId := fun heq => ho (congrArg some heq.symm)
    change table.get? hash sessionId = some l at hl
    simp [perform, heartbeat, hl, hne, Reply.Succeeds]
  | detach | remove => cases hr
  | checkHolder sessionId clientId =>
    change table.get? hash sessionId = some l at hl
    change clientId ≠ some l.clientId at ho
    simp [perform, checkHolder, hl, ho, hlv, Reply.Succeeds]
  | checkOrTakeoverHolder sessionId clientId =>
    change table.get? hash sessionId = some l at hl
    change clientId ≠ some l.clientId at ho
    simp [perform, checkOrTakeoverHolder, hl, ho, hlv, Reply.Succeeds]

/-! ### Leases carry their holder's last reading -/

variable {stamp? : Event → Option Stamp} {e : Event} {log : List Event} {sessionId clientId : String}

theorem lastReading_cons_none (h : stamp? e = none) :
    lastReading stamp? (e :: log) sessionId clientId = lastReading stamp? log sessionId clientId := by
  rw [lastReading, List.filterMap_cons_none h, lastReading]

theorem lastReading_cons_some {stamp : Stamp} (h : stamp? e = some stamp) :
    lastReading stamp? (e :: log) sessionId clientId =
      if stamp.sessionId = sessionId ∧ stamp.clientId = clientId then some stamp.now
      else lastReading stamp? log sessionId clientId := by
  rw [lastReading, List.filterMap_cons_some h, List.find?_cons]
  split_ifs with hs
  · rw [decide_eq_true hs]
    rfl
  · rw [decide_eq_false hs]
    rfl

/-- **The invariant**: every lease carries the last reading of its holder, and the readings are
positive, those that are still to be used included. -/
structure Stamped (hash : String → ℕ) (w : World ι) : Prop where
  last : ∀ {sessionId lease}, w.shared.table.get? hash sessionId = some lease →
    lastReading Event.stamp? w.shared.log sessionId lease.clientId = some lease.lastHeartbeatMs
  positive : ∀ {sessionId lease}, w.shared.table.get? hash sessionId = some lease → 0 < lease.lastHeartbeatMs
  readings : ∀ {i request reading}, Instr.locked request reading ∈ w.thread i → reading ≠ some 0

theorem stamped_start (rs : ι → List Request) : Stamped hash (start rs) where
  last h := by cases h
  positive h := by cases h
  readings h := by simp [start] at h

theorem Stamped.locked (h : Stamped hash w) {r : Option ℕ} (hr : r ≠ some 0) {rp : Reply}
    (he : Effect hash w.shared.table request r rp table) {lease : SessionLease}
    (hl : table.get? hash sessionId = some lease) : lastReading Event.stamp?
        (⟨request, r, rp, w.shared.table.get? hash request.sessionId⟩ :: w.shared.log)
        sessionId lease.clientId = some lease.lastHeartbeatMs ∧ 0 < lease.lastHeartbeatMs := by
  cases he with
  | kept hu =>
    rw [lastReading_cons_none hu]
    exact ⟨h.last hl, h.positive hl⟩
  | stamped n _ hrd hst =>
    rw [lastReading_cons_some hst]
    rw [SessionLeaseTable.get?_insert] at hl
    split_ifs at hl with hs
    · obtain rfl : n = lease := Option.some.inj hl
      refine ⟨by simp [hs], Nat.pos_of_ne_zero fun hz => hr ?_⟩
      rw [hrd, hz]
    · refine ⟨?_, h.positive hl⟩
      rw [if_neg fun heq => hs heq.1.symm]
      exact h.last hl
  | freed hu =>
    rw [lastReading_cons_none hu]
    rw [SessionLeaseTable.get?_erase] at hl
    split_ifs at hl
    exact ⟨h.last hl, h.positive hl⟩

/-- **The step lemma.** -/
theorem Stamped.step [DecidableEq ι] {w' : World ι} {l : ι × Option ℕ} (h : Stamped hash w) (hp : Positive w l)
    (hs : step hash w l = some w') : Stamped hash w' := by
  obtain ⟨s, rs, ha, rfl⟩ := Threads.step_eq_some.mp hs
  generalize ht : w.thread l.1 = instrs at ha
  -- what another thread still has to do is what it had to do before
  have hr : ∀ {i request r}, Instr.locked request r ∈ (w.put l.1 s rs).thread i →
      (∀ {request r}, Instr.locked request r ∈ rs → r ≠ some 0) → r ≠ some 0 := by
    intro i request r hm hrs
    rcases eq_or_ne i l.1 with rfl | hi
    · rw [Threads.put_thread_self] at hm
      exact hrs hm
    · rw [Threads.put_thread_of_ne _ _ _ hi] at hm
      exact h.readings hm
  match instrs, ha with
  | .enter request :: rest', ha =>
    cases ha
    refine ⟨h.last, h.positive, fun hm => hr hm fun hm => ?_⟩
    rcases List.mem_cons.mp hm with heq | hm
    · cases heq
      exact hp
    · exact h.readings (ht ▸ List.mem_cons_of_mem _ hm)
  | .locked request r :: rest', ha =>
    cases ha
    have he := perform_effect hash w.shared.table request r
    have hrd : r ≠ some 0 := h.readings (ht ▸ List.mem_cons_self)
    refine ⟨fun hl => (h.locked hrd he hl).1, fun hl => (h.locked hrd he hl).2, fun hm => hr hm fun hm => ?_⟩
    exact h.readings (ht ▸ List.mem_cons_of_mem _ hm)

/-- A holder whose last reading is not too old excludes everybody else. -/
theorem Stamped.singleWriter (h : Stamped hash w) : SingleWriter hash Event.stamp? w.shared where
  excludes request now last lease hl hls hr ho hle := by
    obtain rfl : lease.lastHeartbeatMs = last := Option.some.inj ((h.last hl).symm.trans hls)
    refine perform_of_live hl hr ho ?_
    have hp := h.positive hl
    have hz : lease.lastHeartbeatMs ≠ 0 := by omega
    have hlv : ¬now - lease.lastHeartbeatMs > staleLeaseThresholdMs := by omega
    simp [SessionLease.isStale, hz, hlv]
  refused _ _ := perform_refused

/-- **One session, one writer.** In every run with positive readings of the clock, in every state
reached: while a client holds the lease of a session and the reading of its last acquire, heartbeat
or takeover is at most the threshold below that of another caller, the other call is not let
through; and a call that is refused leaves the table as it is. -/
theorem single_writer_of_run [DecidableEq ι] {requests : ι → List Request} {w : World ι}
    (hrun : RunUnder (Lease.step hash) Positive (start requests) w) : SingleWriter hash Event.stamp? w.shared :=
  (hrun.invariant (I := Stamped hash) (stamped_start requests) fun h hp hs =>
    h.step hp hs).singleWriter

/-! ### Runs -/

/-- Three clients of one session: the first is taken over, and takes over in its turn. -/
def threeClients : Fin 3 → List Request
  | 0 => [.acquire "s" "a" none none, .checkOrTakeoverHolder "s" (some "a")]
  | 1 => [.acquire "s" "b" none none, .heartbeat "s" "b" none none]
  | 2 => [.acquire "s" "c" none none]

/-- A heartbeat keeps another client out that would have got the lease of the acquire before it. -/
theorem single_writer_of_run_heartbeat : ∃ w, RunUnder (Lease.step fun _ => 0) Positive (start threeClients) w ∧
      lastReading Event.stamp? w.shared.log "s" "b" = some 100000 ∧
      (perform (fun _ => 0) w.shared.table (some 145000) (.acquire "s" "c" none none)).1 =
        .outcome (.busy ⟨"b", none, none, 100000, false⟩) ∧
      SingleWriter (fun _ => 0) Event.stamp? w.shared := by
  obtain ⟨w, hr, hl, hb⟩ := exists_run_of_exec (Lease.step fun _ => 0) Positive (start threeClients)
    (fun w => lastReading Event.stamp? w.shared.log "s" "b" = some 100000 ∧
      (perform (fun _ => 0) w.shared.table (some 145000) (.acquire "s" "c" none none)).1 =
        .outcome (.busy ⟨"b", none, none, 100000, false⟩))
    [(1, some 50000), (1, none), (1, some 100000), (1, none)] (by decide)
  exact ⟨w, hr, hl, hb, single_writer_of_run hr⟩

/-- **A takeover with an earlier reading.** The first client acquires at 400000 and is taken over by
the second, whose heartbeat reads 1000, as the clock was set back. The first takes over again at
46002. A third client at 100000 is let through, although the reading of the first client's last
acquire is far above its own. -/
theorem takeover_with_earlier_reading : ∃ w, RunUnder (Lease.step fun _ => 0) Positive (start threeClients) w ∧
      ¬SingleWriter (fun _ => 0) Event.renewal? w.shared := by
  obtain ⟨w, hr, hl, hls, hs⟩ := exists_run_of_exec (Lease.step fun _ => 0) Positive
    (start threeClients)
    (fun w => w.shared.table.get? (fun _ => 0) "s" = some (freshLease "a" none none 46002) ∧
      lastReading Event.renewal? w.shared.log "s" "a" = some 400000 ∧
      (perform (fun _ => 0) w.shared.table (some 100000) (.acquire "s" "c" none none)).1.Succeeds)
    [(0, some 400000), (0, none), (1, some 500000), (1, none), (1, some 1000), (1, none),
      (0, some 46002), (0, none)] (by decide)
  refine ⟨w, hr, fun h => ?_⟩
  exact h.excludes (.acquire "s" "c" none none) 100000 400000 _ hl hls rfl (by decide) (by decide) hs

end XiaoO.Gateway.Lease
