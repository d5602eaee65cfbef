import XiaoO.Backend.Accounts

/-!
# The entries of the registry

The registry (`backend_registry.rs`) says of every counted backend which sessions it has
and whether they are busy. A call writes an entry when it has made a backend, and the
status of a session whenever it changes; evictions go by what is written there.

## What is proved

Where every entry comes from (`Written`): it was there with these statuses, it was
registered, or a status was updated. An instruction makes a backend, confirms one, or makes
nothing (`exec_change`). So in every run, in which new backends have new ids and the
heartbeats of the owners are fresh,

* a session that is bound to a backend has a status in every entry of that backend, in the
  registry or still to be registered,
* a backend that is not counted has no entry (`Sane.turn`),

and a session that is busy stays so until it is set to idle (`Active.turn`).
-/

namespace XiaoO.Backend.Processes

open XiaoO.Base List Function SortedMap Option

variable {ι π : Type}

/-! ### Sessions and their backends -/

/-- A backend that a session has for a turn. -/
structure Lease where
  backendId : String
  sessionId : String
  deriving DecidableEq

variable (lease : Lease)

/-- A write to the registry that sets the session of a lease to idle with an empty queue. -/
def Instr.idles : Instr π → Bool
  | .updateSessionStatus backendId sessionId status queueDepth =>
    backendId = lease.backendId ∧ sessionId = lease.sessionId ∧ status = "idle" ∧ queueDepth = 0
  | .register entry =>
    entry.backendId = lease.backendId ∧ entry.sessionStatuses.get? lease.sessionId = some ⟨"idle", 0⟩
  | _ => false

/-- The entry of the registry that a loop of evictions looks at. -/
def Instr.judges? : Instr π → Option (BackendRegistryEntry π)
  | .evictFirst (entry :: _) _ _ | .evictMarked (entry :: _) => some entry
  | _ => none

/-! ### What the calls are still to register -/

def NewBackend.sessionStatuses (request : NewBackend) : SortedMap String SessionStatusSnapshot :=
  (BackendRegistryEntry.new request () "" 0).sessionStatuses

/-- The backend that an instruction registers, now or later, with the statuses of its sessions. -/
@[simp] def Instr.lists? : Instr π → Option (String × SortedMap String SessionStatusSnapshot)
  | .confirm request _ => some (request.backendId, request.sessionStatuses)
  | .register entry => some (entry.backendId, entry.sessionStatuses)
  | _ => none

/-- Every entry of a backend, in the registry or still to be registered, has statuses with `Q`. -/
structure Listed (b : String) (Q : SortedMap String SessionStatusSnapshot → Prop) (w : World ι π) : Prop where
  pending : ∀ k, ∀ y ∈ w.thread k, ∀ statuses, y.lists? = some (b, statuses) → Q statuses
  entry : ∀ entry, w.shared.registry.get? b = some entry → Q entry.sessionStatuses

/-- The session of a lease has a status in every entry of the backend. -/
structure Kept (w : World ι π) : Prop
    extends Listed lease.backendId (fun statuses => (statuses.get? lease.sessionId).isSome) w where
  issued : lease.backendId ∈ w.shared.issued

/-- The backend has no entry, and is not about to get one. -/
abbrev Unlisted (b : String) : World ι π → Prop := Listed b fun _ => False

/-- The session has a status that is not idle. -/
def Busy (sessionId : String) (statuses : SortedMap String SessionStatusSnapshot) : Prop :=
  ∃ snapshot, statuses.get? sessionId = some snapshot ∧ snapshot ≠ ⟨"idle", 0⟩

/-- The registry does not have the session of a lease as idle. -/
def Active (s : Shared π) : Prop :=
  ∀ entry, s.registry.get? lease.backendId = some entry → Busy lease.sessionId entry.sessionStatuses

theorem Unlisted.active {w : World ι π} {l : Lease} (h : Unlisted l.backendId w) : Active l w.shared :=
  fun e he => (h.entry e he).elim

theorem Active.not_isAllSessionsIdle {l : Lease} {s : Shared π} (h : Active l s) :
    ¬ (s.registry.get? l.backendId).any (·.isAllSessionsIdle) := by
  intro ha
  obtain ⟨e, he, hi⟩ := (any_eq_true _ _).mp ha
  obtain ⟨sn, hs, hb⟩ := h e he
  have hm := all_eq_true.mp hi _ (mem_entries.mpr hs)
  obtain ⟨hst, hd⟩ := of_decide_eq_true hm
  exact hb (by rw [← hst, ← hd])

/-! ### Instructions that occur -/

/-- A checkout makes a counted backend. -/
def RetryLoop.Sound : RetryLoop → Prop
  | .reserve _ _ => True
  | .checkout request _ => isCountedKind request.config.kind

/-- With fresh heartbeats nothing is reclaimed; a checkout makes a counted backend. -/
@[simp] def Instr.Sound : Instr π → Prop
  | .reclaim _ => False
  | .reserveChild request _ _ | .insertCheckoutChild request => isCountedKind request.config.kind
  | .countTotal _ _ loop | .readByKey _ _ loop | .evictFirst _ _ loop | .evictOwn _ _ _ loop => loop.Sound
  | _ => True

/-- An instruction that occurs, and registers nothing. -/
@[simp] def Instr.Plain (y : Instr π) : Prop := y.Sound ∧ y.lists? = none

theorem plain_unmark (m : Option String) : ∀ y ∈ (unmark m : List (Instr π)), y.Plain := by
  simp [unmark]

theorem RetryLoop.Sound.plain_goOn {l : RetryLoop} (h : l.Sound) (m : Option String) :
    ∀ y ∈ (l.goOn m : List (Instr π)), y.Plain := by
  rcases l with ⟨_, _ | _⟩ | ⟨r, _ | _⟩
  · exact forall_mem_append.mpr ⟨plain_unmark m, by simp⟩
  · simp [RetryLoop.goOn]
  · exact forall_mem_append.mpr ⟨plain_unmark m, by simp⟩
  · have hk : isCountedKind r.config.kind := h
    simp [RetryLoop.goOn, hk]

theorem RetryLoop.Sound.plain_freed {l : RetryLoop} (h : l.Sound) (m : Option String) :
    ∀ y ∈ (l.freed m : List (Instr π)), y.Plain :=
  forall_mem_append.mpr ⟨plain_unmark m, h.plain_goOn none⟩

theorem plain_reassert (r : NewBackend) (b : String) : ∀ y ∈ (reassert r b : List (Instr π)), y.Plain := by
  rw [reassert]
  split
  · split_ifs <;> simp
  · simp

theorem plain_finalizeRemoval (su : Setup) (r : List (String × BackendInstanceEntry)) :
    ∀ y ∈ (r.flatMap (finalizeRemoval su) : List (Instr π)), y.Plain := by
  intro y hy
  obtain ⟨e, -, he⟩ := mem_flatMap.mp hy
  rw [finalizeRemoval] at he
  split_ifs at he <;> simp_all [Instr.Plain, Instr.Sound, Instr.lists?]

/-! ### What an instruction does to the entries -/

/-- Where an entry of the registry after an instruction comes from. -/
inductive Written (s : Shared π) (x : Instr π) (b : String) (entry : BackendRegistryEntry π) : Prop where
  | kept (old : BackendRegistryEntry π) (hold : s.registry.get? b = some old)
      (hstatuses : entry.sessionStatuses = old.sessionStatuses)
  | registered (hx : x = .register entry) (hb : entry.backendId = b)
  | updated (old : BackendRegistryEntry π) (sessionId status : String) (queueDepth : ℕ)
      (hold : s.registry.get? b = some old) (hx : x = .updateSessionStatus b sessionId status queueDepth)
      (hstatuses : entry.sessionStatuses = old.sessionStatuses.insert sessionId ⟨status, queueDepth⟩)

/-- What an instruction of the process `p` does to the backends in memory, to the bindings of
sessions and to the registry, and what the call is to register after it. -/
inductive Change [DecidableEq π] (p : π) (env : Env) (s : Shared π) (x : Instr π) (t : Shared π)
    (first : List (Instr π)) : Prop where
  /-- Nothing is made. -/
  | other (hissued : t.issued = s.issued)
      (hkind : ∀ q b kind, kindIn (t.memory q) b = some kind → kindIn (s.memory q) b = some kind)
      (hbound : ∀ q session b, (t.memory q).sessionIndex.get? session = some b →
        (s.memory q).sessionIndex.get? session = some b)
      (hentry : ∀ b entry, t.registry.get? b = some entry → Written s x b entry) (hfirst : ∀ y ∈ first, y.Plain)
  | made (request : NewBackend) (instanceId : String) (hx : x.makes? = some request.backendId)
      (hmemory : t.memory = (s.insertBackend p request instanceId).memory)
      (hissued : t.issued = request.backendId :: s.issued) (hregistry : t.registry = s.registry)
      (hfirst : first = [] ∨ isCountedKind request.config.kind ∧
        ∃ rest, first = .confirm request instanceId :: rest ∧ ∀ y ∈ rest, y.Plain)
  | confirmed (request : NewBackend) (instanceId : String) (hx : x = .confirm request instanceId)
      (hmemory : t.memory = s.memory) (hissued : t.issued = s.issued) (hregistry : t.registry = s.registry)
      (hfirst : first = [.register (.new request p instanceId env.nowMs)])

/-- What is removed from memory takes bindings with it, and makes none. -/
theorem sessionIndex_remove (x : Instr π) (st : BackendManagerState) {s b : String}
    (h : (x.remove st).2.sessionIndex.get? s = some b) : st.sessionIndex.get? s = some b := by
  have hev : ∀ bi, (st.evict bi).2.sessionIndex.get? s = some b → st.sessionIndex.get? s = some b := by
    intro bi h
    rw [BackendManagerState.evict] at h
    split at h
    · exact h
    · rw [get?_foldl_erase] at h
      split_ifs at h
      exact h
  have he : ∀ i, (st.sessionIndex.erase i).get? s = some b → st.sessionIndex.get? s = some b := by
    intro i h
    rw [get?_erase] at h
    split_ifs at h
    exact h
  cases x with
  | evictOwn bi | evictMarkedOwn bi => exact hev bi h
  | drain => cases h
  | releaseSession i =>
    dsimp only [Instr.remove, BackendManagerState.releaseSession] at h
    split at h
    · exact h
    · split at h
      · exact he i h
      · split_ifs at h <;> exact he i h
  | _ => exact h

section Changes

variable [DecidableEq π] {su : Setup} {p : π} {env : Env} {s t : Shared π} {x : Instr π} {first : List (Instr π)}

/-- Neither the memory nor the registry changes. -/
theorem Change.still (hm : t.memory = s.memory) (hi : t.issued = s.issued)
    (hr : t.registry = s.registry) (hf : ∀ y ∈ first, y.Plain) : Change p env s x t first := by
  refine .other hi ?_ ?_ ?_ hf
  · intro q b k h
    rwa [hm] at h
  · intro q ss b h
    rwa [hm] at h
  · intro b e h
    rw [hr] at h
    exact .kept e h rfl

theorem Change.mapValues (f : String → BackendRegistryEntry π → BackendRegistryEntry π)
    (hf : ∀ b o, s.registry.get? b = some o → Written s x b (f b o)) (hfr : ∀ y ∈ first, y.Plain) :
    Change p env s x { s with registry := s.registry.mapValues f } first := by
  refine .other rfl (fun _ _ _ h => h) (fun _ _ _ h => h) (fun b e h => ?_) hfr
  rw [get?_mapValues, map_eq_some_iff] at h
  obtain ⟨o, ho, rfl⟩ := h
  exact hf b o ho

/-- Backends are removed from the memory of a process. -/
theorem change_remove (hf : ∀ y ∈ first, y.Plain) :
    Change p env s x (s.remember p (x.remove (s.memory p)).2) first := by
  have hr := removal_remove x (s.memory p)
  refine .other rfl (fun q b k h => ?_) (fun q ss b h => ?_) (fun b en h => .kept en h rfl) hf
  · rcases eq_or_ne q p with rfl | hq
    · simp only [Shared.remember, update_self] at h
      by_cases hm : ∃ e ∈ (x.remove (s.memory q)).1, e.1 = b
      · obtain ⟨e, he, rfl⟩ := hm
        rw [hr.gone e he] at h
        cases h
      · rwa [hr.others b fun e he heq => hm ⟨e, he, heq⟩] at h
    · simpa [Shared.remember, hq] using h
  · rcases eq_or_ne q p with rfl | hq
    · simp only [Shared.remember, update_self] at h
      exact sessionIndex_remove x _ h
    · simpa [Shared.remember, hq] using h

theorem change_create (r : NewBackend) : Change p env s (.create r) (exec su p env s (.create r)).1
      (exec su p env s (.create r)).2.first := by
  obtain ⟨c, hc⟩ := cancel_eq s r env.nowMs
  cases exec_create su p env s r with
  | gaveUp h =>
    rw [h, hc]
    exact .still rfl rfl rfl (forall_mem_nil _)
  | found b h =>
    rw [h, hc]
    exact .still rfl rfl rfl (plain_reassert r b)
  | counted i _ _ hk h =>
    rw [h]
    refine .made r i rfl rfl rfl rfl (.inr ⟨hk, [.unlock], rfl, ?_⟩)
    simp
  | uncounted i _ _ _ h =>
    rw [h]
    exact .made r i rfl rfl rfl rfl (.inl rfl)

theorem change_insertCheckoutChild (r : NewBackend) (hk : isCountedKind r.config.kind) :
    Change p env s (.insertCheckoutChild r) (exec su p env s (.insertCheckoutChild r)).1
      (exec su p env s (.insertCheckoutChild r)).2.first := by
  obtain ⟨c, hc⟩ := cancel_eq s r env.nowMs
  dsimp only [exec]
  rw [hc]
  split
  · next i _ _ =>
    exact .made r i rfl rfl rfl rfl (.inr ⟨hk, [], rfl, forall_mem_nil _⟩)
  · exact .still rfl rfl rfl (forall_mem_nil _)

/-- An idle instruction leads to plain ones. -/
theorem plain_first (st : Setup) (p : π) (s : Shared π) (hs : x.Sound)
    (hf : ∀ e ∈ x.judges?, ¬ e.isOwnerStale env.nowMs) (hx : x.idle) :
      ∀ y ∈ (exec st p env s x).2.first, y.Plain := by
  unfold exec
  dsimp only
  repeat' split
  all_goals first
    | exact absurd hx Bool.false_ne_true
    | exact forall_mem_nil _
    | exact plain_reassert _ _
    | exact RetryLoop.Sound.plain_freed hs _
    | exact RetryLoop.Sound.plain_goOn hs _
    | exact forall_mem_singleton.mpr ⟨hs, rfl⟩
    | exact forall_mem_singleton.mpr ⟨trivial, rfl⟩
    | exact forall_mem_cons.mpr ⟨⟨trivial, rfl⟩, forall_mem_singleton.mpr ⟨trivial, rfl⟩⟩
    | exact forall_mem_cons.mpr ⟨⟨trivial, rfl⟩, RetryLoop.Sound.plain_goOn hs _⟩
    | exact absurd ‹_› (hf _ rfl)

/-- **What an instruction does to the entries.** -/
theorem exec_change (hs : x.Sound) (hf : ∀ e ∈ x.judges?, ¬ e.isOwnerStale env.nowMs) :
    Change p env s x (exec su p env s x).1 (exec su p env s x).2.first := by
  have hon : ∀ y : Instr π, y.Plain → ∀ z ∈ [y], z.Plain := fun y hy => by simpa using hy
  have hi : x.idle → Change p env s x (exec su p env s x).1 (exec su p env s x).2.first := by
    intro hx
    obtain ⟨-, ⟨c, l, hst⟩, -⟩ := exec_idle su p env s hx
    exact .still (by rw [hst]) (by rw [hst]) (by rw [hst]) (plain_first su p s hs hf hx)
  cases x with
  | create r => exact change_create r
  | insertCheckoutChild r => exact change_insertCheckoutChild r hs
  | confirm r i => exact .confirmed r i rfl rfl rfl rfl rfl
  | register =>
    refine .other rfl (fun _ _ _ h => h) (fun _ _ _ h => h) (fun b e' h => ?_) (forall_mem_nil _)
    simp only [exec, get?_insert] at h
    split_ifs at h with hb
    · obtain rfl := some.inj h
      exact .registered rfl hb.symm
    · exact .kept e' h rfl
  | unregister =>
    refine .other rfl (fun _ _ _ h => h) (fun _ _ _ h => h) (fun b e h => ?_) (forall_mem_nil _)
    simp only [exec, get?_erase] at h
    split_ifs at h
    exact .kept e h rfl
  | updateSessionStatus bi si st q =>
    refine .mapValues _ (fun b o ho => ?_) (forall_mem_nil _)
    split_ifs with hb
    · exact .updated o si st q ho (by rw [hb]) rfl
    · exact .kept o ho rfl
  | setPendingEviction | refreshHeartbeats =>
    refine .mapValues _ (fun b o ho => .kept o ho ?_) (forall_mem_nil _)
    split_ifs <;> rfl
  | releaseSession | drain => exact change_remove (plain_finalizeRemoval su _)
  | evictOwn bi rs m =>
    refine change_remove ?_
    dsimp only [exec, Next.first]
    split_ifs
    · exact hon _ ⟨hs, rfl⟩
    · exact forall_mem_append.mpr ⟨plain_finalizeRemoval su _, RetryLoop.Sound.plain_freed hs m⟩
  | evictMarkedOwn =>
    refine change_remove ?_
    dsimp only [exec]
    split_ifs
    · exact forall_mem_nil _
    · exact forall_mem_append.mpr ⟨plain_finalizeRemoval su _, hon _ ⟨trivial, rfl⟩⟩
  | leaseBound | reserve | countTotal | readByKey | evictFirst | reserveChild | giveUp | unlock | delete | readOwn
  | evictMarked =>
    exact hi rfl
  | release =>
    exact .still rfl rfl rfl (forall_mem_cons.mpr ⟨⟨trivial, rfl⟩, hon _ ⟨trivial, rfl⟩⟩)
  | reclaim => exact hs.elim

end Changes

/-! ### What every run keeps -/

/-- A turn of the machine, as far as the registry is concerned: an instruction `x` was carried
out. When a process dies there is none to speak of. -/
structure Turned [DecidableEq π] (p : π) (env : Env) (w : World ι π) (x : Instr π) (w' : World ι π)
    (first : List (Instr π)) : Prop where
  own : x.lists? = none ∨ ∃ k, x ∈ w.thread k
  fresh : ∀ b ∈ x.makes?, b ∉ w.shared.issued
  thread : ∀ k, ∀ y ∈ w'.thread k, y ∈ w.thread k ∨ y ∈ first
  change : Change p env w.shared x w'.shared first

/-- Sessions and backends of the processes have the entries that they should have. -/
structure Sane (w : World ι π) : Prop where
  sound : ∀ k, ∀ y ∈ w.thread k, y.Sound
  unissued : ∀ b, b ∉ w.shared.issued → Unlisted b w
  bound : ∀ p sessionId b, (w.shared.memory p).sessionIndex.get? sessionId = some b → Kept ⟨b, sessionId⟩ w
  uncounted : ∀ p b kind, kindIn (w.shared.memory p) b = some kind → ¬ isCountedKind kind →
    b ∈ w.shared.issued ∧ Unlisted b w

theorem sane_start (su : Setup) (os : ι → Operation) : Sane (start su os : World ι π) := by
  have hp : ∀ k, ∀ y ∈ ((os k).program su : List (Instr π)), y.Plain := by
    intro k
    cases os k with
    | ensureSessionBackend =>
      dsimp only [Operation.program]
      split_ifs <;> simp
    | checkoutBackend =>
      simp [Operation.program, isCountedKind]
    | _ => simp [Operation.program]
  refine ⟨fun k y hy => (hp k y hy).1, fun b _ => ⟨fun k y hy ss hl => ?_, nofun⟩, nofun, nofun⟩
  rw [(hp k y hy).2] at hl
  cases hl

section Turns

variable [DecidableEq π] {p : π} {env : Env} {w w' : World ι π} {x : Instr π} {f : List (Instr π)} {b : String}
  {Q : SortedMap String SessionStatusSnapshot → Prop} {l : Lease}

theorem Change.written {s t : Shared π} (h : Change p env s x t f) {entry : BackendRegistryEntry π}
    (he : t.registry.get? b = some entry) : Written s x b entry := by
  cases h with
  | other _ _ _ hw => exact hw b entry he
  | made _ _ _ _ _ hr | confirmed _ _ _ _ _ hr => exact .kept entry (hr ▸ he) rfl

theorem Change.sound {s t : Shared π} (h : Change p env s x t f) : ∀ y ∈ f, y.Sound := by
  cases h with
  | other _ _ _ _ hf => exact fun y hy => (hf y hy).1
  | made r i _ _ _ _ hf =>
    obtain rfl | ⟨-, rs, rfl, hr⟩ := hf
    · exact forall_mem_nil _
    · exact forall_mem_cons.mpr ⟨trivial, fun y hy => (hr y hy).1⟩
  | confirmed r i _ _ _ _ hf =>
    subst hf
    exact forall_mem_cons.mpr ⟨trivial, forall_mem_nil _⟩

theorem Change.issued {s t : Shared π} (h : Change p env s x t f) (hb : b ∈ s.issued) : b ∈ t.issued := by
  cases h with
  | other hi | confirmed _ _ _ _ hi => rwa [hi]
  | made _ _ _ _ hi => exact hi ▸ mem_cons_of_mem _ hb

theorem sessionIndex_insertBackend {s : Shared π} {r : NewBackend} {ii : String} {q : π}
    {i : String} (h : ((s.insertBackend p r ii).memory q).sessionIndex.get? i = some b) :
    r.sessionId = some i ∧ b = r.backendId ∨ (s.memory q).sessionIndex.get? i = some b := by
  rcases eq_or_ne q p with rfl | hq
  · simp only [Shared.insertBackend, Shared.remember, update_self, BackendManagerState.bind] at h
    cases hr : r.sessionId with
    | none => exact .inr (by simpa [hr] using h)
    | some =>
      simp only [hr, get?_insert] at h
      split_ifs at h with hs
      · exact .inl ⟨congrArg some hs.symm, (some.inj h).symm⟩
      · exact .inr h
  · exact .inr (by simpa [Shared.insertBackend, Shared.remember, hq] using h)

variable {ss : SortedMap String SessionStatusSnapshot} (ht : Turned p env w x w' f)
include ht

/-- An instruction that is carried out was among those that register. -/
theorem Turned.listed (h : Listed b Q w) (hx : x.lists? = some (b, ss)) : Q ss := by
  obtain hn | ⟨k, hk⟩ := ht.own
  · rw [hn] at hx
    cases hx
  · exact h.pending k x hk ss hx

/-- What the call is to register after an instruction: a backend that it has just made, or what it
was to confirm. -/
theorem Turned.lists_first {y : Instr π} (hy : y ∈ f) (hl : y.lists? = some (b, ss)) :
    x.lists? = some (b, ss) ∨ b ∈ w'.shared.issued ∧ b ∉ w.shared.issued := by
  cases ht.change with
  | other _ _ _ _ hf =>
    rw [(hf y hy).2] at hl
    cases hl
  | made r i hx _ hi _ hf =>
    obtain rfl | ⟨-, rs, rfl, hr⟩ := hf
    · cases hy
    · obtain rfl | hy := mem_cons.mp hy
      · obtain ⟨rfl, -⟩ := Prod.mk.inj (some.inj hl)
        exact .inr ⟨hi ▸ mem_cons_self, ht.fresh _ hx⟩
      · rw [(hr y hy).2] at hl
        cases hl
  | confirmed r i hx _ _ _ hf =>
    subst hf hx
    obtain rfl := mem_singleton.mp hy
    exact .inl hl

/-- The entries of a backend that is not made in this turn. -/
theorem Listed.turn (h : Listed b Q w) (hQ : ∀ ss i s, Q ss → Q (ss.insert i s))
    (hb : b ∈ w'.shared.issued → b ∈ w.shared.issued) : Listed b Q w' := by
  constructor
  · intro k y hy ss hl
    obtain ho | hn := ht.thread k y hy
    · exact h.pending k y ho ss hl
    · obtain hx | ⟨hi, hf⟩ := ht.lists_first hn hl
      · exact ht.listed h hx
      · exact absurd (hb hi) hf
  · intro e he
    cases ht.change.written he with
    | kept o ho hs => exact hs ▸ h.entry o ho
    | registered hx hid =>
      subst hx hid
      exact ht.listed h rfl
    | updated o i st q ho hx hs =>
      rw [hs]
      exact hQ _ _ _ (h.entry o ho)

theorem Unlisted.turn (h : Unlisted b w) (hb : b ∈ w'.shared.issued → b ∈ w.shared.issued) : Unlisted b w' :=
  Listed.turn ht h (fun _ _ _ => id) hb

theorem Kept.turn (h : Kept l w) : Kept l w' := by
  refine ⟨h.toListed.turn ht (fun ss i s hs => ?_) fun _ => h.issued, ht.change.issued h.issued⟩
  rw [get?_insert]
  split_ifs
  · rfl
  · exact hs

/-- A session stays active as long as it is not set to idle. -/
theorem Active.turn (h : Active l w.shared) (hk : Kept l w) (hil : ¬ x.idles l) : Active l w'.shared := by
  intro e he
  cases ht.change.written he with
  | kept o ho hst => exact hst ▸ h o ho
  | registered hx hid =>
    obtain ⟨s, hs⟩ := isSome_iff_exists.mp (ht.listed hk.toListed (by rw [hx, ← hid]; rfl))
    refine ⟨s, hs, fun hi => hil ?_⟩
    simp [hx, Instr.idles, hid, hs, hi]
  | updated o i st q ho hx hst =>
    obtain ⟨s, hs, hi⟩ := h o ho
    rw [hst]
    by_cases hss : l.sessionId = i
    · refine ⟨⟨st, q⟩, by rw [get?_insert, if_pos hss], fun heq => hil ?_⟩
      obtain ⟨rfl, rfl⟩ := SessionStatusSnapshot.mk.inj heq
      simp [hx, Instr.idles, hss]
    · exact ⟨s, by rw [get?_insert, if_neg hss, hs], hi⟩

theorem Sane.turn (h : Sane w) : Sane w' := by
  have hu : ∀ {b}, b ∈ w.shared.issued ∧ Unlisted b w → b ∈ w'.shared.issued ∧ Unlisted b w' :=
    fun h => ⟨ht.change.issued h.1, h.2.turn ht fun _ => h.1⟩
  refine ⟨fun k y hy => ?_, fun b hb => ?_, fun q i b hbn => ?_, fun q b kn hk hc => ?_⟩
  · obtain ho | hnw := ht.thread k y hy
    · exact h.sound k y ho
    · exact ht.change.sound y hnw
  · exact (h.unissued b fun hi => hb (ht.change.issued hi)).turn ht fun hi => absurd hi hb
  · cases ht.change with
    | other _ _ ho => exact (h.bound q i b (ho q i b hbn)).turn ht
    | confirmed _ _ _ hm => exact (h.bound q i b (hm ▸ hbn)).turn ht
    | made r ii hx hm hi hr hf =>
      rw [hm] at hbn
      obtain ⟨hrq, rfl⟩ | ho := sessionIndex_insertBackend hbn
      · -- a new backend: all that is to be registered for it is its entry
        have hn := h.unissued _ (ht.fresh _ hx)
        refine ⟨⟨fun k y hy ss hl => ?_, fun e he => ?_⟩, hi ▸ mem_cons_self⟩
        · obtain ho | hnw := ht.thread k y hy
          · exact (hn.pending k y ho ss hl).elim
          · obtain rfl | ⟨-, rs, rfl, hrs⟩ := hf
            · cases hnw
            · obtain rfl | hy := mem_cons.mp hnw
              · obtain ⟨-, rfl⟩ := Prod.mk.inj (some.inj hl)
                simp [NewBackend.sessionStatuses, BackendRegistryEntry.new, hrq, get?_insert]
              · rw [(hrs y hy).2] at hl
                cases hl
        · rw [hr] at he
          exact (hn.entry e he).elim
      · exact (h.bound q i b ho).turn ht
  · cases ht.change with
    | other _ ho => exact hu (h.uncounted q b kn (ho q b kn hk) hc)
    | confirmed _ _ _ hm => exact hu (h.uncounted q b kn (hm ▸ hk) hc)
    | made r ii hx hm hi hr hf =>
      rw [hm, kindIn_insertBackend] at hk
      split_ifs at hk with hb
      · obtain ⟨-, rfl⟩ := hb
        obtain rfl := some.inj hk
        have hn := h.unissued _ (ht.fresh _ hx)
        obtain rfl | ⟨hc', -⟩ := hf
        · refine ⟨hi ▸ mem_cons_self, fun k y hy => ?_, fun e he => ?_⟩
          · exact hn.pending k y ((ht.thread k y hy).resolve_right not_mem_nil)
          · rw [hr] at he
            exact hn.entry e he
        · exact absurd hc' hc
      · exact hu (h.uncounted q b kn hk hc)

end Turns

/-! ### Turns of the machine -/

section Machine

variable [DecidableEq π]

theorem turned_die (pr : ι → π) (w : World ι π) (p : π) (env : Env) : Turned p env w .giveUp
      ⟨(w.shared.remember p {}).lock p false, fun k => if pr k = p then [] else w.thread k⟩ [] := by
  refine ⟨.inl rfl, nofun, fun k y hy => ?_, .other rfl (fun q b kn h => ?_) (fun q i b h => ?_)
    (fun b e h => .kept e h rfl) (forall_mem_nil _)⟩
  · dsimp only at hy
    split_ifs at hy
    · cases hy
    · exact .inl hy
  -- The memory of the process is empty, and that of any other is as before.
  all_goals
    rcases eq_or_ne q p with rfl | hq
    · simp only [Shared.lock, Shared.remember, update_self] at h
      cases h
    · simpa [Shared.lock, Shared.remember, hq] using h

variable [DecidableEq ι] {w : World ι π} {i : ι} {x : Instr π} {r : List (Instr π)}

theorem turned_call (su : Setup) (pr : ι → π) (env : Env) (hs : Sane w) (ht : w.thread i = x :: r)
    (hf : ∀ b ∈ x.makes?, b ∉ w.shared.issued) (hh : ∀ e ∈ x.judges?, ¬ e.isOwnerStale env.nowMs) :
    Turned (pr i) env w x (w.put i (exec su (pr i) env w.shared x).1 ((exec su (pr i) env w.shared x).2.todo r))
      (exec su (pr i) env w.shared x).2.first := by
  have hx : x ∈ w.thread i := ht ▸ mem_cons_self
  refine ⟨.inr ⟨i, hx⟩, hf, fun k => ?_, exec_change (hs.sound i x hx) hh⟩
  rcases eq_or_ne k i with rfl | hk
  · rw [Threads.put_thread_self, ht]
    exact fun y hy => (mem_todo hy).symm.imp_left (mem_cons_of_mem x)
  · rw [Threads.put_thread_of_ne _ _ _ hk]
    exact fun y hy => .inl hy

end Machine

end XiaoO.Backend.Processes
