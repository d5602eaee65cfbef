import XiaoO.Backend.Accounts

/-!
# The reservations of the calls of a process

A call that wants a new sandbox reserves a place of the shared counter, with evictions
and further tries if there is none, builds the sandbox, and confirms the place or takes the
reservation back. This module follows the calls of one process whose sandboxes all have one
key.

## What is proved

A call seeks a reservation, holds one, or neither (`Course`). An instruction either has
nothing to do with reservations, or is a try, or uses up the reservation of its call
(`exec_booking`), so a call stays on its course and the reservations of the counter are
those that the calls hold, as long as none reaches its time to live (`Course.turn`). The
places that are taken change when a sandbox is confirmed or released (`counted_exec`).
-/

namespace XiaoO.Backend.Processes

open XiaoO.Base List SortedMap Prod SandboxCounterData

/-! ### Roles and keys -/

/-- What an instruction has to do with the reservation of its call. -/
inductive Role where
  | passes
  /-- The call tries to get one. -/
  | seeks
  /-- The call has one. -/
  | holds
  deriving DecidableEq

def Instr.role : Instr Unit → Role
  | .reserve _ _ _ | .countTotal _ _ _ | .readByKey _ _ _ | .evictFirst _ _ _ | .evictOwn _ _ _ _
  | .reserveChild _ _ _ | .giveUp => .seeks
  | .create request => if isCountedKind request.config.kind then .holds else .passes
  | .insertCheckoutChild _ | .confirm _ _ => .holds
  | _ => .passes

/-- A request for a sandbox is one for the key. -/
def NewBackend.Keyed (setup : Setup) (key : String) (request : NewBackend) : Prop :=
  isCountedKind request.config.kind → request.sandboxKey = key ∧ setup.sandboxKey request.config = key

/-- The loop is for the key; a checkout makes a counted backend. -/
def RetryLoop.Keyed (setup : Setup) (key : String) : RetryLoop → Prop
  | .reserve sandboxKey _ => sandboxKey = key
  | .checkout request _ => isCountedKind request.config.kind ∧ request.Keyed setup key

/-- The instruction occurs in a call for the key. -/
def Instr.Keyed (setup : Setup) (key : String) : Instr Unit → Prop
  | .reserve sandboxKey _ _ | .release _ sandboxKey => sandboxKey = key
  | .countTotal _ _ loop | .readByKey _ _ loop | .evictFirst _ _ loop | .evictOwn _ _ _ loop => loop.Keyed setup key
  | .create request => request.Keyed setup key
  | .reserveChild request _ _ | .insertCheckoutChild request | .confirm request _ =>
    isCountedKind request.config.kind ∧ request.Keyed setup key
  | .reclaim _ | .drain => False
  | _ => True

/-- The counted backends in memory are for the key. -/
def KeyedMemory (setup : Setup) (key : String) (s : Shared Unit) : Prop :=
  ∀ b entry, (s.memory ()).backends.get? b = some entry → isCountedKind entry.config.kind →
    setup.sandboxKey entry.config = key

/-! ### Courses -/

variable {x : Instr Unit}

section Courses

variable (setup : Setup) (key : String)

def Instr.Is (role : Role) (y : Instr Unit) : Prop := y.role = role ∧ y.Keyed setup key

/-- The call tries again, after some instructions that have nothing to do with reservations. -/
def Retries (first : List (Instr Unit)) : Prop :=
  ∃ pre x, first = pre ++ [x] ∧ (∀ y ∈ pre, y.Is setup key .passes) ∧ x.Is setup key .seeks

/-- Where a call is: it has nothing to do with reservations, or not any more; it seeks one for the
instruction that comes last; it has one. -/
inductive Course : List (Instr Unit) → Prop where
  | passing (todo : List (Instr Unit)) (h : ∀ y ∈ todo, y.Is setup key .passes) : Course todo
  | seeking (first : List (Instr Unit)) (x : Instr Unit) (hfirst : Retries setup key first)
      (hx : x.Is setup key .holds) : Course (first ++ [x])
  | holding (x : Instr Unit) (post : List (Instr Unit)) (hx : x.Is setup key .holds)
      (hpost : ∀ y ∈ post, y.Is setup key .passes) : Course (x :: post)

/-- The reservations of a call. -/
def held (todo : List (Instr Unit)) : ℕ := if todo.head?.any (·.role = .holds) then 1 else 0

def Shared.reserved (s : Shared Unit) : ℕ := (s.counter.pendingReservations key).length

/-- What an instruction does to the reservations, and how its call goes on. -/
inductive Booking (s : Shared Unit) (x : Instr Unit) (t : Shared Unit) (next : Next Unit) : Prop where
  | passed (hx : x.role = .passes) (hreserved : t.reserved key = s.reserved key)
      (hfirst : ∀ y ∈ next.first, y.Is setup key .passes)
  | acquired (hx : x.role = .seeks) (hreserved : t.reserved key = s.reserved key + 1) (hnext : next = .goOn [])
  | refused (hx : x.role = .seeks) (hreserved : t.reserved key = s.reserved key) (hnext : next = .leave [])
  | retried (hx : x.role = .seeks) (hreserved : t.reserved key = s.reserved key) (first : List (Instr Unit))
      (hnext : next = .goOn first) (hfirst : Retries setup key first)
  | spent (hx : x.role = .holds) (hreserved : t.reserved key = s.reserved key - 1)
      (hfirst : ∀ y ∈ next.first, y.Is setup key .passes)
  | built (hx : x.role = .holds) (hreserved : t.reserved key = s.reserved key) (y : Instr Unit)
      (post : List (Instr Unit)) (hnext : next = .goOn (y :: post)) (hy : y.Is setup key .holds)
      (hpost : ∀ z ∈ post, z.Is setup key .passes)

variable {setup key}

theorem held_of_passes {t : List (Instr Unit)} (h : ∀ y ∈ t, y.Is setup key .passes) : held t = 0 := by
  cases t with
  | nil => rfl
  | cons x => simp [held, (h x mem_cons_self).1]

theorem held_of_retries {f : List (Instr Unit)} (h : Retries setup key f) (r : List (Instr Unit)) :
    held (f ++ r) = 0 := by
  obtain ⟨_ | ⟨y, p⟩, x, rfl, hp, hx⟩ := h
  · simp [held, hx.1]
  · simp [held, (hp y mem_cons_self).1]

theorem held_of_holds (hx : x.role = .holds) (r : List (Instr Unit)) : held (x :: r) = 1 := by
  simp [held, hx]

/-- **A call stays on its course**, and the reservations are those that are held. -/
theorem Course.turn {s t : Shared Unit} {x : Instr Unit} {r : List (Instr Unit)} {next : Next Unit}
    (h : Course setup key (x :: r)) (hb : Booking setup key s x t next) (hh : held (x :: r) ≤ s.reserved key) :
    Course setup key (next.todo r) ∧ t.reserved key + held (x :: r) = s.reserved key + held (next.todo r) := by
  have hp : (∀ y ∈ next.first, y.Is setup key .passes) → (∀ y ∈ r, y.Is setup key .passes) →
      ∀ y ∈ next.todo r, y.Is setup key .passes := fun hf hrs y hy => (mem_todo hy).elim (hf y) (hrs y)
  generalize ht : x :: r = todo at h
  cases h with
  | passing todo ha =>
    subst ht
    obtain ⟨hx, hrs⟩ := forall_mem_cons.mp ha
    cases hb with
    | passed _ hr hf =>
      have ht := hp hf hrs
      exact ⟨.passing _ ht, by rw [held_of_passes ht, held_of_passes ha, hr]⟩
    | acquired hrl | refused hrl | retried hrl | spent hrl | built hrl => cases hx.1.symm.trans hrl
  | holding y p hy hps =>
    obtain ⟨rfl, rfl⟩ := cons.inj ht
    rw [held_of_holds hy.1] at hh ⊢
    cases hb with
    | spent _ hr hf =>
      have ht := hp hf hps
      refine ⟨.passing _ ht, ?_⟩
      rw [held_of_passes ht, hr]
      omega
    | built _ hr z p' hn hz hp' =>
      subst hn
      refine ⟨.holding z (p' ++ r) hz (forall_mem_append.mpr ⟨hp', hps⟩), ?_⟩
      rw [Next.todo, cons_append, held_of_holds hz.1, hr]
    | passed hrl | acquired hrl | refused hrl | retried hrl => cases hy.1.symm.trans hrl
  | seeking f y hf hy =>
    rw [held_of_retries hf]
    obtain ⟨_ | ⟨z', pre⟩, z, rfl, hpr, hz⟩ := hf
    · rw [nil_append, singleton_append] at ht
      obtain ⟨rfl, rfl⟩ := cons.inj ht
      cases hb with
      | acquired _ hr hn =>
        subst hn
        refine ⟨.holding y [] hy (forall_mem_nil _), ?_⟩
        rw [Next.todo, nil_append, held_of_holds hy.1, hr]
      | refused _ hr hn =>
        subst hn
        exact ⟨.passing [] (forall_mem_nil _), hr⟩
      | retried _ hr f hn hf =>
        subst hn
        exact ⟨.seeking f y hf hy, by rw [Next.todo, held_of_retries hf, hr]⟩
      | passed hrl | spent hrl | built hrl => cases hz.1.symm.trans hrl
    · rw [cons_append, cons_append] at ht
      obtain ⟨rfl, rfl⟩ := cons.inj ht
      obtain ⟨hx, hpr⟩ := forall_mem_cons.mp hpr
      cases hb with
      | passed _ hr hf =>
        cases next with
        | leave f =>
          have hnn : held f = 0 := held_of_passes hf
          exact ⟨.passing f hf, by rw [Next.todo, hnn, hr]⟩
        | goOn f =>
          have hrt : Retries setup key (f ++ (pre ++ [z])) :=
            ⟨f ++ pre, z, by simp, forall_mem_append.mpr ⟨hf, hpr⟩, hz⟩
          rw [Next.todo, ← append_assoc, held_of_retries hrt, hr]
          exact ⟨.seeking _ y hrt hy, rfl⟩
      | acquired hrl | refused hrl | retried hrl | spent hrl | built hrl => cases hx.1.symm.trans hrl

theorem Course.keyed {t : List (Instr Unit)} (h : Course setup key t) : ∀ y ∈ t, y.Keyed setup key := by
  cases h with
  | passing t ha => exact fun y hy => (ha y hy).2
  | holding x p hx hp => exact forall_mem_cons.mpr ⟨hx.2, fun y hy => (hp y hy).2⟩
  | seeking f x hf hx =>
    obtain ⟨pre, z, rfl, hpr, hz⟩ := hf
    refine forall_mem_append.mpr ⟨forall_mem_append.mpr ⟨fun y hy => (hpr y hy).2, ?_⟩, ?_⟩
    · simpa using hz.2
    · simpa using hx.2

end Courses

/-! ### What an instruction does to the reservations -/

section Bookings

variable {su : Setup} {key : String}

theorem passes_unmark (m : Option String) : ∀ y ∈ (unmark m : List (Instr Unit)), y.Is su key .passes := by
  simp [unmark, Instr.Is, Instr.role, Instr.Keyed]

theorem passes_reassert (r : NewBackend) (b : String) :
    ∀ y ∈ (reassert r b : List (Instr Unit)), y.Is su key .passes := by
  rw [reassert]
  split
  · split_ifs <;> simp [Instr.Is, Instr.role, Instr.Keyed]
  · simp [Instr.Is, Instr.role, Instr.Keyed]

theorem retries_singleton (hx : x.Is su key .seeks) : Retries su key [x] :=
  ⟨[], x, rfl, forall_mem_nil _, hx⟩

theorem Retries.append_left {p f : List (Instr Unit)} (hp : ∀ y ∈ p, y.Is su key .passes)
    (h : Retries su key f) : Retries su key (p ++ f) := by
  obtain ⟨p', x, rfl, hp', hx⟩ := h
  exact ⟨p ++ p', x, (append_assoc ..).symm, forall_mem_append.mpr ⟨hp, hp'⟩, hx⟩

theorem RetryLoop.Keyed.retries_goOn {l : RetryLoop} (h : l.Keyed su key) (m : Option String) :
    Retries su key (l.goOn m) := by
  rcases l with ⟨_, _ | _⟩ | ⟨_, _ | _⟩
  · exact Retries.append_left (passes_unmark m) (retries_singleton ⟨rfl, h⟩)
  · exact retries_singleton ⟨rfl, h⟩
  · exact Retries.append_left (passes_unmark m) (retries_singleton ⟨rfl, trivial⟩)
  · exact retries_singleton ⟨rfl, h⟩

theorem RetryLoop.Keyed.retries_freed {l : RetryLoop} (h : l.Keyed su key) (m : Option String) :
    Retries su key (l.freed m) :=
  (h.retries_goOn none).append_left (passes_unmark m)

/-- What is removed from memory, and what is left there, was there, up to its sessions. -/
theorem config_of_remove {s : BackendManagerState} {b : String} {e : BackendInstanceEntry}
    (h : (b, e) ∈ (x.remove s).1 ∨ (x.remove s).2.backends.get? b = some e) :
    ∃ o, s.backends.get? b = some o ∧ o.config = e.config := by
  have he : ∀ bi, (s.backends.erase bi).get? b = some e → ∃ o, s.backends.get? b = some o ∧ o.config = e.config := by
    intro bi h
    rw [get?_erase] at h
    split_ifs at h
    exact ⟨e, h, rfl⟩
  have hev : ∀ bi, (b, e) ∈ (s.evict bi).1.toList.map (bi, ·) ∨ (s.evict bi).2.backends.get? b = some e →
      ∃ o, s.backends.get? b = some o ∧ o.config = e.config := by
    intro bi h
    rw [BackendManagerState.evict] at h
    split at h
    · exact ⟨e, h.resolve_left not_mem_nil, rfl⟩
    · next o ho =>
      obtain hm | hg := h
      · obtain ⟨rfl, rfl⟩ := mk.inj (mem_singleton.mp hm)
        exact ⟨e, ho, rfl⟩
      · exact he bi hg
  cases x with
  | evictOwn bi | evictMarkedOwn bi => exact hev bi h
  | drain => exact ⟨e, mem_entries.mp (h.resolve_right fun hg => by cases hg), rfl⟩
  | releaseSession =>
    dsimp only [Instr.remove, BackendManagerState.releaseSession] at h
    split at h
    · exact ⟨e, h.resolve_left not_mem_nil, rfl⟩
    · next bi _ =>
      split at h
      · exact ⟨e, h.resolve_left not_mem_nil, rfl⟩
      · next o ho =>
        split_ifs at h
        · obtain hm | hg := h
          · obtain ⟨rfl, rfl⟩ := mk.inj (mem_singleton.mp hm)
            exact ⟨o, ho, rfl⟩
          · exact he bi hg
        · have hg := h.resolve_left not_mem_nil
          rw [get?_insert] at hg
          split_ifs at hg with hb
          · obtain rfl := Option.some.inj hg
            exact ⟨o, hb ▸ ho, rfl⟩
          · exact ⟨e, hg, rfl⟩
  | _ => exact ⟨e, h.resolve_left not_mem_nil, rfl⟩

theorem passes_finalizeRemoval {s : Shared Unit} (hm : KeyedMemory su key s) (x : Instr Unit) :
    ∀ y ∈ ((x.remove (s.memory ())).1.flatMap (finalizeRemoval su) : List (Instr Unit)), y.Is su key .passes := by
  intro y hy
  obtain ⟨e, he, hy⟩ := mem_flatMap.mp hy
  obtain ⟨en, hen, hc⟩ := config_of_remove (.inl he)
  rw [finalizeRemoval] at hy
  split_ifs at hy with hk
  · obtain rfl := mem_singleton.mp hy
    rw [← hc] at hk ⊢
    exact ⟨rfl, hm e.1 en hen hk⟩
  · obtain rfl := mem_singleton.mp hy
    exact ⟨rfl, trivial⟩

section Counter

variable {n : ℕ} {d : SandboxCounterData} (m : ℕ) (h : ∀ r ∈ d.pendingReservations key, valid n r)
include h

/-- Nothing is collected before its time. -/
theorem pending_gcStalePending : (d.gcStalePending n).pendingReservations key = d.pendingReservations key :=
  filter_eq_self.mpr h

theorem checkAndReserve_pending : (∃ e, (d.checkAndReserve m n n key).2 = .error e) ∧
        ((d.checkAndReserve m n n key).1.pendingReservations key).length = (d.pendingReservations key).length ∨
      (d.checkAndReserve m n n key).2 = .ok () ∧ ((d.checkAndReserve m n n key).1.pendingReservations key).length =
          (d.pendingReservations key).length + 1 := by
  have hgc := pending_gcStalePending h
  rw [checkAndReserve]
  split_ifs
  · exact .inl ⟨⟨_, rfl⟩, by rw [hgc]⟩
  · exact .inr ⟨rfl, by simp [hgc]⟩

theorem cancelReservation_pending :
    ((d.cancelReservation n key).pendingReservations key).length = (d.pendingReservations key).length - 1 := by
  simp [cancelReservation, popPending, pending_gcStalePending h]

end Counter

variable {env : Env} {s : Shared Unit} {x : Instr Unit}

theorem booking_create {r : NewBackend} (hky : r.Keyed su key)
    (ht : ∀ ra ∈ s.counter.pendingReservations key, valid env.nowMs ra) :
    Booking su key s (.create r) (exec su () env s (.create r)).1 (exec su () env s (.create r)).2 := by
  by_cases hk : isCountedKind r.config.kind
  · have hr : (Instr.create r).role = .holds := by simp [Instr.role, hk]
    have hc : (s.cancel r env.nowMs).reserved key = s.reserved key - 1 := by
      rw [Shared.cancel, if_pos hk, (hky hk).1]
      exact cancelReservation_pending ht
    cases exec_create su () env s r with rw [h]
    | gaveUp h => exact .spent hr hc (forall_mem_nil _)
    | found b h => exact .spent hr hc (passes_reassert r b)
    | counted i _ _ _ h =>
      refine .built hr rfl _ _ rfl ⟨rfl, hk, hky⟩ ?_
      simp [Instr.Is, Instr.role, Instr.Keyed]
    | uncounted _ _ _ hn h => exact absurd hk hn
  · have hr : (Instr.create r).role = .passes := by simp [Instr.role, hk]
    have hc : s.cancel r env.nowMs = s := by rw [Shared.cancel, if_neg hk]
    cases exec_create su () env s r with rw [h]
    | gaveUp h =>
      rw [hc]
      exact .passed hr rfl (forall_mem_nil _)
    | found b h =>
      rw [hc]
      exact .passed hr rfl (passes_reassert r b)
    | counted _ _ _ hcn h => exact absurd hcn hk
    | uncounted i _ _ _ h => exact .passed hr rfl (forall_mem_nil _)

/-- **What an instruction does to the reservations.** -/
theorem exec_booking (hk : x.Keyed su key) (hm : KeyedMemory su key s)
    (ht : ∀ ra ∈ s.counter.pendingReservations key, valid env.nowMs ra) :
    Booking su key s x (exec su () env s x).1 (exec su () env s x).2 := by
  have ho : ∀ y : Instr Unit, y.Is su key .passes → ∀ z ∈ [y], z.Is su key .passes := fun y hy => by
    simpa using hy
  have hrm := passes_finalizeRemoval hm x
  cases x with
  | create => exact booking_create hk ht
  | insertCheckoutChild =>
    obtain ⟨hkn, hr⟩ := hk
    dsimp only [exec]
    split
    · exact .built rfl rfl _ [] rfl ⟨rfl, hkn, hr⟩ (forall_mem_nil _)
    · refine .spent rfl ?_ (forall_mem_nil _)
      rw [Shared.cancel, if_pos hkn, (hr hkn).1]
      exact cancelReservation_pending ht
  | confirm =>
    obtain ⟨hkn, hr⟩ := hk
    refine .spent rfl ?_ (ho _ ⟨rfl, trivial⟩)
    simp only [exec, Shared.reserved, (hr hkn).1]
    rw [confirmCreation, countConfirmed_pending]
    exact cancelReservation_pending ht
  | reserve sk ats =>
    obtain rfl : sk = key := hk
    obtain ⟨⟨e, he⟩, hp⟩ | ⟨hok, hp⟩ := checkAndReserve_pending su.maxPerKey ht
    · cases ats with simp only [exec, he]
      | zero => exact .refused rfl hp rfl
      | succ => exact .retried rfl hp _ rfl (retries_singleton ⟨rfl, rfl⟩)
    · simp only [exec, hok]
      exact .acquired rfl hp rfl
  | reserveChild r ats =>
    obtain ⟨hkn, hr⟩ := hk
    obtain rfl : r.sandboxKey = key := (hr hkn).1
    dsimp only [exec]
    split
    · exact .refused rfl rfl rfl
    · obtain ⟨⟨e, he⟩, hp⟩ | ⟨hok, hp⟩ := checkAndReserve_pending su.maxPerKey ht
      · cases ats with simp only [he]
        | zero => exact .refused rfl hp rfl
        | succ => exact .retried rfl hp _ rfl (retries_singleton ⟨rfl, hkn, hr⟩)
      · simp only [hok]
        exact .acquired rfl hp rfl
  | countTotal sk m =>
    have hp := congrArg length (pending_gcStalePending ht)
    refine .retried rfl hp _ rfl ?_
    split_ifs
    · exact RetryLoop.Keyed.retries_freed hk m
    · exact retries_singleton ⟨rfl, hk⟩
  | readByKey sk m =>
    refine .retried rfl rfl _ rfl ?_
    split_ifs
    · exact RetryLoop.Keyed.retries_goOn hk m
    · exact retries_singleton ⟨rfl, hk⟩
  | evictFirst es m =>
    cases es with
    | nil => exact .retried rfl rfl _ rfl (RetryLoop.Keyed.retries_goOn hk m)
    | cons en =>
      refine .retried rfl rfl _ rfl ?_
      split_ifs with _ how
      · exact retries_singleton ⟨rfl, hk⟩
      · exact retries_singleton ⟨rfl, hk⟩
      -- every entry is of this process
      · exact absurd rfl how
      · exact absurd rfl how
  | evictOwn b rs m =>
    refine .retried rfl rfl _ rfl ?_
    split_ifs
    · exact retries_singleton ⟨rfl, hk⟩
    · exact (RetryLoop.Keyed.retries_freed hk m).append_left hrm
  | giveUp => exact .refused rfl rfl rfl
  | releaseSession => exact .passed rfl rfl hrm
  | evictMarkedOwn =>
    refine .passed rfl rfl ?_
    dsimp only [exec]
    split_ifs
    · exact forall_mem_nil _
    · exact forall_mem_append.mpr ⟨hrm, ho _ ⟨rfl, trivial⟩⟩
  | leaseBound r =>
    dsimp only [exec]
    split
    · exact .passed rfl rfl (forall_mem_nil _)
    · exact .passed rfl rfl (passes_reassert r _)
  | release b sk =>
    obtain rfl : sk = key := hk
    have hp : ((s.counter.release env.nowMs sk).pendingReservations sk).length =
        (s.counter.pendingReservations sk).length := by
      rw [release, uncount_pending, pending_gcStalePending ht]
    exact .passed rfl hp (forall_mem_cons.mpr ⟨⟨rfl, trivial⟩, ho _ ⟨rfl, trivial⟩⟩)
  | delete =>
    dsimp only [exec]
    split_ifs <;> exact .passed rfl rfl (forall_mem_nil _)
  | readOwn => exact .passed rfl rfl (ho _ ⟨rfl, trivial⟩)
  | evictMarked es =>
    cases es with
    | nil => exact .passed rfl rfl (forall_mem_nil _)
    | cons =>
      refine .passed rfl rfl ?_
      dsimp only [exec]
      split_ifs
      · exact ho _ ⟨rfl, trivial⟩
      · exact forall_mem_cons.mpr ⟨⟨rfl, trivial⟩, ho _ ⟨rfl, trivial⟩⟩
      · exact ho _ ⟨rfl, trivial⟩
  | register | unregister | unlock | setPendingEviction | refreshHeartbeats | updateSessionStatus =>
    exact .passed rfl rfl (forall_mem_nil _)
  | reclaim | drain => exact hk.elim

end Bookings

/-! ### The places of the key -/

section Places

/-- The places of the key that are taken. -/
def Shared.counted (key : String) (s : Shared Unit) : ℕ := s.counter.counts key + s.counter.ghosts key

variable {se : Setup} {key : String} {e : Env} {s : Shared Unit} {x : Instr Unit}

/-- A reservation neither takes a place nor gives one back. -/
theorem checkAndReserve_counts (m n r : ℕ) (key : String) (d : SandboxCounterData) :
    (d.checkAndReserve m n r key).1.counts = d.counts ∧ (d.checkAndReserve m n r key).1.ghosts = d.ghosts := by
  rw [checkAndReserve]
  split_ifs <;> exact ⟨rfl, rfl⟩

theorem counted_cancel (s : Shared Unit) (key : String) (r : NewBackend) (ns : ℕ) :
    (s.cancel r ns).counted key = s.counted key := by
  rw [Shared.cancel]
  split_ifs <;> rfl

/-- **The places that are taken** change when a backend is confirmed or released. -/
theorem counted_exec (hk : x.Keyed se key) (hp : ∀ b, x.duty? = some (.release, b) → 0 < s.counted key) :
    (exec se () e s x).1.counted key + (if x.duty?.map fst = some .release then 1 else 0) =
      s.counted key + (if x.duty?.map fst = some .confirm then 1 else 0) := by
  have hs : x.duty? = none → (exec se () e s x).1.counted key = s.counted key →
      (exec se () e s x).1.counted key + (if x.duty?.map fst = some .release then 1 else 0) =
        s.counted key + (if x.duty?.map fst = some .confirm then 1 else 0) := fun hx h => by simp [hx, h]
  cases x with
  | confirm r =>
    obtain rfl : r.sandboxKey = key := (hk.2 hk.1).1
    have ht := countConfirmed_total se.maxPerKey r.sandboxKey
      ((s.counter.gcStalePending e.nowMs).popPending r.sandboxKey) r.sandboxKey
    rw [if_pos rfl] at ht
    exact ht
  | release bi sk =>
    obtain rfl : sk = key := hk
    have ht := uncount_total sk (s.counter.gcStalePending e.nowMs) sk
      (hp bi rfl)
    rw [if_pos rfl] at ht
    exact ht
  | reserve sk =>
    obtain ⟨hc, hg⟩ := checkAndReserve_counts se.maxPerKey e.nowMs e.nowMs sk s.counter
    refine hs rfl ?_
    simp only [exec, Shared.counted, hc, hg]
  | reserveChild r =>
    obtain ⟨hc, hg⟩ := checkAndReserve_counts se.maxPerKey e.nowMs e.nowMs r.sandboxKey s.counter
    refine hs rfl ?_
    dsimp only [exec]
    split
    · rfl
    · simp only [Shared.counted, hc, hg]
  | create r =>
    have hcn := counted_cancel s key r e.nowMs
    refine hs rfl ?_
    cases exec_create se () e s r with
    | gaveUp h | found _ h =>
      rw [h]
      exact hcn
    | counted _ _ _ _ h | uncounted _ _ _ _ h =>
      rw [h]
      rfl
  | insertCheckoutChild r =>
    refine hs rfl ?_
    dsimp only [exec]
    split
    · rfl
    · exact counted_cancel s key r e.nowMs
  | leaseBound =>
    refine hs rfl ?_
    dsimp only [exec]
    split <;> rfl
  | evictFirst es | evictMarked es => cases es <;> rfl
  | reclaim | drain => exact hk.elim
  | _ => rfl

end Places

/-! ### The keys of the backends in memory -/

section Memory

variable {st : Setup} {k : String} {env : Env} {s t : Shared Unit} {x : Instr Unit}

theorem KeyedMemory.remove (h : KeyedMemory st k s) (x : Instr Unit) :
    KeyedMemory st k (s.remember () (x.remove (s.memory ())).2) := by
  intro b e he hk
  obtain ⟨e', he', hc⟩ := config_of_remove (.inr he)
  rw [← hc] at hk ⊢
  exact h b e' he' hk

theorem KeyedMemory.insertBackend (h : KeyedMemory st k s) {r : NewBackend} (hr : r.Keyed st k) (i : String) :
    KeyedMemory st k (s.insertBackend () r i) := by
  intro b e he hk
  simp only [Shared.insertBackend, Shared.remember, Function.update_self, BackendManagerState.bind,
    get?_insert] at he
  split_ifs at he
  · obtain rfl := Option.some.inj he
    exact (hr hk).2
  · exact h b e he hk

theorem KeyedMemory.exec (h : KeyedMemory st k s) (hk : x.Keyed st k) : KeyedMemory st k (exec st () env s x).1 := by
  have hc : ∀ r, KeyedMemory st k (s.cancel r env.nowMs) := by
    intro r
    obtain ⟨c, hc⟩ := cancel_eq s r env.nowMs
    rw [hc]
    exact h
  cases x with
  | create r =>
    cases exec_create st () env s r with
    | gaveUp hr | found _ hr =>
      rw [hr]
      exact hc r
    | counted _ _ _ _ hr | uncounted _ _ _ _ hr =>
      rw [hr]
      exact h.insertBackend hk _
  | insertCheckoutChild r =>
    dsimp only [Processes.exec]
    split
    · exact h.insertBackend hk.2 _
    · exact hc r
  | releaseSession | evictOwn | evictMarkedOwn => exact h.remove _
  | leaseBound | reserveChild =>
    dsimp only [Processes.exec]
    split <;> exact h
  | evictFirst es | evictMarked es => cases es <;> exact h
  | reclaim | drain => exact hk.elim
  | _ => exact h

end Memory

end XiaoO.Backend.Processes
