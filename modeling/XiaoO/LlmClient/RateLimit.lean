import XiaoO.Base.Threads
import XiaoO.Base.TokenBucket

/-!
# The gate in front of the model endpoint

`rate_limit.rs`: a request first takes one of `max_concurrent` permits, which it gives back when its
guard is dropped, and then a token of a bucket of that capacity, into which `requests_per_minute`
tokens flow per minute. If there is none it sleeps, with the permit, as long as the deficit takes to
flow in, and tries again.

## The model

Times are seconds and tokens are numbers, both rational. The clock is part of the state and does not
go back. A call goes from await to await: it may be dropped while it waits for a permit or sleeps,
and its guard may be dropped at any time. A permit goes to any of the calls that wait for one. There
is no await between the moment a token is taken and the return of the call, so the log of these
moments is the log of the calls that got through.

## What is proved

In every run no more calls get through in a minute than the rate and the capacity allow, and no more
guards are held than there are permits (`within_limits_of_run`).
-/

namespace XiaoO.LlmClient.RateLimit

open XiaoO.Base Threads Finset

/-! ### The limiter -/

structure RateLimitSettings where
  maxConcurrent : ℕ := 8
  requestsPerMinute : ℕ := 40

structure TokenBucket where
  tokens : ℚ
  capacity : ℚ
  refillPerSec : ℚ
  lastRefill : ℚ

def TokenBucket.new (capacity : ℕ) (refillPerSec now : ℚ) : TokenBucket where
  tokens := capacity
  capacity := capacity
  refillPerSec := refillPerSec
  lastRefill := now

/-- The tokens that have come since the last time. -/
def TokenBucket.refill (bucket : TokenBucket) (now : ℚ) : TokenBucket :=
  let elapsed := max (now - bucket.lastRefill) 0
  if elapsed > 0 then
    { bucket with tokens := min (bucket.tokens + elapsed * bucket.refillPerSec) bucket.capacity, lastRefill := now }
  else bucket

/-- `TokenBucket::try_acquire`: nothing, or how long to wait for the next token. -/
def TokenBucket.tryAcquire (bucket : TokenBucket) (now : ℚ) : TokenBucket × Option ℚ :=
  let bucket := bucket.refill now
  if bucket.tokens ≥ 1 then ({ bucket with tokens := bucket.tokens - 1 }, none)
  else
    let deficit := 1 - bucket.tokens
    (bucket, some (deficit / bucket.refillPerSec))

/-- `EndpointLimiter`, the clock, and the times at which calls got through, the last one first. -/
structure State where
  now : ℚ
  permits : ℕ
  bucket : TokenBucket
  log : List ℚ

def State.new (settings : RateLimitSettings) (now : ℚ) : State where
  now := now
  permits := settings.maxConcurrent
  bucket := .new settings.maxConcurrent (settings.requestsPerMinute / 60) now
  log := []

/-- Where a call of `acquire` is. -/
inductive Call where
  | idle
  /-- It waits for a permit. -/
  | queued
  /-- It has a permit and tries to get a token. -/
  | trying
  | sleeping (till : ℚ)
  /-- It got through, and its `GateGuard` is held. -/
  | holding
  deriving DecidableEq

def Call.hasPermit : Call → Bool
  | .idle | .queued => false
  | .trying | .sleeping _ | .holding => true

inductive Act where
  /-- The clock goes on. -/
  | tick (now : ℚ)
  | acquire
  | permit
  | token
  | wake
  /-- The call or its guard is dropped. -/
  | drop

/-- `EndpointLimiter::acquire`, from one await to the next, and the drop of its guard. -/
def exec : Act → State → Call → Option (State × Call)
  | .tick now, s, call => if s.now ≤ now then some ({ s with now }, call) else none
  | .acquire, s, .idle => some (s, .queued)
  | .permit, s, .queued => if s.permits > 0 then some ({ s with permits := s.permits - 1 }, .trying) else none
  | .token, s, .trying =>
    match s.bucket.tryAcquire s.now with
    | (bucket, none) => some ({ s with bucket, log := s.now :: s.log }, .holding)
    | (bucket, some wait) => some ({ s with bucket }, .sleeping (s.now + wait))
  | .wake, s, .sleeping till => if till ≤ s.now then some (s, .trying) else none
  | .drop, s, .queued => some (s, .idle)
  | .drop, s, .sleeping _ => some ({ s with permits := s.permits + 1 }, .idle)
  | .drop, s, .holding => some ({ s with permits := s.permits + 1 }, .idle)
  | _, _, _ => none

variable {ι : Type*} [DecidableEq ι]

/-- Calls `ι` of one limiter. -/
abbrev World (ι : Type*) := Threads ι State Call

def start (settings : RateLimitSettings) (now : ℚ) : World ι := ⟨.new settings now, fun _ => .idle⟩

/-! ### What a step does -/

/-- What a step does to the limiter and to the call that takes it. -/
inductive Effect (s : State) : Call → State → Call → Prop
  | ticked {now : ℚ} (hnow : s.now ≤ now) (call : Call) : Effect s call { s with now } call
  /-- The limiter stays as it is, and so does whether the call has a permit. -/
  | moved {call call' : Call} (hpermit : call'.hasPermit = call.hasPermit) : Effect s call s call'
  | permitted (hpermits : 0 < s.permits) : Effect s .queued { s with permits := s.permits - 1 } .trying
  | through (htokens : 1 ≤ (s.bucket.refill s.now).tokens) : Effect s .trying
        { s with
          bucket := { s.bucket.refill s.now with tokens := (s.bucket.refill s.now).tokens - 1 }
          log := s.now :: s.log } .holding
  | delayed (till : ℚ) : Effect s .trying { s with bucket := s.bucket.refill s.now } (.sleeping till)
  | released {call : Call} (hpermit : call.hasPermit = true) :
      Effect s call { s with permits := s.permits + 1 } .idle

theorem exec_effect {a : Act} {s s' : State} {c call' : Call} (h : exec a s c = some (s', call')) :
    Effect s c s' call' := by
  unfold exec at h
  split at h
  · split_ifs at h with hn
    cases h
    exact .ticked hn _
  · cases h
    exact .moved rfl
  · split_ifs at h with hp
    cases h
    exact .permitted hp
  · unfold TokenBucket.tryAcquire at h
    dsimp only at h
    split_ifs at h with ht
    · cases h
      exact .through ht
    · cases h
      exact .delayed _
  · split_ifs at h
    cases h
    exact .moved rfl
  · cases h
    exact .moved rfl
  · cases h
    exact .released rfl
  · cases h
    exact .released rfl
  · cases h

/-! ### The bucket -/

/-- What a refill is while the clock goes on. -/
theorem TokenBucket.refill_eq {b : TokenBucket} {now : ℚ} (hcl : b.lastRefill ≤ now)
    (hc : b.tokens ≤ b.capacity) :
    b.refill now =
      { b with
        tokens := min (b.tokens + (now - b.lastRefill) * b.refillPerSec) b.capacity
        lastRefill := now } := by
  have he : max (now - b.lastRefill) 0 = now - b.lastRefill := max_eq_left (sub_nonneg.mpr hcl)
  unfold TokenBucket.refill
  rw [he]
  by_cases hl : now - b.lastRefill > 0
  · rw [if_pos hl]
  · -- no time has passed, and the bucket is not over its capacity
    have hn : now = b.lastRefill := le_antisymm (by linarith) hcl
    rw [if_neg hl, hn, sub_self, zero_mul, add_zero, min_eq_left hc]

/-- The bucket is kept as the settings say, and its books are right. -/
structure BucketKept (settings : RateLimitSettings) (s : State) : Prop where
  capacity : s.bucket.capacity = settings.maxConcurrent
  rate : s.bucket.refillPerSec = settings.requestsPerMinute / 60
  clock : s.bucket.lastRefill ≤ s.now
  metered : Metered s.bucket.capacity s.bucket.refillPerSec s.bucket.tokens s.bucket.lastRefill s.log

variable {settings : RateLimitSettings} {s s' : State} {c call' : Call}

theorem BucketKept.rate_nonneg (h : BucketKept settings s) : 0 ≤ s.bucket.refillPerSec := by
  rw [h.rate]
  positivity

theorem bucketKept_new (settings : RateLimitSettings) (n : ℚ) : BucketKept settings (.new settings n) where
  capacity := rfl
  rate := rfl
  clock := le_rfl
  metered := metered_full (Nat.cast_nonneg _) (by show (0 : ℚ) ≤ _ / 60; positivity) n

theorem BucketKept.refill (h : BucketKept settings s) :
    BucketKept settings { s with bucket := s.bucket.refill s.now } := by
  rw [TokenBucket.refill_eq h.clock h.metered.le_capacity]
  exact ⟨h.capacity, h.rate, le_rfl, h.metered.refill h.rate_nonneg h.clock⟩

theorem BucketKept.take (h : BucketKept settings s) (ht : 1 ≤ s.bucket.tokens) (hn : s.bucket.lastRefill = s.now) :
    BucketKept settings
      { s with bucket := { s.bucket with tokens := s.bucket.tokens - 1 }, log := s.now :: s.log } := by
  refine ⟨h.capacity, h.rate, h.clock, ?_⟩
  show Metered _ _ _ s.bucket.lastRefill (s.now :: s.log)
  rw [← hn]
  exact h.metered.take h.rate_nonneg ht

theorem BucketKept.step (h : BucketKept settings s) (he : Effect s c s' call') : BucketKept settings s' := by
  cases he with
  | ticked hn => exact ⟨h.capacity, h.rate, h.clock.trans hn, h.metered⟩
  | moved => exact h
  | permitted | released => exact ⟨h.capacity, h.rate, h.clock, h.metered⟩
  | through ht =>
    refine h.refill.take ht ?_
    rw [TokenBucket.refill_eq h.clock h.metered.le_capacity]
  | delayed => exact h.refill

/-! ### The permits -/

/-- Each of the `total` permits is free or with a call. -/
def PermitsKept (total : ℕ) (w : World ι) : Prop :=
  ∃ holders : Finset ι, (∀ i, i ∈ holders ↔ (w.thread i).hasPermit = true) ∧ holders.card + w.shared.permits = total

variable {total : ℕ} {w : World ι} {i : ι}

section

variable (h : PermitsKept total w)
include h

theorem PermitsKept.put_same (hp : s'.permits = w.shared.permits)
    (hs : call'.hasPermit = (w.thread i).hasPermit) : PermitsKept total (w.put i s' call') := by
  obtain ⟨holders, hh, hc⟩ := h
  refine ⟨holders, fun k => ?_, by rw [put_shared, hp, hc]⟩
  by_cases hk : k = i
  · rw [hk, put_thread_self, hs, hh]
  · rw [put_thread_of_ne _ _ _ hk, hh]

theorem PermitsKept.put_taken (hb : (w.thread i).hasPermit = false)
    (ha : call'.hasPermit = true) (hp : s'.permits + 1 = w.shared.permits) :
      PermitsKept total (w.put i s' call') := by
  obtain ⟨holders, hh, hc⟩ := h
  have hn : i ∉ holders := by simp [hh, hb]
  refine ⟨insert i holders, fun k => ?_, ?_⟩
  · by_cases hk : k = i
    · simp [hk, ha]
    · rw [put_thread_of_ne _ _ _ hk, mem_insert, hh]
      simp [hk]
  · rw [card_insert_of_notMem hn, put_shared]
    omega

theorem PermitsKept.put_given_back (hb : (w.thread i).hasPermit = true)
    (ha : call'.hasPermit = false) (hp : s'.permits = w.shared.permits + 1) :
      PermitsKept total (w.put i s' call') := by
  obtain ⟨holders, hh, hc⟩ := h
  have ho : i ∈ holders := (hh i).mpr hb
  refine ⟨holders.erase i, fun k => ?_, ?_⟩
  · by_cases hk : k = i
    · simp [hk, ha]
    · rw [put_thread_of_ne _ _ _ hk, mem_erase, hh]
      simp [hk]
  · have hps : 0 < holders.card := card_pos.mpr ⟨i, ho⟩
    rw [card_erase_of_mem ho, put_shared]
    omega

theorem PermitsKept.step (he : Effect w.shared (w.thread i) s' call') : PermitsKept total (w.put i s' call') := by
  generalize hc : w.thread i = c at he
  cases he with
  | ticked => exact h.put_same rfl (by rw [hc])
  | moved hs => exact h.put_same rfl (by rw [hc, hs])
  | permitted hp =>
    exact h.put_taken (by rw [hc]; rfl) rfl (Nat.sub_add_cancel hp)
  | through | delayed => exact h.put_same rfl (by rw [hc]; rfl)
  | released hpr => exact h.put_given_back (by rw [hc, hpr]) rfl rfl

omit [DecidableEq ι] in
/-- No more calls hold a guard than there are permits. -/
theorem PermitsKept.card_le {gs : Finset ι} (hg : ∀ i ∈ gs, w.thread i = .holding) : gs.card ≤ total := by
  obtain ⟨holders, hh, hc⟩ := h
  have hs : gs ⊆ holders := fun i hi => by
    rw [hh, hg i hi]
    rfl
  have hle : gs.card ≤ holders.card := card_le_card hs
  omega

end

/-! ### The limits -/

/-- What the gate promises. -/
structure WithinLimits (settings : RateLimitSettings) (w : World ι) : Prop where
  /-- In no minute does more get through than the rate and the capacity allow. -/
  window : ∀ t, takenIn t (t + 60) w.shared.log ≤ settings.requestsPerMinute + settings.maxConcurrent
  /-- There are never more guards than permits. -/
  guards : ∀ guards : Finset ι, (∀ i ∈ guards, w.thread i = .holding) → guards.card ≤ settings.maxConcurrent

theorem BucketKept.window (h : BucketKept settings s) (t : ℚ) :
    takenIn t (t + 60) s.log ≤ settings.requestsPerMinute + settings.maxConcurrent := by
  have hb := h.metered.window t (by norm_num : (0 : ℚ) ≤ 60)
  have hm : s.bucket.capacity + 60 * s.bucket.refillPerSec =
      (settings.requestsPerMinute + settings.maxConcurrent : ℕ) := by
    rw [h.capacity, h.rate]
    push_cast
    ring
  rw [hm] at hb
  exact_mod_cast hb

/-- **The gate**: in every run of calls and drops, in whatever order, the limiter keeps to its
limits. -/
theorem within_limits_of_run {now : ℚ}
    (hrun : RunUnder (Threads.step exec) Always (start settings now) w) : WithinLimits settings w := by
  have hi : BucketKept settings w.shared ∧ PermitsKept settings.maxConcurrent w := by
    refine hrun.invariant (I := fun v : World ι => BucketKept settings v.shared ∧
      PermitsKept settings.maxConcurrent v)
      ⟨bucketKept_new settings now, ∅, fun i => ?_, ?_⟩ ?_
    · simp [start, Call.hasPermit]
    · simp [start, State.new]
    · rintro v l v' ⟨hb, hp⟩ - hs
      obtain ⟨s', call', ha, rfl⟩ := step_eq_some.mp hs
      have he := exec_effect ha
      exact ⟨hb.step he, hp.step he⟩
  exact ⟨hi.1.window, fun gs hg => hi.2.card_le hg⟩

/-- One permit and a token a second: a second call waits for the guard of the first, finds no token,
and sleeps a second. -/
theorem within_limits_of_run_sleeping : ∃ w : World (Fin 2), RunUnder (Threads.step exec) Always
    (start ⟨1, 60⟩ 0) w ∧
      (w.thread 1 = .holding ∧ w.shared.log = [1, 0]) ∧ WithinLimits ⟨1, 60⟩ w :=
  (exists_run_of_exec _ _ _ _
    [(0, .acquire), (1, .acquire), (0, .permit), (0, .token), (0, .drop), (1, .permit), (1, .token),
      (1, .tick (1 / 2)),
      (1, .tick 1), (1, .wake), (1, .token)] (by decide +kernel)).imp
    fun w ⟨hr, he⟩ => ⟨hr, he, within_limits_of_run hr⟩

end XiaoO.LlmClient.RateLimit
