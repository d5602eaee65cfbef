import XiaoO.Base.Runs
import XiaoO.Base.SortedMap
import Mathlib.Algebra.Ring.Nat

/-!
# The coordinator of writers and process creators

`process-coordination/src/lib.rs`: writers of executable files and creators of processes exclude
each other, but each group may run concurrently. A request is admitted if nobody holds, or if its
group does and the batch is not sealed; else it is queued, and seals the batch. The last holder to
leave lets in the whole queue of the other group, or else that of its own.

## The model

Each critical section of the mutex is one step: a request, a poll and the drop of a `Request`,
whether it was admitted or not. A panic is no step. Wakers are numbers.

## What is proved

What a step does (`step_effect`), and in every state of every run: who is admitted is of the active
group, the queues are those who wait, in the order of their requests, and nobody waits if nobody
holds (`group_exclusion_of_run`). A drop of a live request does not panic, and wakes whom it admits
(`release_of_run`).
-/

namespace XiaoO.ProcessCoordination

open XiaoO.Base List SortedMap Option Bool Function

/-! ### The coordinator -/

inductive Group where
  | write
  | spawn
  deriving DecidableEq

def Group.opposite : Group → Group
  | .write => .spawn
  | .spawn => .write

structure Entry where
  group : Group
  admitted : Bool
  waker : Option ℕ
  deriving DecidableEq

/-- `State`, by default the one at the start. -/
structure State where
  nextId : ℕ := 0
  active : Option Group := none
  holders : ℕ := 0
  sealed : Bool := false
  entries : SortedMap ℕ Entry := .empty
  queues : Group → List ℕ := fun _ => []

open State

variable (s : State) (id : ℕ) (previous group : Group)

/-- `Coordinator::request`, unless there is no id left. -/
def State.request : Option State :=
  let id := s.nextId
  if id + 1 < 2 ^ 64 then
    let admitted := s.active.isNone || s.active = some group && !s.sealed
    let entries := s.entries.insert id { group, admitted, waker := none }
    if admitted then
      some { s with nextId := id + 1, active := some group, holders := s.holders + 1, entries }
    else
      some { s with
        nextId := id + 1, sealed := true, queues := update s.queues group (s.queues group ++ [id]), entries }
  else none

/-- The entries of a batch are admitted. Also returns their wakers. -/
def admitBatch (entries : SortedMap ℕ Entry) : List ℕ → Option (SortedMap ℕ Entry × List ℕ)
  | [] => some (entries, [])
  | id :: batch =>
    match entries.get? id with
    | none => none
    | some entry =>
      (admitBatch (entries.insert id { entry with admitted := true, waker := none }) batch).map
        fun (entries, wake) =>
        (entries, entry.waker.toList ++ wake)

/-- The group whose queue is let in, after a batch of `previous`. -/
def State.next? : Option Group :=
  [previous.opposite, previous].find? fun group => !(s.queues group).isEmpty

/-- The last holder has left. -/
def State.turnOver : Option (State × List ℕ) :=
  match s.next? previous with
  | some group =>
    let batch := s.queues group
    (admitBatch s.entries batch).map fun (entries, wake) =>
      ({ s with
        active := some group
        sealed := true
        queues := update s.queues group []
        holders := batch.length
        entries }, wake)
  | none => some ({ s with active := none, sealed := false }, [])

/-- The entry leaves, the holders or its queue. -/
def State.remove (entry : Entry) : State :=
  let entries := s.entries.erase id
  if entry.admitted then { s with holders := s.holders - 1, entries }
  else { s with queues := update s.queues entry.group ((s.queues entry.group).filter (· ≠ id)), entries }

/-- `Coordinator::release`. Also returns whom it wakes. -/
def State.release : Option (State × List ℕ) :=
  match s.entries.get? id with
  | none => none
  | some entry =>
    let t := s.remove id entry
    if t.holders = 0 then t.turnOver (t.active.getD entry.group) else some (t, [])

/-- `Acquire::poll`: whether the permit is ready. -/
def State.poll (waker : ℕ) : Option (State × Bool) :=
  match s.entries.get? id with
  | none => none
  | some entry =>
    if entry.admitted then some (s, true)
    else some ({ s with entries := s.entries.insert id { entry with waker := some waker } }, false)

inductive Act where
  | request (group : Group)
  | poll (id waker : ℕ)
  /-- `Request::drop`. -/
  | drop (id : ℕ)
  deriving DecidableEq

def step : Act → Option State
  | .request group => s.request group
  | .poll id waker => (s.poll id waker).map Prod.fst
  | .drop id => (s.release id).map Prod.fst

/-! ### What a step does -/

/-- Who waits in a group, in the order of the requests. -/
def State.waiting : List ℕ := s.entries.keysWhere fun e => e.group = group && !e.admitted

/-- Who is admitted. -/
def State.holding : List ℕ := s.entries.keysWhere Entry.admitted

def Entry.letIn (entry : Entry) : Entry := { entry with admitted := true, waker := none }

theorem get?_admitBatch {es es' : SortedMap ℕ Entry} {b w : List ℕ} (h : admitBatch es b = some (es', w)) (k : ℕ) :
    es'.get? k = if k ∈ b then (es.get? k).map Entry.letIn else es.get? k := by
  induction b generalizing es w with
  | nil =>
    cases h
    simp
  | cons id b ih =>
    rw [admitBatch] at h
    split at h
    · cases h
    · next e he =>
      obtain ⟨⟨es'', w'⟩, hr, heq⟩ := map_eq_some_iff.mp h
      cases heq
      rw [ih hr, get?_insert]
      by_cases hk : k = id
      · subst hk
        simp [he, Entry.letIn]
      · simp [hk]

theorem admitBatch_isSome {es : SortedMap ℕ Entry} {b : List ℕ} (h : ∀ id ∈ b, (es.get? id).isSome) :
    (admitBatch es b).isSome := by
  induction b generalizing es with
  | nil => rfl
  | cons id b ih =>
    obtain ⟨e, he⟩ := isSome_iff_exists.mp (h id mem_cons_self)
    rw [admitBatch, he, isSome_map]
    refine ih fun k hk => ?_
    rw [get?_insert]
    split_ifs
    · rfl
    · exact h k (mem_cons_of_mem id hk)

/-- A batch of `previous` has left, and whoever waits in `group` is let in. -/
structure HandedOver (t : State) : Prop where
  next : s.next? previous = some group
  nextId : t.nextId = s.nextId
  active : t.active = some group
  sealed : t.sealed = true
  queues : t.queues = update s.queues group []
  holders : t.holders = (s.queues group).length
  entries : ∀ k, t.entries.get? k = if k ∈ s.queues group then (s.entries.get? k).map Entry.letIn
    else s.entries.get? k

/-- What a step does. -/
inductive Effect (s : State) : Act → State → Prop
  | admitted {group : Group} (hopen : s.active = none ∨ s.active = some group ∧ s.sealed = false) :
      Effect s (.request group) { s with
        nextId := s.nextId + 1
        active := some group
        holders := s.holders + 1
        entries := s.entries.insert s.nextId { group, admitted := true, waker := none } }
  | queued {group : Group} (hbusy : s.active ≠ none) :
      Effect s (.request group) { s with
        nextId := s.nextId + 1
        sealed := true
        queues := update s.queues group (s.queues group ++ [s.nextId])
        entries := s.entries.insert s.nextId { group, admitted := false, waker := none } }
  | ready {id waker : ℕ} : Effect s (.poll id waker) s
  | pending {id waker : ℕ} {entry : Entry} (hentry : s.entries.get? id = some entry)
      (hwaits : entry.admitted = false) :
      Effect s (.poll id waker) { s with entries := s.entries.insert id { entry with waker := some waker } }
  | left {id : ℕ} {entry : Entry} (hentry : s.entries.get? id = some entry)
      (hholders : (s.remove id entry).holders ≠ 0) :
      Effect s (.drop id) (s.remove id entry)
  | handedOver {id : ℕ} {entry : Entry} {group : Group} {t : State} (hentry : s.entries.get? id = some entry)
      (hholders : (s.remove id entry).holders = 0)
      (hover : HandedOver (s.remove id entry) (s.active.getD entry.group) group t) : Effect s (.drop id) t
  | emptied {id : ℕ} {entry : Entry} (hentry : s.entries.get? id = some entry)
      (hholders : (s.remove id entry).holders = 0)
      (hnext : (s.remove id entry).next? (s.active.getD entry.group) = none) :
      Effect s (.drop id) { s.remove id entry with active := none, sealed := false }

theorem remove_active (e : Entry) : (s.remove id e).active = s.active := by
  rw [remove]
  split_ifs <;> rfl

variable {group p : Group} {s t : State} {id : ℕ} {entry : Entry}

theorem request_effect (h : s.request group = some t) : Effect s (.request group) t := by
  dsimp only [request] at h
  split_ifs at h with hid ha
  · cases h
    rw [ha]
    refine .admitted ?_
    simpa [isNone_iff_eq_none] using ha
  · cases h
    rw [eq_false_of_not_eq_true ha]
    refine .queued fun hn => ha ?_
    simp [hn]

theorem turnOver_eq_some {w : List ℕ} (h : s.turnOver p = some (t, w)) : (∃ group, HandedOver s p group t) ∨
      s.next? p = none ∧ t = { s with active := none, sealed := false } := by
  rw [turnOver] at h
  split at h
  · next group hn =>
    obtain ⟨⟨es, w'⟩, ha, heq⟩ := map_eq_some_iff.mp h
    cases heq
    exact .inl ⟨group, hn, rfl, rfl, rfl, rfl, rfl, get?_admitBatch ha⟩
  · next hn =>
    cases h
    exact .inr ⟨hn, rfl⟩

theorem step_effect {a : Act} (h : step s a = some t) : Effect s a t := by
  cases a with
  | request => exact request_effect h
  | poll =>
    obtain ⟨⟨t', r⟩, hp, rfl⟩ := map_eq_some_iff.mp h
    rw [poll] at hp
    split at hp
    · cases hp
    · next entry he =>
      split_ifs at hp with ha <;> cases hp
      · exact .ready
      · exact .pending he (eq_false_of_not_eq_true ha)
  | drop =>
    obtain ⟨⟨t', w⟩, hr, rfl⟩ := map_eq_some_iff.mp h
    dsimp only [release] at hr
    split at hr
    · cases hr
    · next entry he =>
      split_ifs at hr with hh
      · rw [remove_active] at hr
        rcases turnOver_eq_some hr with ⟨group, ho⟩ | ⟨hn, rfl⟩
        · exact .handedOver he hh ho
        · exact .emptied he hh hn
      · cases hr
        exact .left he hh

/-! ### Groups exclude each other -/

/-- The entries, the holders and the queues agree. -/
structure Consistent (s : State) : Prop where
  /-- Ids are given in the order of the requests. -/
  fresh : ∀ {id entry}, s.entries.get? id = some entry → id < s.nextId
  /-- All that are admitted belong to the active group. -/
  active : ∀ {id entry}, s.entries.get? id = some entry → entry.admitted = true → s.active = some entry.group
  holders : s.holders = s.holding.length
  /-- The queues are those who wait, each once, in the order of their requests. -/
  queued : ∀ group, s.queues group = s.waiting group

/-- **Group exclusion.** -/
structure GroupExclusion (s : State) : Prop extends Consistent s where
  inOrder : ∀ group, (s.queues group).Pairwise (· < ·)
  /-- Nobody waits if nobody holds. -/
  stranded : s.holders = 0 → ∀ group, s.queues group = []

structure Inv (s : State) : Prop extends Consistent s where
  stranded : s.holders = 0 → ∀ group, s.queues group = []
  idle : s.holders = 0 → s.active = none

theorem Consistent.inOrder (h : Consistent s) (group : Group) : (s.queues group).Pairwise (· < ·) := by
  rw [h.queued]
  exact s.entries.pairwise_keysWhere _

theorem mem_waiting :
    id ∈ s.waiting group ↔ ∃ entry, s.entries.get? id = some entry ∧ entry.group = group ∧
      entry.admitted = false := by
  simp [waiting, mem_keysWhere]

theorem mem_holding : id ∈ s.holding ↔ ∃ entry, s.entries.get? id = some entry ∧ entry.admitted = true :=
  mem_keysWhere

theorem Consistent.nobody (h : Consistent s) (hz : s.holders = 0)
    (he : s.entries.get? id = some entry) : entry.admitted = false := by
  have hn : s.holding = [] := eq_nil_of_length_eq_zero (h.holders.symm.trans hz)
  refine eq_false_of_not_eq_true fun ha => ?_
  exact not_mem_nil (hn ▸ mem_holding.mpr ⟨entry, he, ha⟩)

theorem inv_default : Inv {} where
  fresh h := by cases h
  active h := by cases h
  holders := rfl
  queued _ := rfl
  stranded _ _ := rfl
  idle _ := rfl

theorem Inv.admitted (h : Inv s) (ho : s.active = none ∨ s.active = some group ∧ s.sealed = false) :
    Inv { s with
      nextId := s.nextId + 1
      active := some group
      holders := s.holders + 1
      entries := s.entries.insert s.nextId { group, admitted := true, waker := none } } where
  fresh {id entry} he := by
    rw [get?_insert] at he
    split_ifs at he with hid
    · exact hid ▸ Nat.lt_succ_self _
    · exact (h.fresh he).trans (Nat.lt_succ_self _)
  active {id entry} he had := by
    rw [get?_insert] at he
    split_ifs at he with hid
    · cases he
      rfl
    · have ha := h.active he had
      rcases ho with hn | ⟨hs, -⟩
      · exact absurd (hn.symm.trans ha) nofun
      · exact hs.symm.trans ha
  holders := by
    rw [holding, keysWhere_insert_last fun _ _ hg => h.fresh hg, length_append, h.holders]
    rfl
  queued group' := by
    rw [waiting, keysWhere_insert_last fun _ _ hg => h.fresh hg, h.queued]
    simp [waiting]
  stranded hz := absurd hz (Nat.succ_ne_zero _)
  idle hz := absurd hz (Nat.succ_ne_zero _)

theorem Inv.queue (h : Inv s) (hb : s.active ≠ none) :
    Inv { s with
      nextId := s.nextId + 1
      sealed := true
      queues := update s.queues group (s.queues group ++ [s.nextId])
      entries := s.entries.insert s.nextId { group, admitted := false, waker := none } } where
  fresh {id entry} he := by
    rw [get?_insert] at he
    split_ifs at he with hid
    · exact hid ▸ Nat.lt_succ_self _
    · exact (h.fresh he).trans (Nat.lt_succ_self _)
  active {id entry} he ha := by
    rw [get?_insert] at he
    split_ifs at he with hid
    · cases he
      cases ha
    · exact h.active he ha
  holders := by
    rw [holding, keysWhere_insert_last fun _ _ hg => h.fresh hg, h.holders]
    simp [holding]
  queued group' := by
    rw [waiting, keysWhere_insert_last fun _ _ hg => h.fresh hg]
    rcases eq_or_ne group' group with rfl | hne
    · simp [h.queued, waiting]
    · simp [h.queued, waiting, hne, hne.symm]
  stranded hz := absurd (h.idle hz) hb
  idle hz := h.idle hz

theorem Inv.poll (h : Inv s) {waker : ℕ} (he : s.entries.get? id = some entry) :
    Inv { s with entries := s.entries.insert id { entry with waker := some waker } } := by
  -- the entry is of the kind that it was
  have hkn (p : Entry → Bool) (hp : p { entry with waker := some waker } = p entry) :
      (s.entries.insert id { entry with waker := some waker }).keysWhere p = s.entries.keysWhere p := by
    refine keysWhere_congr fun k => ?_
    rw [get?_insert]
    by_cases hk : k = id
    · simp [hk, he, hp]
    · simp [hk]
  refine ⟨⟨fun {k e} hg => ?_, fun {k e} hg ha => ?_, ?_, fun group => ?_⟩, h.stranded, h.idle⟩
  · rw [get?_insert] at hg
    split_ifs at hg with hk
    · subst hk
      exact h.fresh he
    · exact h.fresh hg
  · rw [get?_insert] at hg
    split_ifs at hg with hk
    · cases hg
      have hac := h.active he ha
      exact hac
    · exact h.active hg ha
  · rw [holding, hkn _ rfl]
    exact h.holders
  · rw [waiting, hkn _ rfl]
    exact h.queued group

theorem remove_nextId (s : State) (id : ℕ) (entry : Entry) : (s.remove id entry).nextId = s.nextId := by
  rw [remove]
  split_ifs <;> rfl

theorem remove_entries (s : State) (id : ℕ) (entry : Entry) : (s.remove id entry).entries = s.entries.erase id := by
  rw [remove]
  split_ifs <;> rfl

theorem keysWhere_erase_of_not (hen : s.entries.get? id = some entry)
    {p : Entry → Bool} (hp : p entry = false) : (s.entries.erase id).keysWhere p = s.entries.keysWhere p := by
  rw [keysWhere_erase, filter_eq_self]
  intro k hk
  obtain ⟨e, he, hpe⟩ := mem_keysWhere.mp hk
  refine decide_eq_true fun heq => ?_
  obtain rfl : entry = e := some.inj (hen.symm.trans (heq ▸ he))
  rw [hp] at hpe
  cases hpe

theorem Consistent.remove (h : Consistent s)
    (he : s.entries.get? id = some entry) : Consistent (s.remove id entry) where
  fresh hg := by
    rw [remove_entries, get?_erase] at hg
    split_ifs at hg
    rw [remove_nextId]
    exact h.fresh hg
  active hg ha := by
    rw [remove_entries, get?_erase] at hg
    split_ifs at hg
    rw [remove_active]
    exact h.active hg ha
  holders := by
    rw [holding, remove_entries]
    cases ha : entry.admitted with
    | true =>
      have hm : id ∈ s.holding := mem_holding.mpr ⟨entry, he, ha⟩
      have hn : s.holding.Nodup := (s.entries.pairwise_keysWhere _).imp fun hlt => hlt.ne
      have her : (s.entries.erase id).keysWhere Entry.admitted = s.holding.erase id := by
        rw [keysWhere_erase, hn.erase_eq_filter]
        exact filter_congr fun k _ => by by_cases hk : k = id <;> simp [hk]
      rw [her, length_erase_of_mem hm, ← h.holders, State.remove, if_pos ha]
    | false =>
      rw [keysWhere_erase_of_not he ha, State.remove, if_neg (by simp [ha])]
      exact h.holders
  queued group := by
    rw [waiting, remove_entries]
    cases ha : entry.admitted with
    | true =>
      rw [keysWhere_erase_of_not he (by simp [ha]), State.remove, if_pos ha]
      exact h.queued group
    | false =>
      rw [State.remove, if_neg (by simp [ha])]
      rcases eq_or_ne group entry.group with rfl | hne
      · rw [keysWhere_erase, ← waiting, ← h.queued]
        simp
      · rw [keysWhere_erase_of_not he (by simp [hne.symm]), ← waiting, ← h.queued]
        simp [hne]

theorem next?_eq_some (h : s.next? p = some group) :
    s.queues group ≠ [] ∧ (group = p.opposite ∨ group = p ∧ s.queues p.opposite = []) := by
  rw [State.next?, find?_cons] at h
  split at h
  · next ho =>
    cases h
    exact ⟨by simpa using ho, .inl rfl⟩
  · next ho =>
    rw [find?_singleton] at h
    split_ifs at h with hp
    cases h
    exact ⟨by simpa using hp, .inr ⟨rfl, by simpa using ho⟩⟩

theorem next?_eq_none (h : s.next? p = none) (group : Group) : s.queues group = [] := by
  have he : ∀ g ∈ [p.opposite, p], s.queues g = [] := by simpa [State.next?] using h
  refine he group ?_
  cases group <;> cases p <;> decide

/-- The queue is let in when nobody holds. -/
theorem HandedOver.inv (ho : HandedOver s p group t) (h : Consistent s) (hzr : s.holders = 0) : Inv t := by
  have hn {k : ℕ} {e : Entry} (hg : s.entries.get? k = some e) : e.admitted = false := h.nobody hzr hg
  have hb {k : ℕ} : k ∈ s.queues group ↔ ∃ e, s.entries.get? k = some e ∧ e.group = group := by
    rw [h.queued, mem_waiting]
    exact exists_congr fun e => and_congr_right fun hg => and_iff_left (hn hg)
  have hl : t.holders ≠ 0 := by
    rw [ho.holders, length_eq_zero_iff.ne]
    exact (next?_eq_some ho.next).1
  -- who is in the batch was of the group and is admitted, and the others are as they were
  have hc {k : ℕ} {e : Entry} (hg : t.entries.get? k = some e) :
      (k ∈ s.queues group ∧ e.group = group ∧ e.admitted = true ∧ (s.entries.get? k).isSome) ∨
        k ∉ s.queues group ∧ s.entries.get? k = some e := by
    rw [ho.entries] at hg
    split_ifs at hg with hm
    · obtain ⟨e', hg', rfl⟩ := map_eq_some_iff.mp hg
      obtain ⟨e'', hg'', hgr⟩ := hb.mp hm
      obtain rfl : e' = e'' := some.inj (hg'.symm.trans hg'')
      exact .inl ⟨hm, hgr, rfl, by simp [hg']⟩
    · exact .inr ⟨hm, hg⟩
  refine ⟨⟨fun {k e} hg => ?_, fun {k e} hg ha => ?_, ?_, fun g' => ?_⟩, fun hz =>
    absurd hz hl, fun hz => absurd hz hl⟩
  · rw [ho.nextId]
    rcases hc hg with ⟨-, -, -, hs⟩ | ⟨-, hg⟩
    · obtain ⟨e', hg'⟩ := isSome_iff_exists.mp hs
      exact h.fresh hg'
    · exact h.fresh hg
  · rw [ho.active]
    rcases hc hg with ⟨-, hgr, -⟩ | ⟨-, hg⟩
    · rw [hgr]
    · rw [hn hg] at ha
      cases ha
  · rw [ho.holders]
    refine congrArg length (keysWhere_eq (h.inOrder group) fun k => ?_).symm
    constructor
    · intro hm
      obtain ⟨e, hg, -⟩ := hb.mp hm
      exact ⟨e.letIn, by rw [ho.entries, if_pos hm, hg]; rfl, rfl⟩
    · rintro ⟨e, hg, ha⟩
      rcases hc hg with ⟨hm, -⟩ | ⟨-, hg⟩
      · exact hm
      · rw [hn hg] at ha
        cases ha
  · rw [ho.queues]
    rcases eq_or_ne g' group with rfl | hne
    · rw [update_self]
      refine (keysWhere_eq .nil fun k => ?_).symm
      constructor
      · intro hm
        cases hm
      · rintro ⟨e, hg, hw⟩
        rw [and_eq_true, decide_eq_true_eq, not_eq_true'] at hw
        rcases hc hg with ⟨-, -, ha, -⟩ | ⟨hnt, hg⟩
        · rw [ha] at hw
          cases hw.2
        · exact absurd (hb.mpr ⟨e, hg, hw.1⟩) hnt
    · rw [update_of_ne hne, h.queued]
      refine keysWhere_congr fun k => ?_
      rw [ho.entries]
      split_ifs with hm
      · obtain ⟨e, hg, hgr⟩ := hb.mp hm
        simp [hg, hgr, hne.symm, Entry.letIn]
      · exact Iff.rfl

/-- **The step lemma.** -/
theorem Inv.step {a : Act} (h : Inv s) (hs : step s a = some t) : Inv t := by
  cases step_effect hs with
  | admitted ho => exact h.admitted ho
  | queued hb => exact h.queue hb
  | ready => exact h
  | pending he => exact h.poll he
  | left he hh =>
    exact ⟨h.toConsistent.remove he, fun hz => absurd hz hh, fun hz => absurd hz hh⟩
  | handedOver he hh hov => exact hov.inv (h.toConsistent.remove he) hh
  | emptied he hh hn =>
    have hr := h.toConsistent.remove he
    refine ⟨⟨hr.fresh, fun hg ha => ?_, hr.holders, hr.queued⟩, fun _ => next?_eq_none hn, fun _ => rfl⟩
    rw [hr.nobody hh hg] at ha
    cases ha

theorem inv_of_run (hr : RunUnder step Always {} s) : Inv s :=
  hr.invariant (I := Inv) inv_default fun h _ hs => h.step hs

/-- **Group exclusion**, in every state of every run of requests, polls and drops. -/
theorem group_exclusion_of_run {s : State} (hrun : RunUnder step Always {} s) : GroupExclusion s := by
  have hi := inv_of_run hrun
  exact ⟨hi.toConsistent, hi.inOrder, hi.stranded⟩

/-- Two writers, a creator that waits, a writer that waits behind it and is dropped, and the first
writer leaves. -/
theorem group_exclusion_of_run_cancelled :
    ∃ s, RunUnder step Always {} s ∧
      (s.holders = 1 ∧ s.queues .spawn = [2] ∧ s.queues .write = []) ∧ GroupExclusion s :=
  (exists_run_of_exec _ _ _ _
    [.request .write, .request .write, .request .spawn, .request .write, .poll 2 7, .drop 3,
      .drop 0] (by decide)).imp
    fun s ⟨hr, hs⟩ => ⟨hr, hs, group_exclusion_of_run hr⟩

theorem mem_wake {es es' : SortedMap ℕ Entry} {b wake : List ℕ} (h : admitBatch es b = some (es', wake)) (w : ℕ) :
    w ∈ wake ↔ ∃ k ∈ b, ∃ e, es.get? k = some e ∧ e.waker = some w := by
  induction b generalizing es wake with
  | nil =>
    cases h
    simp
  | cons id b ih =>
    rw [admitBatch] at h
    split at h
    · cases h
    · obtain ⟨⟨_, wake⟩, hr, heq⟩ := map_eq_some_iff.mp h
      cases heq
      simp only [mem_append, mem_toList, ih hr, get?_insert]
      grind

/-- **The drop of a live request** does not panic, has a holder to take away if it was admitted, and
wakes whom it admits. -/
theorem release_of_run (hrn : RunUnder step Always {} s) (he : s.entries.get? id = some entry) :
    (entry.admitted = true → 0 < s.holders) ∧ ∃ t wake, s.release id = some (t, wake) ∧ ∀ w,
      w ∈ wake ↔ ∃ k e, s.entries.get? k = some e ∧ e.admitted = false ∧ k ∈ t.holding ∧ e.waker = some w := by
  have hc := (inv_of_run hrn).toConsistent
  have hr := hc.remove he
  have hg : ∀ {k e}, (s.remove id entry).entries.get? k = some e → s.entries.get? k = some e := by
    simp only [remove_entries, get?_erase]
    grind
  refine ⟨fun ha => Nat.pos_of_ne_zero fun hz => by simp [hc.nobody hz he] at ha, ?_⟩
  rw [release, he]
  dsimp only
  split_ifs with hz
  · rw [turnOver]
    split
    · next group _ =>
      have hs : ∀ k ∈ (s.remove id entry).queues group, ((s.remove id entry).entries.get? k).isSome := by
        simp only [hr.queued, mem_waiting]
        grind
      obtain ⟨⟨es, wake⟩, ha⟩ := isSome_iff_exists.mp (admitBatch_isSome hs)
      refine ⟨_, wake, map_eq_some_iff.mpr ⟨_, ha, rfl⟩, fun w => ?_⟩
      simp only [mem_wake ha, mem_holding, get?_admitBatch ha]
      constructor
      · rintro ⟨k, hk, e, hke, hw⟩
        exact ⟨k, e, hg hke, hr.nobody hz hke, ⟨e.letIn, by rw [if_pos hk, hke]; rfl, rfl⟩, hw⟩
      · rintro ⟨k, e, hke, -, ⟨e', he', ha'⟩, hw⟩
        -- who is not in the batch is as before, and nobody was admitted
        split_ifs at he' with hk
        · obtain ⟨e'', hke'', -⟩ := map_eq_some_iff.mp he'
          cases hke.symm.trans (hg hke'')
          exact ⟨k, hk, e, hke'', hw⟩
        · cases (hr.nobody hz he').symm.trans ha'
    · refine ⟨_, _, rfl, fun w => ?_⟩
      simp only [mem_holding]
      grind
  · refine ⟨_, _, rfl, fun w => ?_⟩
    simp only [mem_holding]
    grind

theorem release_of_run_spawn : ∃ s, RunUnder step Always {} s ∧
    (s.entries.get? 0 = some ⟨.write, true, none⟩ ∧ s.entries.get? 1 = some ⟨.spawn, false, some 7⟩) ∧
      ∃ t wake, s.release 0 = some (t, wake) :=
  (exists_run_of_exec _ _ _ _ [.request .write, .request .spawn, .poll 1 7] (by decide)).imp fun _ ⟨hr, hs⟩ =>
    have ⟨_, t, wake, h, _⟩ := release_of_run hr hs.1
    ⟨hr, hs, t, wake, h⟩

end XiaoO.ProcessCoordination
