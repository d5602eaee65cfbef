import XiaoO.Backend.Processes

/-!
# Deletions that fail

`shutdown_all` and `check_and_evict_marked_backends` remove several backends, one after the other.
Each is taken out of memory first, then its slot is released, its registry entry is removed and the
provider is asked to delete it (`finalize_removal`).

## The model

The two loops, with what they do to the outside in order, over the drained backends and the entries
in any order. `fails` says which deletions fail; a checkpoint before an eviction may fail or be
switched off, and is then none.

## What is proved

Both loops end at the first deletion that fails. The backends after it are out of memory and keep
their slots, entries and sandboxes, and the sessions of an evicted backend are not paused
(`failed_deletion_ends_loops`). `removals_complete_iff` says exactly when all are reached.
-/

namespace XiaoO.Backend.Processes

open XiaoO.Base List

/-- What a loop does outside of the memory of its process. -/
inductive Action where
  | release (sandboxKey : String) (backendId : String)
  | unregister (backendId : String)
  | deleteInstance (backendId : String)
  | clearMark (backendId : String)
  /-- `batch_mark_paused_due_to_eviction`. -/
  | pause (sessionIds : List String) (checkpoint : Option BackendCheckpointRef)
  deriving DecidableEq

/-- How a loop went: its actions, the memory after it, and whether it came to its end. -/
structure Removals where
  actions : List Action
  memory : BackendManagerState
  ok : Bool

/-- Actions before a loop goes on. -/
def Removals.after (actions : List Action) (r : Removals) : Removals :=
  { r with actions := actions ++ r.actions }

section Loops

variable {π : Type} (setup : Setup) (fails : String → Bool)
  (checkpoint : String → Option BackendCheckpointRef) (now : ℕ)

/-- `finalize_removal`: what it does, the deletion last. -/
def finalActions (entry : BackendInstanceEntry) : List Action :=
  (if isCountedKind entry.config.kind then
    [.release (setup.sandboxKey entry.config) entry.backendInstance.backendId,
      .unregister entry.backendInstance.backendId]
  else []) ++ [.deleteInstance entry.backendInstance.backendId]

/-- `shutdown_all`, after the map is drained. -/
def shutdownAll : List BackendInstanceEntry → Removals
  | [] => ⟨[], {}, true⟩
  | entry :: rest =>
    if fails entry.backendInstance.backendId then ⟨finalActions setup entry, {}, false⟩
    else (shutdownAll rest).after (finalActions setup entry)

/-- `check_and_evict_marked_backends`, with the entries of the process. -/
def checkAndEvictMarkedBackends :
    List (BackendRegistryEntry π) → BackendManagerState → Removals
  | [], memory => ⟨[], memory, true⟩
  | entry :: rest, memory =>
    if !entry.pendingEviction then checkAndEvictMarkedBackends rest memory
    else if !entry.isEvictionSafe now then
      (checkAndEvictMarkedBackends rest memory).after [.clearMark entry.backendId]
    else match memory.evict entry.backendId with
      | (none, _) => ⟨[], memory, false⟩
      | (some removed, left) =>
        if fails removed.backendInstance.backendId then ⟨finalActions setup removed, left, false⟩
        else (checkAndEvictMarkedBackends rest left).after
          (finalActions setup removed ++ [.pause entry.sessionIds (checkpoint entry.backendId)])

end Loops

/-- A backend is reached: its slot and entry are given back, and its deletion is tried. -/
def Reached (setup : Setup) (actions : List Action) (entry : BackendInstanceEntry) : Prop :=
  finalActions setup entry ⊆ actions

/-- Marked, and safe to evict. -/
def BackendRegistryEntry.isDue {π : Type} (entry : BackendRegistryEntry π) (now : ℕ) : Bool :=
  entry.pendingEviction && entry.isEvictionSafe now

/-- **The property** of the second loop: every entry that is due is reached, and the sessions of
every backend that is no longer in memory are paused. -/
structure MarkedReached {π : Type} (setup : Setup) (now : ℕ)
    (entries : List (BackendRegistryEntry π)) (memory : BackendManagerState) (r : Removals) :
    Prop where
  reached : ∀ entry ∈ entries, entry.isDue now → ∀ e ∈ memory.backends.get? entry.backendId,
    Reached setup r.actions e
  paused : ∀ b e, memory.backends.get? b = some e → r.memory.backends.get? b = none →
    ∀ i ∈ e.sessionIds, ∃ sessionIds checkpoint, i ∈ sessionIds ∧ .pause sessionIds checkpoint ∈ r.actions

/-- The backend of an entry is in memory, and its deletion does not fail. -/
def BackendRegistryEntry.isRemovable {π : Type} (entry : BackendRegistryEntry π)
    (fails : String → Bool) (memory : BackendManagerState) : Bool :=
  (memory.backends.get? entry.backendId).isSome && !fails entry.backendId

/-- **The condition** for the second loop. No backend in memory is due after one that cannot be
removed, and the sessions of all of them are in the entries of those that can. -/
structure Removable {π : Type} (fails : String → Bool) (now : ℕ)
    (entries : List (BackendRegistryEntry π)) (memory : BackendManagerState) : Prop where
  inOrder : (entries.filter (·.isDue now)).Pairwise fun x y =>
    (memory.backends.get? y.backendId).isSome → x.isRemovable fails memory
  listed : ∀ x ∈ entries, x.isDue now → ∀ e ∈ memory.backends.get? x.backendId, ∀ i ∈ e.sessionIds,
    ∃ y ∈ entries, y.isDue now ∧ y.isRemovable fails memory ∧ i ∈ y.sessionIds

/-- Backends are in memory under their own ids. -/
def OwnIds (memory : BackendManagerState) : Prop :=
  ∀ b e, memory.backends.get? b = some e → e.backendInstance.backendId = b

section Proofs

variable {π : Type} {su : Setup} {fs : String → Bool} {c : String → Option BackendCheckpointRef}
  {n : ℕ} {es : List (BackendRegistryEntry π)} {m m' : BackendManagerState} {r : Removals}

def Action.backendId? : Action → Option String
  | .release _ b | .unregister b | .deleteInstance b | .clearMark b => some b
  | .pause _ _ => none

theorem backendId?_of_mem {e : BackendInstanceEntry} {a : Action} (h : a ∈ finalActions su e) :
    a.backendId? = some e.backendInstance.backendId := by
  unfold finalActions at h
  split_ifs at h <;> simp only [mem_append, mem_cons, not_mem_nil, or_false, false_or] at h
  · rcases h with (rfl | rfl) | rfl <;> rfl
  · subst h
    rfl

theorem deleteInstance_mem (e : BackendInstanceEntry) :
    .deleteInstance e.backendInstance.backendId ∈ finalActions su e :=
  mem_append_right _ mem_cons_self

/-! ### The shutdown -/

/-- A backend is not reached by what is done for another one. -/
theorem Reached.of_append {e e' : BackendInstanceEntry} {acs : List Action}
    (hne : e'.backendInstance.backendId ≠ e.backendInstance.backendId)
    (h : Reached su (finalActions su e ++ acs) e') : Reached su acs e' := by
  intro a ha
  refine (mem_append.mp (h ha)).resolve_left fun hm => hne ?_
  exact Option.some.inj ((backendId?_of_mem ha).symm.trans (backendId?_of_mem hm))

theorem not_reached_nil (e : BackendInstanceEntry) : ¬ Reached su [] e :=
  fun h => not_mem_nil (h (deleteInstance_mem e))

theorem reached_shutdownAll_iff {ds : List BackendInstanceEntry}
    (hd : (ds.map (·.backendInstance.backendId)).Nodup) :
    (∀ e ∈ ds, Reached su (shutdownAll su fs ds).actions e) ↔
      ∀ e ∈ ds.dropLast, fs e.backendInstance.backendId = false := by
  induction ds with
  | nil => simp
  | cons e ds ih =>
    obtain ⟨he, hd⟩ := nodup_cons.mp hd
    have hne : ∀ e' ∈ ds, e'.backendInstance.backendId ≠ e.backendInstance.backendId :=
      fun e' hm h => he (mem_map.mpr ⟨e', hm, h⟩)
    rw [shutdownAll]
    split_ifs with hf
    · -- The loop ends here, so this has to be the last backend.
      rcases ds with _ | ⟨e', ds⟩
      · simp [Reached]
      · refine ⟨fun h => ?_, fun h => absurd (h e mem_cons_self) (by simp [hf])⟩
        have hr := h e' (mem_cons_of_mem _ mem_cons_self)
        rw [← append_nil (finalActions su e)] at hr
        exact absurd (hr.of_append (hne e' mem_cons_self)) (not_reached_nil e')
    · have hf : fs e.backendInstance.backendId = false := by simpa using hf
      have hdl : (∀ e' ∈ (e :: ds).dropLast, fs e'.backendInstance.backendId = false) ↔
          ∀ e' ∈ ds.dropLast, fs e'.backendInstance.backendId = false := by
        rcases ds with _ | ⟨e', ds⟩ <;> simp [hf]
      rw [hdl, ← ih hd, forall_mem_cons]
      refine ⟨fun h e' hm => (h.2 e' hm).of_append (hne e' hm), fun h => ⟨?_, fun e' hm => ?_⟩⟩
      · exact subset_append_left ..
      · exact Subset.trans (h e' hm) (subset_append_right ..)

/-! ### Marked backends -/

/-- What the second loop does. Of the entries that are due, `rs` are removed, `ls` is the one at
which the loop ends, and `ts` come after it. -/
structure GetsTo (su : Setup) (fs : String → Bool) (c : String → Option BackendCheckpointRef)
    (n : ℕ) (m₀ m : BackendManagerState) (es : List (BackendRegistryEntry π)) (r : Removals)
    (rs ls ts : List (BackendRegistryEntry π)) : Prop where
  due : es.filter (·.isDue n) = rs ++ ls ++ ts
  removable : ∀ x ∈ rs, x.isRemovable fs m₀
  stops : ls = [] ∧ ts = [] ∨ ∃ x, ls = [x] ∧ x.isRemovable fs m₀ = false
  paused : ∀ is k, .pause is k ∈ r.actions ↔ ∃ y ∈ rs, is = y.sessionIds ∧ k = c y.backendId
  tried : ∀ b, .deleteInstance b ∈ r.actions → ∃ y ∈ rs ++ ls, y.backendId = b
  reached : ∀ y ∈ rs ++ ls, ∀ e, m.backends.get? y.backendId = some e → Reached su r.actions e
  memory : ∀ b, r.memory.backends.get? b = none ↔
    m.backends.get? b = none ∨ ∃ y ∈ rs ++ ls, y.backendId = b

section Marked

variable {m₀ : BackendManagerState} {rs ls ts : List (BackendRegistryEntry π)}
  {x : BackendRegistryEntry π} {e : BackendInstanceEntry}

theorem GetsTo.mem_iff (h : GetsTo su fs c n m₀ m es r rs ls ts) {y : BackendRegistryEntry π} :
    y ∈ es ∧ y.isDue n ↔ y ∈ rs ++ ls ++ ts := by
  rw [← h.due, mem_filter]

theorem GetsTo.mem (h : GetsTo su fs c n m₀ m es r rs ls ts) {y : BackendRegistryEntry π}
    (hy : y ∈ rs ++ ls) : y ∈ es ∧ y.isDue n :=
  h.mem_iff.mpr (mem_append_left ts hy)

/-- An entry that is not due changes nothing. -/
theorem GetsTo.cons (h : GetsTo su fs c n m₀ m es r rs ls ts) (hx : x.isDue n = false) :
    GetsTo su fs c n m₀ m (x :: es) r rs ls ts :=
  { h with due := (filter_cons_of_neg (by simp [hx])).trans h.due }

theorem GetsTo.afterClear (h : GetsTo su fs c n m₀ m es r rs ls ts) (b : String) :
    GetsTo su fs c n m₀ m es (r.after [.clearMark b]) rs ls ts :=
  { h with
    paused := by simpa [Removals.after] using h.paused
    tried := by simpa [Removals.after] using h.tried
    reached := fun y hy e he => Subset.trans (h.reached y hy e he) (subset_append_right ..) }

/-- The loop ends at an entry whose backend is not in memory. -/
theorem getsTo_missing (hd : x.isDue n) (hr : x.isRemovable fs m₀ = false)
    (hx : m.backends.get? x.backendId = none) (ok : Bool) :
    GetsTo su fs c n m₀ m (x :: es) ⟨[], m, ok⟩ [] [x] (es.filter (·.isDue n)) where
  due := filter_cons_of_pos hd
  removable := nofun
  stops := .inr ⟨x, rfl, hr⟩
  paused := by simp
  tried := nofun
  reached y hy e he := by
    cases mem_singleton.mp hy
    cases hx.symm.trans he
  memory b := by
    refine ⟨.inl, fun h => h.elim id ?_⟩
    rintro ⟨y, hy, rfl⟩
    cases mem_singleton.mp hy
    exact hx

/-- The loop ends at a backend whose deletion fails. -/
theorem getsTo_failed (hd : x.isDue n) (hr : x.isRemovable fs m₀ = false)
    (hx : m.backends.get? x.backendId = some e) (hid : e.backendInstance.backendId = x.backendId)
    (hl : ∀ b, m'.backends.get? b = if b = x.backendId then none else m.backends.get? b)
    (ok : Bool) :
    GetsTo su fs c n m₀ m (x :: es) ⟨finalActions su e, m', ok⟩ [] [x]
      (es.filter (·.isDue n)) where
  due := filter_cons_of_pos hd
  removable := nofun
  stops := .inr ⟨x, rfl, hr⟩
  paused is k := by
    refine ⟨fun h => ?_, by simp⟩
    cases backendId?_of_mem h
  tried b hb := ⟨x, mem_singleton.mpr rfl, hid ▸ (Option.some.inj (backendId?_of_mem hb)).symm⟩
  reached y hy e' he' := by
    cases mem_singleton.mp hy
    cases hx.symm.trans he'
    exact Subset.refl _
  memory b := by grind

theorem GetsTo.afterRemoval (h : GetsTo su fs c n m₀ m' es r rs ls ts) (hd : x.isDue n)
    (hr : x.isRemovable fs m₀) (hx : m.backends.get? x.backendId = some e)
    (hid : e.backendInstance.backendId = x.backendId)
    (hl : ∀ b, m'.backends.get? b = if b = x.backendId then none else m.backends.get? b)
    (hne : ∀ y ∈ es, y.backendId ≠ x.backendId) :
    GetsTo su fs c n m₀ m (x :: es)
      (r.after (finalActions su e ++ [.pause x.sessionIds (c x.backendId)])) (x :: rs) ls ts where
  due := by simpa [hd] using h.due
  removable := forall_mem_cons.mpr ⟨hr, h.removable⟩
  stops := h.stops
  paused is k := by
    have hp : .pause is k ∉ finalActions su e := fun hm => by cases backendId?_of_mem hm
    simp [Removals.after, hp, h.paused]
  tried b hb := by
    simp only [Removals.after, append_assoc, mem_append, mem_cons, reduceCtorEq, not_mem_nil,
      or_false, false_or] at hb
    rcases hb with hb | hb
    · exact ⟨x, mem_cons_self, hid ▸ (Option.some.inj (backendId?_of_mem hb)).symm⟩
    · obtain ⟨y, hy, hyb⟩ := h.tried b hb
      exact ⟨y, mem_cons_of_mem x hy, hyb⟩
  reached y hy e' he' := by
    rcases mem_cons.mp hy with rfl | hy
    · cases hx.symm.trans he'
      exact Subset.trans (subset_append_left ..) (subset_append_left ..)
    · refine Subset.trans (h.reached y hy e' ?_) (subset_append_right ..)
      rw [hl, if_neg (hne y (h.mem hy).1), he']
  memory b := by
    change r.memory.backends.get? b = none ↔ _
    rw [h.memory, hl, cons_append, exists_mem_cons_iff]
    grind

/-- **What the second loop does**: it removes the backends of the due entries up to the first that
cannot be removed, and ends there. -/
theorem exists_getsTo (hn : (es.map (·.backendId)).Nodup) (hk : OwnIds m)
    (hm : ∀ x ∈ es, m.backends.get? x.backendId = m₀.backends.get? x.backendId) :
    ∃ rs ls ts, GetsTo su fs c n m₀ m es (checkAndEvictMarkedBackends su fs c n es m)
      rs ls ts := by
  induction es generalizing m with
  | nil => exact ⟨[], [], [], rfl, nofun, .inl ⟨rfl, rfl⟩, by simp [checkAndEvictMarkedBackends],
      nofun, nofun, by simp [checkAndEvictMarkedBackends]⟩
  | cons x es ih =>
    obtain ⟨hx, hn⟩ := nodup_cons.mp hn
    have hne : ∀ y ∈ es, y.backendId ≠ x.backendId := fun y hy h => hx (mem_map.mpr ⟨y, hy, h⟩)
    obtain ⟨hmx, hm⟩ := forall_mem_cons.mp hm
    rw [checkAndEvictMarkedBackends]
    split_ifs with hp hs
    · obtain ⟨rs, ls, ts, h⟩ := ih hn hk hm
      exact ⟨rs, ls, ts, h.cons (by simp_all [BackendRegistryEntry.isDue])⟩
    · obtain ⟨rs, ls, ts, h⟩ := ih hn hk hm
      exact ⟨rs, ls, ts, (h.afterClear _).cons (by simp_all [BackendRegistryEntry.isDue])⟩
    · have hd : x.isDue n = true := by simp_all [BackendRegistryEntry.isDue]
      have hrm : x.isRemovable fs m₀ =
          ((m.backends.get? x.backendId).isSome && !fs x.backendId) := by
        rw [BackendRegistryEntry.isRemovable, hmx]
      cases he : m.backends.get? x.backendId with
      | none =>
        simp only [BackendManagerState.evict, he]
        exact ⟨_, _, _, getsTo_missing hd (by simp [hrm, he]) he false⟩
      | some e =>
        have hid := hk _ _ he
        have hg := SortedMap.get?_erase m.backends x.backendId
        simp only [BackendManagerState.evict, he, hid]
        split_ifs with hf
        · exact ⟨_, _, _, getsTo_failed hd (by simp [hrm, hf]) he hid hg false⟩
        · obtain ⟨rs, ls, ts, h⟩ := ih (m := (m.evict x.backendId).2) hn
            (fun b e' he' => by
              simp only [BackendManagerState.evict, he, hg] at he'
              split_ifs at he'
              exact hk b e' he')
            fun y hy => by simp only [BackendManagerState.evict, he, hg, hne y hy, if_false, hm y hy]
          simp only [BackendManagerState.evict, he] at h
          exact ⟨_, _, _, h.afterRemoval hd (by simp [hrm, he, hf]) he hid hg hne⟩

/-- No backend in memory is due after one that cannot be removed. -/
theorem GetsTo.inOrder_iff (h : GetsTo su fs c n m₀ m es r rs ls ts)
    (hn : (es.map (·.backendId)).Nodup) :
    ((es.filter (·.isDue n)).Pairwise fun x y =>
        (m₀.backends.get? y.backendId).isSome → x.isRemovable fs m₀) ↔
      ∀ y ∈ es, y.isDue n → (m₀.backends.get? y.backendId).isSome → y ∈ rs ++ ls := by
  have hnd : (es.filter (·.isDue n)).Nodup := (Nodup.of_map _ hn).filter _
  have hrs : rs.Pairwise fun x y =>
      (m₀.backends.get? y.backendId).isSome → x.isRemovable fs m₀ :=
    pairwise_of_forall_mem_list fun a ha _ _ _ => h.removable a ha
  have hmem : (∀ y ∈ es, y.isDue n → (m₀.backends.get? y.backendId).isSome → y ∈ rs ++ ls) ↔
      ∀ y ∈ ts, ¬ (m₀.backends.get? y.backendId).isSome := by
    rw [h.due] at hnd
    have hdj := (nodup_append.mp hnd).2.2
    refine ⟨fun hall y hy hs => ?_, fun hts y hy hd hs => ?_⟩
    · obtain ⟨hye, hyd⟩ := h.mem_iff.mpr (mem_append_right _ hy)
      exact hdj y (hall y hye hyd hs) y hy rfl
    · exact (mem_append.mp (h.mem_iff.mp ⟨hy, hd⟩)).resolve_right fun hyt => hts y hyt hs
  rw [hmem, h.due]
  rcases h.stops with ⟨rfl, rfl⟩ | ⟨x, rfl, hx⟩
  · simpa using hrs
  · rw [append_assoc, singleton_append, pairwise_append, pairwise_cons]
    constructor
    · rintro ⟨-, ⟨hxt, -⟩, -⟩ y hy hs
      exact absurd (hxt y hy hs) (by simp [hx])
    · intro hts
      refine ⟨hrs, ⟨fun y hy hs => absurd hs (hts y hy), ?_⟩, fun a ha _ _ _ => h.removable a ha⟩
      exact pairwise_of_forall_mem_list fun _ _ b hb hs => absurd hs (hts b hb)

theorem markedReached_iff (hn : (es.map (·.backendId)).Nodup) (hk : OwnIds m) :
    MarkedReached su n es m (checkAndEvictMarkedBackends su fs c n es m) ↔
      Removable fs n es m := by
  obtain ⟨rs, ls, ts, h⟩ : ∃ rs ls ts,
      GetsTo su fs c n m m es (checkAndEvictMarkedBackends su fs c n es m) rs ls ts :=
    exists_getsTo hn hk fun _ _ => rfl
  have hinj : ∀ x ∈ es, ∀ y ∈ es, x.backendId = y.backendId → x = y := inj_on_of_nodup_map hn
  constructor
  · intro hr
    have hall : ∀ y ∈ es, y.isDue n → (m.backends.get? y.backendId).isSome → y ∈ rs ++ ls := by
      intro y hy hd hs
      obtain ⟨e, he⟩ := Option.isSome_iff_exists.mp hs
      obtain ⟨z, hz, hzy⟩ := h.tried _ (hr.reached y hy hd e he (deleteInstance_mem e))
      rw [hk _ _ he] at hzy
      exact hinj z (h.mem hz).1 y hy hzy ▸ hz
    refine ⟨(h.inOrder_iff hn).mpr hall, fun x hx hd e he i hi => ?_⟩
    have hgone := (h.memory x.backendId).mpr
      (.inr ⟨x, hall x hx hd (by simp [Option.mem_def.mp he]), rfl⟩)
    obtain ⟨is, k, his, hp⟩ := hr.paused _ e he hgone i hi
    obtain ⟨y, hy, rfl, -⟩ := (h.paused is k).mp hp
    obtain ⟨hye, hyd⟩ := h.mem (mem_append_left _ hy)
    exact ⟨y, hye, hyd, h.removable y hy, his⟩
  · intro hc
    have hall := (h.inOrder_iff hn).mp hc.inOrder
    constructor
    · intro x hx hd e he
      exact h.reached x (hall x hx hd (by simp [Option.mem_def.mp he])) e he
    · intro b e he hg i hi
      obtain ⟨x, hx, rfl⟩ := ((h.memory b).mp hg).resolve_left (by simp [he])
      obtain ⟨hxe, hxd⟩ := h.mem hx
      obtain ⟨y, hy, hyd, hyr, his⟩ := hc.listed x hxe hxd e he i hi
      have hyl : y ∉ ls := by
        rcases h.stops with ⟨rfl, -⟩ | ⟨z, rfl, hz⟩
        · exact not_mem_nil
        · exact fun hm => absurd hyr (by rw [mem_singleton.mp hm, hz]; exact Bool.false_ne_true)
      have hys : (m.backends.get? y.backendId).isSome := by
        simp only [BackendRegistryEntry.isRemovable, Bool.and_eq_true] at hyr
        exact hyr.1
      have hym := (mem_append.mp (hall y hy hyd hys)).resolve_right hyl
      exact ⟨y.sessionIds, c y.backendId, his, (h.paused _ _).mpr ⟨y, hym, rfl, rfl⟩⟩

end Marked

end Proofs

/-- **When all backends are reached**, of drained backends with different ids and of entries with
different ids, in any order. By `shutdown_all` exactly if no deletion but the last one fails. By
`check_and_evict_marked_backends` exactly if the backends that are due can be removed in the order
of their entries, and their sessions are those of the entries. -/
theorem removals_complete_iff {π : Type} (setup : Setup) (fails : String → Bool)
    (checkpoint : String → Option BackendCheckpointRef) (now : ℕ)
    (drained : List BackendInstanceEntry) (entries : List (BackendRegistryEntry π))
    (memory : BackendManagerState)
    (hdrained : (drained.map (·.backendInstance.backendId)).Nodup)
    (hentries : (entries.map (·.backendId)).Nodup) (hids : OwnIds memory) :
    ((∀ e ∈ drained, Reached setup (shutdownAll setup fails drained).actions e) ↔
        ∀ e ∈ drained.dropLast, fails e.backendInstance.backendId = false) ∧
      (MarkedReached setup now entries memory
        (checkAndEvictMarkedBackends setup fails checkpoint now entries memory) ↔
        Removable fails now entries memory) :=
  ⟨reached_shutdownAll_iff hdrained, markedReached_iff hentries hids⟩

def backendOf (backendId : String) (sessionIds : List String) : BackendInstanceEntry :=
  { backendInstance := ⟨backendId, "", "", ""⟩, config := ⟨"e2b", "null"⟩, sessionIds }

/-- The memory with the backend `a` of the session `s`. -/
def holdingA : BackendManagerState := BackendManagerState.bind {} "a" (some "s") (backendOf "a" ["s"])

def markedA : BackendRegistryEntry Unit := ⟨"a", "", ["s"], (), .empty, 0, true, "", 1⟩

/-- All sandboxes have one key. -/
def oneKey : Setup := ⟨1, fun _ => ""⟩

theorem ownIds_holdingA : OwnIds holdingA := by
  intro b e he
  rw [holdingA, BackendManagerState.bind, SortedMap.get?_insert] at he
  split_ifs at he with hb
  · cases he
    exact hb.symm
  · cases he

/-- The last deletion fails at the shutdown, and all marked backends can be removed. -/
theorem removals_complete_two :
    (∀ e ∈ [backendOf "a" ["s"], backendOf "b" []], Reached oneKey
        (shutdownAll oneKey (· = "b") [backendOf "a" ["s"], backendOf "b" []]).actions e) ∧
      MarkedReached oneKey 1 [markedA] holdingA
        (checkAndEvictMarkedBackends oneKey (· = "b") (fun _ => none) 1 [markedA] holdingA) := by
  have h := removals_complete_iff oneKey (· = "b") (fun _ => none) 1
    [backendOf "a" ["s"], backendOf "b" []] [markedA] holdingA (by decide) (by decide)
    ownIds_holdingA
  exact ⟨h.1.mpr (by decide), h.2.mpr ⟨by decide, by decide⟩⟩

/-- **The first failed deletion ends both loops**: the other backend is not reached at the shutdown,
and the session of the evicted one is not paused. -/
theorem failed_deletion_ends_loops :
    ¬ Reached oneKey (shutdownAll oneKey (· = "a") [backendOf "a" ["s"], backendOf "b" []]).actions
        (backendOf "b" []) ∧
      ¬ MarkedReached oneKey 1 [markedA] holdingA
        (checkAndEvictMarkedBackends oneKey (· = "a") (fun _ => none) 1 [markedA] holdingA) := by
  refine ⟨fun h => ?_, fun h => ?_⟩
  · have hb : .deleteInstance "b" ∈ finalActions oneKey (backendOf "a" ["s"]) := h (by decide)
    exact absurd hb (by decide)
  · obtain ⟨is, c, -, hp⟩ := h.paused "a" (backendOf "a" ["s"]) (by decide) (by decide) "s" (by decide)
    have hp : .pause is c ∈ finalActions oneKey (backendOf "a" ["s"]) := hp
    simp [finalActions, backendOf, isCountedKind] at hp

end XiaoO.Backend.Processes
