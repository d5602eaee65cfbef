import XiaoO.Gateway.SnapshotReuse

/-!
# Evictions that lose nothing

An eviction asks for a checkpoint of its victim, removes the backend, has the sandbox
deleted, and marks the sessions of the backend as paused with that checkpoint. Each is a
step of its own, and the provider may refuse at each of them.

## What is proved

An eviction goes on without a checkpoint when the provider refuses to make one, and the
sessions are then paused with nothing to resume from (`eviction_without_checkpoint`). In
every run in which, besides the conditions for the reuse of snapshots,

* contents do not change while an eviction that has its checkpoint is about to remove the
  backend,
* the provider makes the snapshots that evictions ask for, under new ids, and deletes the
  sandboxes,
* the sessions have records in the store when they are marked,
* no other process finds the owner of the backend stale,

every backend that an eviction has removed can be resumed with its last contents
(`lossless_of_run`).
-/

namespace XiaoO.Gateway.Tracked

open XiaoO.Base XiaoO.Backend XiaoO.Backend.Processes List Option

variable {ι π C : Type} (w : World ι π C)

/-- **The property**: when a call that has removed the backend returns, it has marked the sessions
that were bound to it with a checkpoint of the contents at the removal. -/
def Lossless : Prop :=
  ∀ r ∈ w.shared.removals, w.thread r.call = [] → ∀ sessionId ∈ r.sessionIds, ∃ checkpoint id,
    ⟨r.call, sessionId, some checkpoint⟩ ∈ w.shared.paused ∧ checkpoint.providerSnapshotId = some id ∧
      w.shared.captured id = some r.contents

/-! ### The condition -/

/-- An eviction has its checkpoint and is about to remove the backend. -/
def Instr.isEvicting : Instr π → Bool
  | .evict _ (some _) => true
  | _ => false

def Purpose.isEviction : Purpose → Bool
  | .request _ _ => false
  | .eviction _ => true

/-- The further conditions on carrying out an instruction. -/
def Careful (env : Env C) : Instr π → Prop
  | .inner _ _ => env.effect.isSome → ¬ Somewhere w Instr.isEvicting
  | .createSnapshot purpose =>
    (∀ snapshot ∈ env.snapshot.toOption, w.shared.captured snapshot.snapshotId = none) ∧
      (purpose.isEviction → env.snapshot.toOption.isSome)
  | .delete _ _ => env.refused = false
  | .markPaused sessionIds _ => ∀ sessionId ∈ sessionIds, (w.shared.store.get? sessionId).isSome
  | .choose evictor entry => evictor = .foreign → ¬ entry.isOwnerStale env.nowMs
  | _ => True

/-- The condition on the steps of a run. -/
def Preserving (env : Env C) (x : Instr π) : Prop := Undisturbed w env x ∧ Careful w env x

instance [Fintype ι] [DecidableEq C] (w : World ι π C) (env : Env C) : ∀ x, Decidable (Careful w env x)
  | .inner .. | .markDirty _ | .updateSessionStatus .. | .readDirty _ | .readCheckpoint _ | .createSnapshot _
  | .setCheckpoint .. | .refreshHeartbeats | .readRegistry _ | .choose .. | .setPendingEviction _ | .evict ..
  | .unregister .. | .delete .. | .markPaused .. | .reclaim _ => by delta Careful; infer_instance

instance [Fintype ι] [DecidableEq C] (w : World ι π C) (env : Env C) (x : Instr π) :
    Decidable (Preserving w env x) :=
  inferInstanceAs (Decidable (_ ∧ _))

/-! ### What an eviction carries -/

variable {B : List String}

/-- A snapshot of a checkpoint has some contents. -/
def Holds (captured : String → Option C) (checkpoint : BackendCheckpointRef) (contents : C) : Prop :=
  ∃ id, checkpoint.providerSnapshotId = some id ∧ captured id = some contents

/-- The sessions that a checkpoint is made for are those of the backend. -/
def Purpose.For (B : List String) : Purpose → Prop
  | .request _ _ => True
  | .eviction sessionIds => sessionIds = B

/-- What an eviction relies on, for a backend with the sessions `B`. -/
def Carries (B : List String) (s : Shared ι π C) : Instr π → Prop
  | .readDirty purpose | .readCheckpoint purpose | .createSnapshot purpose | .setCheckpoint _
      purpose => purpose.For B
  | .choose _ entry => entry.sessionIds = B
  | .evict sessionIds (some checkpoint) => sessionIds = B ∧ Holds s.captured checkpoint s.contents
  | .evict _ none => s.bound = none
  | .reclaim _ => False
  | _ => True

/-- The end of an eviction: what is left after the removal. -/
@[simp] def Instr.Closes (B : List String) (checkpoint : BackendCheckpointRef) (x : Instr π) : Prop :=
  x = .unregister B (some checkpoint) ∨ x = .delete B (some checkpoint) ∨ x = .markPaused B (some checkpoint)

/-- A removal that loses nothing: the checkpoint has the contents, and the sessions are marked or
will be. -/
def Covered (B : List String) (w : World ι π C) (r : Removal ι C) : Prop :=
  r.sessionIds = B ∧ ∃ checkpoint, Holds w.shared.captured checkpoint r.contents ∧
    ((∃ x ∈ w.thread r.call, x.Closes B checkpoint) ∨ ∀ sessionId ∈ B,
      ⟨r.call, sessionId, some checkpoint⟩ ∈ w.shared.paused)

/-- What holds in every state of a run. -/
structure Evicting (B : List String) (w : World ι π C) : Prop where
  carries : ∀ k, ∀ x ∈ w.thread k, Carries B w.shared x
  bound : ∀ sessionIds ∈ w.shared.bound, sessionIds = B
  registered : ∀ entry ∈ w.shared.registered, entry.sessionIds = B
  /-- The tracker of an e2b backend has checkpoints with snapshots. -/
  tracked : ∀ checkpoint ∈ w.shared.tracker.checkpoint, checkpoint.providerSnapshotId.isSome
  removals : ∀ r ∈ w.shared.removals, Covered B w r

theorem Evicting.lossless {w : World ι π C} (h : Evicting B w) : Lossless w := by
  intro r hr hd i hs
  obtain ⟨hB, c, ⟨id, hid, hc⟩, ⟨x, hx, -⟩ | hp⟩ := h.removals r hr
  · rw [hd] at hx
    cases hx
  · exact ⟨c, id, hp i (hB ▸ hs), hid, hc⟩

theorem Holds.mono {c captured' : String → Option C} {checkpoint : BackendCheckpointRef} {contents : C}
    (h : Holds c checkpoint contents) (hle : ∀ id v, c id = some v → captured' id = some v) :
    Holds captured' checkpoint contents := by
  obtain ⟨id, hid, hc⟩ := h
  exact ⟨id, hid, hle id contents hc⟩

theorem Carries.mono {s t : Shared ι π C} {x : Instr π} (h : Carries B s x) (hb : s.bound = none → t.bound = none)
    (hc : t.contents = s.contents) (hle : ∀ id v, s.captured id = some v → t.captured id = some v) :
      Carries B t x := by
  cases x with
  | evict ss c =>
    cases c with
    | none => exact hb h
    | some =>
      refine ⟨h.1, ?_⟩
      rw [hc]
      exact h.2.mono hle
  | _ => exact h

theorem carries_goOn {s : Shared ι π C} {r : Option BackendCheckpointRef} {p : Purpose}
    (hf : p.For B) (hn : r = none → p.isEviction → s.bound = none) (hs : ∀ c ∈ r, Holds s.captured c s.contents) :
    ∀ y ∈ (p.goOn r : List (Instr π)), Carries B s y := by
  cases p with
  | request => exact forall_mem_nil _
  | eviction =>
    intro y hy
    obtain rfl := mem_singleton.mp hy
    cases r with
    | none => exact hn rfl rfl
    | some c => exact ⟨hf, hs c rfl⟩

section Steps

variable [DecidableEq ι] {w : World ι π C} {i : ι} {x : Instr π} {rs f : List (Instr π)} {s : Shared ι π C}

theorem Covered.put {r : Removal ι C} (h : Covered B w r) (ht : w.thread i = x :: rs)
    (hle : ∀ id v, w.shared.captured id = some v → s.captured id = some v) (hp : ∀ p ∈ w.shared.paused, p ∈ s.paused)
    (hx : ∀ c, x.Closes B c → (∃ y ∈ f, y.Closes B c) ∨ ∀ si ∈ B, ⟨i, si, some c⟩ ∈ s.paused) :
    Covered B (w.put i s (f ++ rs)) r := by
  obtain ⟨hB, c, hh, ⟨y, hy, hc⟩ | hd⟩ := h
  · refine ⟨hB, c, hh.mono hle, ?_⟩
    have hpt : y ∈ (w.put i s (f ++ rs)).thread r.call ∨ y = x ∧ r.call = i := mem_put_of_mem ht hy
    obtain hy | ⟨rfl, hcl⟩ := hpt
    · exact .inl ⟨y, hy, hc⟩
    · rw [hcl]
      obtain ⟨z, hz, hz'⟩ | hd := hx c hc
      · exact .inl ⟨z, by simp [hz], hz'⟩
      · exact .inr hd
  · exact ⟨hB, c, hh.mono hle, .inr fun si hm => hp _ (hd si hm)⟩

variable (h : Evicting B w)
include h

/-- A step that leaves the sandbox, its snapshots, the backend and the sessions in peace. -/
theorem Evicting.calm (htd : w.thread i = x :: rs) (hcn : s.contents = w.shared.contents)
    (hcp : s.captured = w.shared.captured) (hbn : s.bound = w.shared.bound)
    (hrm : s.removals = w.shared.removals) (hps : s.paused = w.shared.paused)
    (hrg : ∀ e ∈ s.registered, e.sessionIds = B) (ht : ∀ c ∈ s.tracker.checkpoint, c.providerSnapshotId.isSome)
    (hf : ∀ y ∈ f, Carries B w.shared y) (hx : ∀ c, x.Closes B c → ∃ y ∈ f, y.Closes B c) :
    Evicting B (w.put i s (f ++ rs)) := by
  have hle : ∀ id v, w.shared.captured id = some v → s.captured id = some v := fun id v hv => by rw [hcp, hv]
  have hcr : ∀ y, Carries B w.shared y → Carries B s y := fun y hy => hy.mono (fun hb => hbn ▸ hb) hcn hle
  refine ⟨fun k y hy => ?_, ?_, hrg, ht, ?_⟩
  · obtain ⟨hm, -⟩ | hm := mem_put htd hy
    · exact hcr y (hf y hm)
    · exact hcr y (h.carries k y hm)
  · rw [Threads.put_shared, hbn]
    exact h.bound
  · rw [Threads.put_shared, hrm]
    exact fun r hr => (h.removals r hr).put htd hle (fun p hp => hps ▸ hp) fun c hc => .inl (hx c hc)

theorem Evicting.move (ht : w.thread i = x :: rs) (hf : ∀ y ∈ f, Carries B w.shared y)
    (hx : ∀ c, ¬ x.Closes B c) : Evicting B (w.put i w.shared (f ++ rs)) :=
  h.calm ht rfl rfl rfl rfl rfl h.registered h.tracked hf fun c hc => absurd hc (hx c)

/-- An effect of a call on the backend, when no eviction is about to remove it. -/
theorem Evicting.effect {m : Mutation} {t : Bool} (contents : C) (ht : w.thread i = .inner m t :: rs)
    (he : ¬ Somewhere w Instr.isEvicting) :
    Evicting B (w.put i { w.shared with contents } ([.inner m true] ++ rs)) := by
  refine ⟨fun k y hy => ?_, h.bound, h.registered, h.tracked, fun r hr => ?_⟩
  · obtain ⟨hm, -⟩ | hm := mem_put ht hy
    · obtain rfl := mem_singleton.mp hm
      trivial
    · have ho := h.carries k y hm
      cases y with
      | evict ss c =>
        cases c with
        | none => exact ho
        | some => exact absurd ⟨k, _, hm, rfl⟩ he
      | _ => exact ho
  · exact (h.removals r hr).put ht (fun _ _ hv => hv) (fun _ hp => hp) (by simp)

theorem Evicting.snapshot {p : Purpose} (ht : w.thread i = .createSnapshot p :: rs)
    {sn : E2bSnapshotResult} (hf : w.shared.captured sn.snapshotId = none)
    (hs : s = { w.shared with
      captured := Function.update w.shared.captured sn.snapshotId (some w.shared.contents) }) :
    Evicting B (w.put i s ([.setCheckpoint sn p] ++ rs)) := by
  subst hs
  have hle : ∀ id v, w.shared.captured id = some v →
      Function.update w.shared.captured sn.snapshotId (some w.shared.contents) id = some v := by
    intro id v hv
    rcases eq_or_ne id sn.snapshotId with rfl | hne
    · rw [hf] at hv
      cases hv
    · simpa [hne] using hv
  refine ⟨fun k y hy => ?_, h.bound, h.registered, h.tracked, fun r hr => ?_⟩
  · obtain ⟨hm, -⟩ | hm := mem_put ht hy
    · obtain rfl := mem_singleton.mp hm
      exact h.carries i (.createSnapshot p) (by simp [ht])
    · exact (h.carries k y hm).mono id rfl hle
  · exact (h.removals r hr).put ht hle (fun _ hp => hp) (by simp)

theorem Evicting.evict {ss bound : List String} {c : Option BackendCheckpointRef}
    (ht : w.thread i = .evict ss c :: rs) (hb : w.shared.bound = some bound)
    (hs : s = { w.shared with bound := none, removals := ⟨i, w.shared.contents, bound⟩ :: w.shared.removals }) :
    Evicting B (w.put i s ([.unregister ss c] ++ rs)) := by
  subst hs
  have hc := h.carries i (.evict ss c) (by simp [ht])
  cases c with
  | none =>
    -- an eviction without a checkpoint comes too late
    exact absurd hb (by rw [show w.shared.bound = none from hc]; nofun)
  | some c =>
    obtain ⟨rfl, hh⟩ := hc
    refine ⟨fun k y hy => ?_, nofun, h.registered, h.tracked, fun r hr => ?_⟩
    · obtain ⟨hm, -⟩ | hm := mem_put ht hy
      · obtain rfl := mem_singleton.mp hm
        trivial
      · exact (h.carries k y hm).mono (fun _ => rfl) rfl fun _ _ hv => hv
    · rcases mem_cons.mp hr with rfl | hr
      · refine ⟨h.bound bound hb, c, hh, .inl ⟨.unregister ss (some c), ?_, .inl rfl⟩⟩
        simp
      · exact (h.removals r hr).put ht (fun _ _ hv => hv) (fun _ hp => hp) (by simp)

theorem Evicting.markPaused {ss : List String} {c : Option BackendCheckpointRef}
    (ht : w.thread i = .markPaused ss c :: rs) (hst : ∀ sessionId ∈ ss, (w.shared.store.get? sessionId).isSome)
    (hs : ∃ store, s = { w.shared with
      store
      paused := (ss.filter fun sessionId => (w.shared.store.get? sessionId).isSome).map
        (fun sessionId => ⟨i, sessionId, c⟩) ++ w.shared.paused }) : Evicting B (w.put i s ([] ++ rs)) := by
  obtain ⟨store, rfl⟩ := hs
  refine ⟨fun k y hy => ?_, h.bound, h.registered, h.tracked, fun r hr => ?_⟩
  · obtain ⟨hm, -⟩ | hm := mem_put ht hy
    · cases hm
    · exact (h.carries k y hm).mono (fun hb => hb) rfl fun _ _ hv => hv
  · refine (h.removals r hr).put ht (fun _ _ hv => hv) (fun _ hp => mem_append_right _ hp) ?_
    rintro c' (hc | hc | hc)
    · cases hc
    · cases hc
    · cases hc
      refine .inr fun sessionId hm => mem_append_left _ (mem_map.mpr ⟨sessionId, ?_, rfl⟩)
      exact mem_filter.mpr ⟨hm, hst sessionId hm⟩

theorem Evicting.step {setup : Setup π} {w' : World ι π C} {l : ι × Env C}
    (htr : Tracking w) (hP : AtStep Preserving w l) (hsp : step setup w l = some w') : Evicting B w' := by
  obtain ⟨x, rs, ht, rfl⟩ := step_eq_some hsp
  have hx : Careful w l.2 x := (hP x (by simp [ht])).2
  have hmm : x ∈ w.thread l.1 := by simp [ht]
  have hcr := h.carries l.1 x hmm
  have hf := htr.fits l.1 x hmm
  cases x with dsimp only [exec]
  | inner =>
    cases hef : l.2.effect with
    | some contents =>
      refine h.effect contents ht (hx ?_)
      rw [hef]
      rfl
    | none =>
      refine h.move ht (fun y hy => ?_) (by simp)
      split_ifs at hy
      · obtain rfl := mem_singleton.mp hy
        trivial
      · cases hy
  | markDirty => exact h.calm ht rfl rfl rfl rfl rfl h.registered h.tracked (forall_mem_nil _) (by simp)
  | readDirty =>
    split_ifs with hb hd
    · refine h.move ht ?_ (by simp)
      exact carries_goOn hcr (fun _ _ => isNone_iff_eq_none.mp hb) nofun
    · exact h.move ht (forall_mem_singleton.mpr hcr) (by simp)
    · exact h.move ht (forall_mem_singleton.mpr hcr) (by simp)
  | readCheckpoint =>
    cases hch : w.shared.tracker.checkpoint with
    | none =>
      exact h.move ht (forall_mem_singleton.mpr hcr) (by simp)
    | some checkpoint =>
      refine h.calm ht rfl rfl rfl rfl rfl h.registered h.tracked ?_ (by simp)
      refine carries_goOn hcr nofun ?_
      rintro _ ⟨⟩
      obtain ⟨id, hid⟩ := isSome_iff_exists.mp (h.tracked checkpoint hch)
      exact ⟨id, hid, hf checkpoint hch id hid⟩
  | createSnapshot =>
    cases hs : l.2.snapshot with
    | error =>
      refine h.move ht ?_ (by simp)
      refine carries_goOn hcr (fun _ hev => ?_) nofun
      have hm := hx.2 hev
      rw [hs] at hm
      cases hm
    | ok snapshot =>
      exact h.snapshot ht (hx.1 snapshot (by simp [hs, Except.toOption])) rfl
  | setCheckpoint snapshot =>
    split_ifs with hb
    · refine h.move ht ?_ (by simp)
      exact carries_goOn hcr (fun _ _ => isNone_iff_eq_none.mp hb) nofun
    · refine h.calm ht rfl rfl rfl rfl rfl h.registered ?_ ?_ (by simp)
      · rintro _ ⟨⟩
        rfl
      · refine carries_goOn hcr nofun ?_
        rintro _ ⟨⟩
        exact ⟨snapshot.snapshotId, rfl, hf⟩
  | refreshHeartbeats | setPendingEviction | updateSessionStatus =>
    refine h.calm ht rfl rfl rfl rfl rfl ?_ h.tracked (forall_mem_nil _) (by simp)
    intro entry he
    obtain ⟨entry', he', rfl⟩ := map_eq_some_iff.mp he
    exact h.registered entry' he'
  | readRegistry =>
    refine h.move ht (fun y hy => ?_) (by simp)
    obtain ⟨entry, he, rfl⟩ := mem_map.mp hy
    exact h.registered entry (by simpa using he)
  | choose evictor =>
    refine h.move ht (fun y hy => ?_) (by simp)
    cases evictor with dsimp only [Evictor.choose] at hy
    | owner =>
      split_ifs at hy
      · obtain rfl := mem_singleton.mp hy
        exact hcr
      · cases hy
    | marked =>
      split_ifs at hy
      · cases hy
      · obtain rfl := mem_singleton.mp hy
        trivial
      · obtain rfl := mem_singleton.mp hy
        exact hcr
    | foreign =>
      split_ifs at hy with hec hst
      · cases hy
      · exact absurd hst (hx rfl)
      · obtain rfl := mem_singleton.mp hy
        trivial
  | evict =>
    cases hb : w.shared.bound with
    | none =>
      exact h.move ht (forall_mem_nil _) (by simp)
    | some =>
      exact h.evict ht hb rfl
  | unregister =>
    refine h.calm ht rfl rfl rfl rfl rfl nofun h.tracked (by simp [Carries]) ?_
    rintro checkpoint' (hc | hc | hc) <;> cases hc
    exact ⟨_, mem_singleton.mpr rfl, .inr (.inl rfl)⟩
  | delete =>
    rw [show l.2.refused = false from hx]
    refine h.calm ht rfl rfl rfl rfl rfl h.registered h.tracked (by simp [Carries]) ?_
    rintro checkpoint' (hc | hc | hc) <;> cases hc
    exact ⟨_, mem_singleton.mpr rfl, .inr (.inr rfl)⟩
  | markPaused => exact h.markPaused ht hx ⟨_, rfl⟩
  | reclaim => exact hcr.elim

end Steps

/-! ### Runs -/

theorem evicting_start {su : Setup π} {cs : C} {c : String → Option C}
    {o : Option BackendCheckpointRef} {s : SortedMap String SessionRecord} {os : ι → Operation}
    (ho : ∀ checkpoint ∈ o, Holds c checkpoint cs) :
    Tracking (start su cs c o s os) ∧ Evicting su.request.sessionId.toList (start su cs c o s os) := by
  refine ⟨tracking_start fun checkpoint hm id hid => ?_, fun k => ?_, ?_, ?_, fun checkpoint hm => ?_, nofun⟩
  · obtain ⟨id', hid', hc⟩ := ho checkpoint hm
    obtain rfl : id' = id := some.inj (hid'.symm.trans hid)
    exact hc
  · exact Operation.forall_mem_program (fun _ => trivial) (fun _ _ _ => trivial) (fun _ _ => trivial) trivial
      (fun _ => trivial) (os k)
  · rintro _ ⟨⟩
    rfl
  · rintro _ ⟨⟩
    rfl
  · cases o with
    | none => cases hm
    | some c' =>
      obtain rfl : c' = checkpoint := some.inj hm
      obtain ⟨id, hid, -⟩ := ho _ rfl
      simp [hid]

/-- **Evictions lose nothing**, in every run of any calls whose steps all meet the condition. The
backend may have been made from a snapshot, whose contents it then has. -/
theorem lossless_of_run [DecidableEq ι] (setup : Setup π) (contents : C) (captured : String → Option C)
    (origin : Option BackendCheckpointRef) (store : SortedMap String SessionRecord) (operations : ι → Operation)
    (horigin : ∀ checkpoint ∈ origin, Holds captured checkpoint contents) {w : World ι π C}
    (hrun : RunUnder (step setup) (AtStep Preserving) (start setup contents captured origin store operations) w) :
    Lossless w := by
  refine (hrun.invariant (I := fun w => Tracking w ∧ Evicting setup.request.sessionId.toList w) ?_ ?_).2.lossless
  · exact evicting_start horigin
  · exact fun ⟨ht, h⟩ hP hs => ⟨ht.step (fun x hx => (hP x hx).1) hs, h.step ht hP hs⟩

/-! ### An eviction and a command -/

def oneRecord : SortedMap String SessionRecord :=
  SortedMap.empty.insert "s" { sessionId := "s", runtime := { agentId := "root" } }

/-- The process evicts a backend of its own, on which a command runs. -/
def evictAndExec : Fin 2 → Operation
  | 0 => .evict .owner
  | 1 => .mutate .exec

def evictFromZero : World (Fin 2) Unit ℕ := start oneBackend 0 (fun _ => none) none oneRecord evictAndExec

/-- The backend is evicted after the command, with a checkpoint of what the command has left. -/
theorem lossless_of_run_after_exec : ∃ w : World (Fin 2) Unit ℕ,
      RunUnder (step oneBackend) (AtStep Preserving) evictFromZero w ∧
        (w.shared.removals.map (fun r => (r.contents, r.sessionIds)) = [(7, ["s"])] ∧ (w.thread 0).isEmpty) ∧
          Lossless w :=
  (exists_run_of_exec _ _ _ _
    [(1, { effect := some 7 }), (1, {}), (1, {}), (0, {}), (0, {}), (0, {}), (0, snapshotMade "s1"),
      (0, {}), (0, {}),
      (0, {}), (0, {}), (0, {})] (by decide)).imp
    fun w ⟨hr, hw⟩ => ⟨hr, hw, lossless_of_run oneBackend 0 (fun _ => none) none oneRecord evictAndExec nofun hr⟩

/-- **Evictions lose contents**: when the provider refuses the snapshot, the backend is removed and
its session is paused without a checkpoint; and when a command writes between the snapshot and the
removal, the session is paused with a checkpoint of the old contents. -/
theorem eviction_without_checkpoint :
    (∃ w : World (Fin 2) Unit ℕ, RunUnder (step oneBackend) Always evictFromZero w ∧ (w.thread 0).isEmpty ∧
      w.shared.removals.map (fun r => (r.call, r.contents, r.sessionIds)) = [(0, 7, ["s"])] ∧
      w.shared.paused.map (fun p => (p.call, p.sessionId, p.checkpoint)) = [(0, "s", none)]) ∧
    ∃ w : World (Fin 2) Unit ℕ, RunUnder (step oneBackend) Always evictFromZero w ∧ (w.thread 0).isEmpty ∧
      w.shared.removals.map (fun r => (r.call, r.contents, r.sessionIds)) = [(0, 7, ["s"])] ∧
      w.shared.paused.map (fun p => (p.call, p.sessionId, p.checkpoint.bind (·.providerSnapshotId))) =
        [(0, "s", some "s1")] ∧
      w.shared.captured "s1" = some 0 := by
  refine ⟨?_, ?_⟩
  · exact exists_run_of_exec (step oneBackend) Always evictFromZero _
      [(1, { effect := some 7 }), (1, {}), (1, {}), (0, {}), (0, {}), (0, {}), (0, {}), (0, {}), (0, {}), (0, {}),
        (0, {})] (by decide)
  · exact exists_run_of_exec (step oneBackend) Always evictFromZero _
      [(0, {}), (0, {}), (0, {}), (0, {}), (0, snapshotMade "s1"), (0, {}),
        (1, { effect := some 7 }), (0, {}), (0, {}),
        (0, {}), (0, {})] (by decide)

end XiaoO.Gateway.Tracked
