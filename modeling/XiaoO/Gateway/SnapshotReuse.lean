import XiaoO.Gateway.TrackedBackend

/-!
# When a snapshot may be reused

`checkpoint_backend` gives out the checkpoint of the tracker again when the tracker is
not dirty. That is sound only if the snapshot still has the contents of the sandbox.

## What is proved

Three runs in which it is not (`stale_snapshot_is_reused`): a call that fails after it has
written, a write between the snapshot and its recording, and `exec_streaming`, which never
marks the tracker. In every run in which

* contents are changed only by calls that mark the tracker, and not while a checkpoint is
  between its two looks at the tracker or between its snapshot and its recording,
* a call that has changed the contents returns `Ok`,
* no change is still to be marked when a checkpoint looks at the tracker,

every reused snapshot has the contents of the sandbox (`reuse_sound_of_run`).
-/

namespace XiaoO.Gateway.Tracked

open XiaoO.Base XiaoO.Backend XiaoO.Backend.Processes List

variable {ι π C : Type} (s : Shared ι π C) (w : World ι π C)

/-- **The property**: the snapshot of a checkpoint that was reused had the contents of the
sandbox. -/
def ReuseSound : Prop :=
  ∀ r ∈ w.shared.reuses, r.checkpoint.providerSnapshotId.isSome → r.captured = some r.contents

/-! ### The condition -/

/-- The call has changed contents, and the tracker does not know. -/
def Instr.isTouched : Instr π → Bool
  | .inner _ touched | .markDirty touched => touched
  | _ => false

/-- A checkpoint is between its two looks at the tracker, or between snapshot and recording. -/
def Instr.isSensitive : Instr π → Bool
  | .readCheckpoint _ | .setCheckpoint _ _ => true
  | _ => false

/-- The condition on carrying out an instruction. -/
def Undisturbed (env : Env C) : Instr π → Prop
  | .inner mutation touched =>
    if env.effect.isSome then mutation.marks ∧ ¬ Somewhere w Instr.isSensitive else touched → env.ok
  | .readDirty _ => ¬ Somewhere w Instr.isTouched
  | _ => True

/-- A condition on the instruction that a step carries out. -/
def AtStep (P : World ι π C → Env C → Instr π → Prop) (w : World ι π C) (l : ι × Env C) : Prop :=
  ∀ x ∈ (w.thread l.1).head?, P w l.2 x

instance [Fintype ι] (w : World ι π C) (env : Env C) (x : Instr π) : Decidable (Undisturbed w env x) := by
  cases x <;> (delta Undisturbed; infer_instance)

instance (P : World ι π C → Env C → Instr π → Prop) [∀ w env x, Decidable (P w env x)] :
    DecidableRel (AtStep P) := by
  intro w l
  delta AtStep
  infer_instance

/-! ### What the tracker knows -/

/-- The snapshot of a checkpoint has the contents of the sandbox. -/
def Faithful (checkpoint : BackendCheckpointRef) : Prop :=
  ∀ id, checkpoint.providerSnapshotId = some id → s.captured id = some s.contents

/-- The checkpoint of the tracker is faithful. -/
def TrackerFaithful : Prop := ∀ checkpoint ∈ s.tracker.checkpoint, Faithful s checkpoint

/-- What a call relies on: who has changed the contents will mark the tracker, a tracker that
was found clean is faithful, and a snapshot that is to be recorded is up to date. -/
def Fits : Instr π → Prop
  | .inner mutation touched => touched → mutation.marks
  | .readCheckpoint _ => TrackerFaithful s
  | .setCheckpoint snapshot _ => s.captured snapshot.snapshotId = some s.contents
  | _ => True

/-- What holds in every state of a run. -/
structure Tracking : Prop where
  fits : ∀ k, ∀ x ∈ w.thread k, Fits w.shared x
  /-- A tracker that is clean, with nothing to be marked, is faithful. -/
  clean : w.shared.tracker.dirty = false → ¬ Somewhere w Instr.isTouched → TrackerFaithful w.shared
  reuses : ReuseSound w

variable {s : Shared ι π C}

/-- An instruction fits as long as the sandbox, its snapshots and the tracker stay. -/
theorem Fits.congr {w : World ι π C} (hcn : s.contents = w.shared.contents) (hc : s.captured = w.shared.captured)
    (ht : s.tracker = w.shared.tracker) {y : Instr π} (h : Fits w.shared y) : Fits s y := by
  have htr : TrackerFaithful s ↔ TrackerFaithful w.shared := by
    simp only [TrackerFaithful, Faithful, hcn, hc, ht]
  cases y with
  | readCheckpoint => exact htr.mpr h
  | setCheckpoint => exact (congrFun hc _).trans (h.trans (congrArg some hcn.symm))
  | _ => exact h

theorem fits_goOn (r : Option BackendCheckpointRef) (p : Purpose) : ∀ y ∈ (p.goOn r : List (Instr π)), Fits s y := by
  cases p with
  | request => exact forall_mem_nil _
  | eviction =>
    intro y hy
    obtain rfl := mem_singleton.mp hy
    trivial

theorem fits_choose (ns : ℕ) (en : BackendRegistryEntry π) (e : Evictor) : ∀ y ∈ e.choose ns en, Fits s y := by
  intro y hy
  cases e with
  | _ =>
    dsimp only [Evictor.choose] at hy
    split_ifs at hy <;> simp only [not_mem_nil, mem_singleton] at hy <;> subst hy <;> trivial

section Steps

variable [DecidableEq ι] {w : World ι π C} {i : ι} {x : Instr π} {rs f : List (Instr π)} {s : Shared ι π C}

theorem fits_put (h : Tracking w) (ht : w.thread i = x :: rs)
    (ho : ∀ k, ∀ y ∈ w.thread k, Fits w.shared y → Fits s y) (hf : ∀ y ∈ f, Fits s y) (k : ι) (y : Instr π)
    (hy : y ∈ (w.put i s (f ++ rs)).thread k) : Fits s y := by
  obtain ⟨hm, -⟩ | hm := mem_put ht hy
  · exact hf y hm
  · exact ho k y hm (h.fits k y hm)

/-- A step that does not touch the sandbox, its snapshots and the tracker. -/
theorem Tracking.quiet (h : Tracking w) (htd : w.thread i = x :: rs) (hcn : s.contents = w.shared.contents)
    (hc : s.captured = w.shared.captured) (ht : s.tracker = w.shared.tracker)
    (hr : s.reuses = w.shared.reuses) (hf : ∀ y ∈ f, Fits w.shared y)
    (hx : x.isTouched → ∃ y ∈ f, y.isTouched) : Tracking (w.put i s (f ++ rs)) := by
  refine ⟨fits_put h htd (fun _ _ _ hft => hft.congr hcn hc ht) fun y hy => ?_, fun hd htc => ?_, ?_⟩
  · exact (hf y hy).congr hcn hc ht
  · have hcl := h.clean (ht ▸ hd) fun hw => htc (hw.put htd hx)
    rw [Threads.put_shared]
    simpa only [TrackerFaithful, Faithful, hcn, hc, ht] using hcl
  · rw [ReuseSound, Threads.put_shared, hr]
    exact h.reuses

theorem Tracking.move (h : Tracking w) (htd : w.thread i = x :: rs) (hf : ∀ y ∈ f, Fits w.shared y)
    (hx : x.isTouched = false) : Tracking (w.put i w.shared (f ++ rs)) :=
  h.quiet htd rfl rfl rfl rfl hf fun ht => absurd ht (by simp [hx])

variable {t : Bool} {p : Purpose} (h : Tracking w)
include h

theorem Tracking.effect {m : Mutation} (contents : C) (htd : w.thread i = .inner m t :: rs) (hm : m.marks)
    (hs : ¬ Somewhere w Instr.isSensitive) :
      Tracking (w.put i { w.shared with contents } ([.inner m true] ++ rs)) := by
  refine ⟨fits_put h htd (fun k y hy hf => ?_) fun y hy => ?_, fun _ ht => ?_, h.reuses⟩
  · cases y with
    | readCheckpoint | setCheckpoint => exact absurd ⟨k, _, hy, rfl⟩ hs
    | _ => exact hf
  · obtain rfl := mem_singleton.mp hy
    exact fun _ => hm
  · exact absurd ⟨i, .inner m true, by simp, rfl⟩ ht

theorem Tracking.returns {m : Mutation} {ok : Bool} (htd : w.thread i = .inner m t :: rs) (hok : t → ok) :
    Tracking (w.put i w.shared ((if ok && m.marks then [.markDirty t] else []) ++ rs)) := by
  refine h.quiet htd rfl rfl rfl rfl (fun y hy => ?_) fun ht => ?_
  · split_ifs at hy
    · obtain rfl := mem_singleton.mp hy
      trivial
    · cases hy
  · -- the call has changed the contents, so it succeeds and marks the tracker
    have hm : m.marks := h.fits i (.inner m t) (by simp [htd]) ht
    rw [hok ht, hm]
    exact ⟨.markDirty t, by simp, ht⟩

theorem Tracking.markDirty (ht : w.thread i = .markDirty t :: rs) :
    Tracking (w.put i { w.shared with tracker := w.shared.tracker.markDirty } ([] ++ rs)) := by
  refine ⟨fits_put h ht (fun k y hy hf => ?_) (forall_mem_nil _), nofun, h.reuses⟩
  cases y with
  | _ => exact hf

/-- The second look at the tracker: the checkpoint is reused. -/
theorem Tracking.reuse (ht : w.thread i = .readCheckpoint p :: rs)
    {checkpoint : BackendCheckpointRef} (hc : w.shared.tracker.checkpoint = some checkpoint)
    (hfr : ∀ y ∈ f, Fits w.shared y) : Tracking (w.put i { w.shared with
        reuses := ⟨checkpoint, w.shared.contents, checkpoint.providerSnapshotId.bind w.shared.captured⟩ ::
          w.shared.reuses } (f ++ rs)) := by
  have hf : TrackerFaithful w.shared := h.fits i (.readCheckpoint p) (by simp [ht])
  refine ⟨fits_put h ht (fun _ y _ hft => ?_) fun y hy => ?_, fun hd htc => ?_, ?_⟩
  · cases y with
    | _ => exact hft
  · have hft := hfr y hy
    cases y with
    | _ => exact hft
  · exact h.clean hd fun hw => htc (hw.put ht nofun)
  · intro r hr hs
    rcases mem_cons.mp hr with rfl | hr
    · obtain ⟨id, hid⟩ := Option.isSome_iff_exists.mp hs
      change checkpoint.providerSnapshotId.bind w.shared.captured = some w.shared.contents
      rw [hid]
      exact hf checkpoint hc id hid
    · exact h.reuses r hr hs

theorem Tracking.snapshot (htd : w.thread i = .createSnapshot p :: rs) (sn : E2bSnapshotResult) : Tracking (w.put i
      { w.shared with captured := Function.update w.shared.captured sn.snapshotId (some w.shared.contents) }
      ([.setCheckpoint sn p] ++ rs)) := by
  have hc : ∀ id, w.shared.captured id = some w.shared.contents →
      Function.update w.shared.captured sn.snapshotId (some w.shared.contents) id = some w.shared.contents := by
    intro id hid
    rcases eq_or_ne id sn.snapshotId with rfl | hne
    · simp
    · simpa [hne] using hid
  refine ⟨fits_put h htd (fun k y _ hf => ?_) fun y hy => ?_, fun hd ht => ?_, h.reuses⟩
  · cases y with
    | readCheckpoint => exact fun c hm id hid => hc id (hf c hm id hid)
    | setCheckpoint => exact hc _ hf
    | _ => exact hf
  · obtain rfl := mem_singleton.mp hy
    simp [Fits]
  · have hcl := h.clean hd fun hw => ht (hw.put htd nofun)
    exact fun c hm id hid => hc id (hcl c hm id hid)

/-- The checkpoint of a snapshot is recorded. -/
theorem Tracking.record {sn : E2bSnapshotResult}
    (ht : w.thread i = .setCheckpoint sn p :: rs) {checkpoint : BackendCheckpointRef}
    (hc : checkpoint.providerSnapshotId = some sn.snapshotId) (hfr : ∀ y ∈ f, Fits w.shared y) :
    Tracking (w.put i { w.shared with tracker := w.shared.tracker.setCheckpoint checkpoint } (f ++ rs)) := by
  have hup : w.shared.captured sn.snapshotId = some w.shared.contents :=
    h.fits i (.setCheckpoint sn p) (by simp [ht])
  have hf : TrackerFaithful { w.shared with tracker := w.shared.tracker.setCheckpoint checkpoint } := by
    rintro _ ⟨⟩ id hid
    obtain rfl : sn.snapshotId = id := Option.some.inj (hc.symm.trans hid)
    exact hup
  refine ⟨fits_put h ht (fun _ y _ hft => ?_) fun y hy => ?_, fun _ _ => hf, h.reuses⟩
  · cases y with
    | readCheckpoint => exact hf
    | _ => exact hft
  · have hft := hfr y hy
    cases y with
    | readCheckpoint => exact hf
    | _ => exact hft

theorem Tracking.step {su : Setup π} {w' : World ι π C} {l : ι × Env C}
    (hP : AtStep Undisturbed w l) (hs : step su w l = some w') : Tracking w' := by
  obtain ⟨x, rs, ht, rfl⟩ := step_eq_some hs
  have hx : Undisturbed w l.2 x := hP x (by simp [ht])
  cases x with dsimp only [exec]
  | inner =>
    dsimp only [exec, Undisturbed] at hx ⊢
    cases he : l.2.effect with rw [he] at hx
    | some cs => exact h.effect cs ht hx.1 hx.2
    | none => exact h.returns ht hx
  | markDirty => exact h.markDirty ht
  | readDirty p =>
    split_ifs with hb hd
    · exact h.move ht (fits_goOn none p) rfl
    · exact h.move ht (by simp [Fits]) rfl
    · refine h.move ht (fun y hy => ?_) rfl
      obtain rfl := mem_singleton.mp hy
      exact h.clean (Bool.eq_false_of_not_eq_true hd) hx
  | readCheckpoint p =>
    split
    · exact h.move ht (by simp [Fits]) rfl
    · next c hc => exact h.reuse ht hc (fits_goOn _ p)
  | createSnapshot p =>
    split
    · exact h.move ht (fits_goOn none p) rfl
    · next sn _ => exact h.snapshot ht sn
  | setCheckpoint sn p =>
    split_ifs
    · exact h.move ht (fits_goOn none p) rfl
    · exact h.record ht rfl (fits_goOn _ p)
  | choose ev e => exact h.move ht (fits_choose _ e ev) rfl
  | readRegistry =>
    refine h.move ht (fun y hy => ?_) rfl
    obtain ⟨e, -, rfl⟩ := mem_map.mp hy
    trivial
  | evict =>
    split
    · exact h.move ht (forall_mem_nil _) rfl
    · exact h.quiet ht rfl rfl rfl rfl (by simp [Fits]) nofun
  | delete =>
    split_ifs
    · exact h.move ht (forall_mem_nil _) rfl
    · exact h.move ht (by simp [Fits]) rfl
  | unregister => exact h.quiet ht rfl rfl rfl rfl (by simp [Fits]) nofun
  | updateSessionStatus | refreshHeartbeats | setPendingEviction | markPaused | reclaim =>
    exact h.quiet ht rfl rfl rfl rfl (forall_mem_nil _) nofun

end Steps

/-! ### Runs -/

theorem tracking_start {su : Setup π} {cs : C} {c : String → Option C}
    {o : Option BackendCheckpointRef} {st : SortedMap String SessionRecord} {os : ι → Operation}
    (ho : ∀ checkpoint ∈ o, ∀ id, checkpoint.providerSnapshotId = some id → c id = some cs) :
    Tracking (start su cs c o st os) := by
  refine ⟨fun k => ?_, fun _ _ checkpoint hm => ?_, nofun⟩
  · exact Operation.forall_mem_program (fun _ ht => absurd ht Bool.false_ne_true) (fun _ _ _ => trivial)
      (fun _ _ => trivial) trivial (fun _ => trivial) (os k)
  · cases o with
    | none => cases hm
    | some c' =>
      obtain rfl : c' = checkpoint := Option.some.inj hm
      exact ho _ rfl

/-- **A reused snapshot has the contents of the sandbox**, in every run of any calls whose steps
are all undisturbed. The backend may have been made from a snapshot, whose contents it then has. -/
theorem reuse_sound_of_run [DecidableEq ι] (setup : Setup π) (contents : C) (captured : String → Option C)
    (origin : Option BackendCheckpointRef) (store : SortedMap String SessionRecord) (operations : ι → Operation)
    (horigin : ∀ checkpoint ∈ origin, ∀ id, checkpoint.providerSnapshotId = some id → captured id = some contents)
    {w : World ι π C}
    (hrun : RunUnder (step setup) (AtStep Undisturbed) (start setup contents captured origin store operations) w) :
    ReuseSound w := by
  refine (hrun.invariant (I := Tracking) ?_ ?_).reuses
  · exact tracking_start horigin
  · exact fun h hP hs => h.step hP hs

/-! ### Three calls on one backend -/

def oneBackend : Setup Unit := { request := { backendId := "b", sessionId := some "s" }, owner := () }

/-- A checkpoint, a call on the backend, and another checkpoint. -/
def checkpointTwice (mutation : Mutation) : Fin 3 → Operation
  | 1 => .mutate mutation
  | _ => .checkpointBackend none "null"

/-- The backend starts with the contents 0. -/
def fromZero (mutation : Mutation) : World (Fin 3) Unit ℕ :=
  start oneBackend 0 (fun _ => none) none .empty (checkpointTwice mutation)

/-- The answer of the provider to the request for a snapshot. -/
def snapshotMade (id : String) : Env ℕ := { uuid := id, snapshot := .ok ⟨id, []⟩ }

/-- A command runs, and the snapshot that is made after it is reused. -/
theorem reuse_sound_of_run_exec : ∃ w : World (Fin 3) Unit ℕ,
      RunUnder (step oneBackend) (AtStep Undisturbed) (fromZero .exec) w ∧
        (w.shared.reuses.map (·.captured) = [some 7] ∧ w.shared.contents = 7) ∧ ReuseSound w :=
  (exists_run_of_exec _ _ _ _
    [(1, { effect := some 7 }), (1, {}), (1, {}), (0, {}), (0, snapshotMade "s1"), (0, {}), (2, {}),
      (2, {})] (by decide)).imp
    fun w ⟨hr, hw⟩ =>
      ⟨hr, hw, reuse_sound_of_run oneBackend 0 (fun _ => none) none .empty (checkpointTwice .exec) nofun hr⟩

/-- **Stale snapshots are reused**: after a write that fails when it has already changed the
contents, after a write between the snapshot and its recording, and after `exec_streaming`. Each
time the second checkpoint reuses a snapshot of the contents 0, while the sandbox has 7. -/
theorem stale_snapshot_is_reused :
    (∃ w : World (Fin 3) Unit ℕ, RunUnder (step oneBackend) Always (fromZero .writeBytes) w ∧
      w.shared.reuses.map (fun r => (r.contents, r.captured)) = [(7, some 0)]) ∧
    (∃ w : World (Fin 3) Unit ℕ, RunUnder (step oneBackend) Always (fromZero .exec) w ∧
      (w.thread 1).isEmpty ∧ w.shared.reuses.map (fun r => (r.contents, r.captured)) = [(7, some 0)]) ∧
    ∃ w : World (Fin 3) Unit ℕ, RunUnder (step oneBackend) Always (fromZero .execStreaming) w ∧
      w.shared.reuses.map (fun r => (r.contents, r.captured)) = [(7, some 0)] := by
  refine ⟨?_, ?_, ?_⟩
  · exact exists_run_of_exec (step oneBackend) Always (fromZero .writeBytes) _
      [(0, {}), (0, {}), (0, snapshotMade "s1"), (0, {}), (1, { effect := some 7 }), (1, { ok := false }), (2, {}),
        (2, {})] (by decide)
  · exact exists_run_of_exec (step oneBackend) Always (fromZero .exec) _
      [(0, {}), (0, {}), (0, snapshotMade "s1"), (1, { effect := some 7 }), (1, {}), (1, {}), (0, {}), (2, {}),
        (2, {})] (by decide)
  · exact exists_run_of_exec (step oneBackend) Always (fromZero .execStreaming) _
      [(0, {}), (0, {}), (0, snapshotMade "s1"), (0, {}), (1, { effect := some 7 }), (1, {}), (2, {}), (2, {})]
      (by decide)

end XiaoO.Gateway.Tracked
