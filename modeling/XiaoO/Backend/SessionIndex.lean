import XiaoO.Base.Runs
import XiaoO.Backend.Checkpoint

/-!
# The session index and the map of backends

A backend manager holds three maps that refer to each other: the backends, the index from sessions
to backends, and in each backend the ids of the backends that were checked out from it (`lineage`).

## The model

A step is a critical section that writes, in any order: the end of `ensure_session_backend`, the
second locked part of `checkout_backend`, `release_session`, `evict_backend_by_id` and
`shutdown_all`. The locked parts before an `await` only read, and what they read is read again. The
lineage of the backends is kept beside their entries.

`ensure_session_backend` makes a random id, which is assumed to be new (`NewIds`). A checkout may
ask for any id.

## What is proved

In every state that can be reached the index and the map agree, a backend without a session was
checked out without one, and the children of a backend are in the map (`index_agrees_of_run`). A
child is found by its parent through the id alone, so the invariant also says that the child names
the parent (`Inv`): that is what `detach_from_parent` undoes.
-/

namespace XiaoO.Backend.SessionIndex

open XiaoO.Base Function SortedMap Option

/-- What the lock guards, with the lineage of each backend: its parent and its children, and whether
it was checked out without a session. -/
structure State extends BackendManagerState where
  parentBackendId : String → Option String := fun _ => none
  childrenBackendIds : String → List String := fun _ => []
  bare : String → Bool := fun _ => false

namespace State

variable (s : State)

/-- Change the children of a backend, if it is in the map. -/
def modifyChildren (parent : Option String) (f : List String → List String) : State :=
  { s with childrenBackendIds := fun b =>
      if parent = some b ∧ (s.backends.get? b).isSome then f (s.childrenBackendIds b) else s.childrenBackendIds b }

def detachFromParent (backendId : String) : State :=
  s.modifyChildren (s.parentBackendId backendId) (·.filter (· ≠ backendId))

def add (backendId : String) (sessionId source : Option String) (entry : BackendInstanceEntry) : State where
  toBackendManagerState := s.bind backendId sessionId { entry with sessionIds := sessionId.toList }
  parentBackendId := update s.parentBackendId backendId source
  childrenBackendIds := update s.childrenBackendIds backendId []
  bare := update s.bare backendId sessionId.isNone

def insertCheckoutChild (source sessionId : Option String) (backendId : String)
    (entry : BackendInstanceEntry) : State :=
  (s.modifyChildren source (·.insert backendId)).add backendId sessionId source entry

def after (removed : Option String) (left : BackendManagerState) : State :=
  match removed with
  | none => { s with toBackendManagerState := left }
  | some backendId => { s with toBackendManagerState := left }.detachFromParent backendId

end State

inductive Section where
  | ensureSessionBackend (sessionId backendId : String) (entry : BackendInstanceEntry)
  | checkoutBackend (source sessionId : Option String) (backendId : String) (entry : BackendInstanceEntry)
  | releaseSession (sessionId : String)
  | evictBackendById (backendId : String)
  | shutdownAll

variable (s : State)

def step : Section → Option State
  | .ensureSessionBackend sessionId backendId entry =>
    some (if (s.sessionIndex.get? sessionId).isSome then s else s.add backendId (some sessionId) none entry)
  | .checkoutBackend source sessionId backendId entry =>
    match checkoutConflict s.toBackendManagerState backendId sessionId with
    | .error _ => some s
    | .ok () => some (s.insertCheckoutChild source sessionId backendId entry)
  | .releaseSession sessionId =>
    let (removed, left) := s.releaseSession sessionId
    some (s.after (removed.map Prod.fst) left)
  | .evictBackendById backendId =>
    let (removed, left) := s.evict backendId
    some (s.after (removed.map fun _ => backendId) left)
  | .shutdownAll => some { s with toBackendManagerState := {} }

/-- The id of a new backend is not in use. -/
def NewIds : Section → Prop
  | .ensureSessionBackend _ backendId _ => s.backends.get? backendId = none
  | _ => True

instance : DecidableRel NewIds := fun s x => by
  cases x <;> (dsimp only [NewIds]; infer_instance)

/-- **The property**: the maps agree. -/
structure Agrees : Prop where
  index : ∀ i b, s.sessionIndex.get? i = some b ↔ ∃ e, s.backends.get? b = some e ∧ i ∈ e.sessionIds
  inhabited : ∀ b e, s.backends.get? b = some e → e.sessionIds ≠ [] ∨ s.bare b
  children : ∀ b e, s.backends.get? b = some e → ∀ c ∈ s.childrenBackendIds b, (s.backends.get? c).isSome

/-- A child names its parent. -/
structure Inv : Prop extends Agrees s where
  parent : ∀ b e, s.backends.get? b = some e → ∀ c ∈ s.childrenBackendIds b, s.parentBackendId c = some b

/-! ### What the sections do -/

variable {s : State} {b : String}

/-- A new backend, for a session that has none. -/
theorem Inv.insertCheckoutChild (h : Inv s) (hb : s.backends.get? b = none) {i : Option String}
    (hi : ∀ j ∈ i, s.sessionIndex.get? j = none) (sr : Option String) (e : BackendInstanceEntry) :
    Inv (s.insertCheckoutChild sr i b e) := by
  have hm : ∀ c, (s.insertCheckoutChild sr i b e).backends.get? c =
      if c = b then some { e with sessionIds := i.toList } else s.backends.get? c := by
    intro c
    exact get?_insert ..
  have hx : ∀ j, (s.insertCheckoutChild sr i b e).sessionIndex.get? j =
      if i = some j then some b else s.sessionIndex.get? j := by
    intro j
    cases i with
    | none => rfl
    | some k => exact (get?_insert ..).trans (if_congr (by simp [eq_comm]) rfl rfl)
  have hc : ∀ p c, c ∈ (s.insertCheckoutChild sr i b e).childrenBackendIds p →
      p ≠ b ∧ (c ∈ s.childrenBackendIds p ∨ c = b ∧ sr = some p) := by
    simp only [State.insertCheckoutChild, State.add, State.modifyChildren, update_apply]
    grind
  have hp : ∀ c, (s.insertCheckoutChild sr i b e).parentBackendId c =
      if c = b then sr else s.parentBackendId c := fun c => update_apply ..
  have hr : ∀ c, (s.insertCheckoutChild sr i b e).bare c = if c = b then i.isNone else s.bare c :=
    fun c => update_apply ..
  constructor
  · constructor
    · intro j c
      have hj := h.index j c
      grind
    · intro c e'
      have hc := h.inhabited c
      cases i <;> grind
    · intro p e' he c hk
      have hch := h.children p
      grind
  · intro p e' he c hk
    -- the new id is nobody's child before
    have hch := h.children p
    have hpr := h.parent p
    grind

/-- A backend that goes with all its sessions. -/
theorem Inv.remove (h : Inv s) {t : BackendManagerState}
    (hm : ∀ c, t.backends.get? c = if c = b then none else s.backends.get? c)
    (hx : ∀ i c, t.sessionIndex.get? i = some c ↔ c ≠ b ∧ s.sessionIndex.get? i = some c) :
    Inv (s.after (some b) t) := by
  have hc : ∀ p c, c ∈ (s.after (some b) t).childrenBackendIds p ↔
      c ∈ s.childrenBackendIds p ∧ (s.parentBackendId b = some p ∧ (t.backends.get? p).isSome → c ≠ b) := by
    simp only [State.after, State.detachFromParent, State.modifyChildren]
    grind
  have hg : (s.after (some b) t).toBackendManagerState = t := rfl
  have hp : (s.after (some b) t).parentBackendId = s.parentBackendId := rfl
  have hr : (s.after (some b) t).bare = s.bare := rfl
  constructor
  · constructor
    · intro i c
      have hi := h.index i c
      grind
    · intro c e he
      have hn := h.inhabited c e
      grind
    · intro p e he c hcp
      -- a child that names another parent is not the one removed
      have hch := h.children p e
      have hpr := h.parent p e
      grind
  · intro p e he c hcp
    have hpr := h.parent p e
    grind

theorem Inv.evict (h : Inv s) (b : String) : Inv (s.after ((s.evict b).1.map fun _ => b) (s.evict b).2) := by
  rw [BackendManagerState.evict]
  cases hb : s.backends.get? b with
  | none => exact h
  | some e =>
    refine h.remove (fun c => get?_erase ..) fun i c => ?_
    have hi := h.index i b
    rw [get?_foldl_erase]
    grind

theorem Inv.releaseSession (h : Inv s) (i : String) :
    Inv (s.after ((s.releaseSession i).1.map Prod.fst) (s.releaseSession i).2) := by
  rw [BackendManagerState.releaseSession]
  cases hi : s.sessionIndex.get? i with
  | none => exact h
  | some b =>
    obtain ⟨e, hb, hie⟩ := (h.index i b).mp hi
    have hj : ∀ j, s.sessionIndex.get? j = some b ↔ j ∈ e.sessionIds := by
      intro j
      simp [h.index j b, hb]
    simp only [hb]
    split_ifs with hn
    · refine h.remove (fun c => get?_erase ..) fun j c => ?_
      rw [List.isEmpty_iff, List.filter_eq_nil_iff] at hn
      rw [get?_erase]
      grind
    · constructor
      · constructor
        · intro j c
          have hjc := h.index j c
          dsimp only [State.after, map_none]
          grind [get?_insert, get?_erase]
        · intro c e' he
          have hc := h.inhabited c e'
          dsimp only [State.after, map_none] at he ⊢
          grind [get?_insert]
        · intro p e' he c hcp
          have hch := h.children p
          dsimp only [State.after, map_none] at he hcp ⊢
          grind [get?_insert]
      · intro p e' he c hcp
        have hpr := h.parent p
        dsimp only [State.after, map_none] at he hcp ⊢
        grind [get?_insert]

theorem inv_empty (p : String → Option String) (c : String → List String) (br : String → Bool) :
    Inv ⟨{}, p, c, br⟩ := by
  have hn : ∀ b e, ({} : BackendManagerState).backends.get? b ≠ some e := fun _ _ => nofun
  exact ⟨⟨fun _ _ => ⟨nofun, fun ⟨_, h, _⟩ => (hn _ _ h).elim⟩, fun _ _ h => (hn _ _ h).elim,
    fun _ _ h => (hn _ _ h).elim⟩, fun _ _ h => (hn _ _ h).elim⟩

theorem checkoutConflict_eq_ok {i : Option String} (h : checkoutConflict s.toBackendManagerState b i = .ok ()) :
    s.backends.get? b = none ∧ ∀ j ∈ i, s.sessionIndex.get? j = none := by
  unfold checkoutConflict at h
  split_ifs at h with hb
  refine ⟨not_isSome_iff_eq_none.mp hb, ?_⟩
  rintro j rfl
  dsimp only at h
  split at h
  · assumption
  · cases h

theorem Inv.step {x : Section} {t : State} (h : Inv s) (hP : NewIds s x) (hs : step s x = some t) : Inv t := by
  cases x with
  | ensureSessionBackend i b e =>
    obtain rfl := some.inj hs
    split_ifs with hi
    · exact h
    · refine h.insertCheckoutChild hP (i := some i) ?_ none e
      simpa using hi
  | checkoutBackend sr i b e =>
    rw [SessionIndex.step] at hs
    split at hs
    · exact some.inj hs ▸ h
    · next hc =>
      obtain rfl := some.inj hs
      obtain ⟨hb, hi⟩ := checkoutConflict_eq_ok hc
      exact h.insertCheckoutChild hb hi sr e
  | releaseSession i => exact some.inj hs ▸ h.releaseSession i
  | evictBackendById b => exact some.inj hs ▸ h.evict b
  | shutdownAll =>
    obtain rfl := some.inj hs
    exact inv_empty ..

/-- **The maps agree in every state that can be reached.** -/
theorem index_agrees_of_run {t : State} (h : RunUnder SessionIndex.step NewIds {} t) : Agrees t := by
  have hi : Inv t := h.invariant (inv_empty ..) fun hu hP hs => hu.step hP hs
  exact hi.toAgrees

/-- A session's backend, a checkout from it without a session, and the release of the session, which
takes the parent and leaves the child. -/
theorem index_agrees_of_orphan : ∃ t, RunUnder SessionIndex.step NewIds {} t ∧
    ((t.backends.get? "a").isNone ∧ t.parentBackendId "b" = some "a" ∧ (t.backends.get? "b").isSome) ∧ Agrees t := by
  obtain ⟨t, ht, hq⟩ := exists_run_of_exec SessionIndex.step NewIds {}
    (fun t => (t.backends.get? "a").isNone ∧ t.parentBackendId "b" = some "a" ∧ (t.backends.get? "b").isSome)
    [.ensureSessionBackend "s" "a" ⟨⟨"a", "", "", ""⟩, ⟨"e2b", "null"⟩, "", [], {}⟩,
      .checkoutBackend (some "a") none "b" ⟨⟨"b", "", "", ""⟩, ⟨"e2b", "null"⟩, "", [], {}⟩,
      .releaseSession "s"] (by decide)
  exact ⟨t, ht, hq, index_agrees_of_run ht⟩

end XiaoO.Backend.SessionIndex
