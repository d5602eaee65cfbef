import XiaoO.Backend.Processes

/-!
# What an instruction does to one backend

The model of `Processes` from the point of view of one backend: its *account* says which
processes have it in memory, whether it is in the registry, and how often its place was
confirmed and released. What the calls are still to do for it are their *duties*.

## What is proved

Every instruction of a call, of any of the managers' functions, has one of seven effects
on a given backend (`exec_effect`): it does not touch it, makes it, confirms it, registers
it, removes it from memory, releases its place or takes it out of the registry. Each of
them says which duties the call gets.
-/

namespace XiaoO.Backend.Processes

open XiaoO.Base List Function SortedMap Shared

variable {π : Type}

/-! ### Duties -/

/-- What a call may have to do for a backend: confirm its reservation, register it, release
its place after it was removed from memory, and take it out of the registry after that. -/
inductive Duty where
  | confirm
  | register
  | release
  | unregister
  deriving DecidableEq

/-- The duty that an instruction discharges, and the backend. -/
def Instr.duty? : Instr π → Option (Duty × String)
  | .confirm request _ => some (.confirm, request.backendId)
  | .register entry => some (.register, entry.backendId)
  | .release backendId _ => some (.release, backendId)
  | .unregister backendId => some (.unregister, backendId)
  | _ => none

/-- How often a duty to a backend occurs in a list of instructions. -/
def due (d : Duty) (b : String) (todo : List (Instr π)) : ℕ := todo.countP fun x => x.duty? = some (d, b)

/-- The backend that an instruction may make. -/
def Instr.makes? : Instr π → Option String
  | .create request | .insertCheckoutChild request => some request.backendId
  | _ => none

def Instr.reclaims? : Instr π → Option String
  | .reclaim entry => some entry.backendId
  | _ => none

/-! ### Accounts -/

/-- The kind of a backend in the memory of a process. -/
def kindIn (state : BackendManagerState) (b : String) : Option String := (state.backends.get? b).map (·.config.kind)

/-- What is known of one backend: the processes that have it, with its kind, and what the
registry and the history say. -/
structure Account (π : Type) where
  kind? : π → Option String
  registered : Bool
  issued : Bool
  confirms : ℕ
  releases : ℕ

def Shared.account (s : Shared π) (b : String) : Account π where
  kind? p := kindIn (s.memory p) b
  registered := (s.registry.get? b).isSome
  issued := s.issued.contains b
  confirms := s.confirms b
  releases := s.releases b

/-! ### Counting duties -/

section Due

variable (d : Duty) (b : String)

theorem due_cons (x : Instr π) (todo : List (Instr π)) : due d b (x :: todo) = due d b [x] + due d b todo := by
  simp only [due, countP_cons, countP_nil]
  omega

@[simp] theorem due_append (t todo' : List (Instr π)) : due d b (t ++ todo') = due d b t + due d b todo' :=
  countP_append

theorem due_singleton (x : Instr π) : due d b [x] = if x.duty? = some (d, b) then 1 else 0 := by
  simp [due, countP_cons]

theorem due_cons_of_duty {x : Instr π} {t : List (Instr π)} {d' : Duty} {b' : String} (hx : x.duty? = some (d', b'))
    (ht : due d b t = 0) : due d b (x :: t) = if d = d' ∧ b = b' then 1 else 0 := by
  rw [due_cons, ht, due_singleton, hx]
  simp [eq_comm]

/-- An instruction discharges one duty. -/
theorem due_singleton_of_ne {x : Instr π} {d' : Duty} (hx : 0 < due d' b [x]) (hd : d ≠ d') : due d b [x] = 0 := by
  rw [due_singleton] at hx ⊢
  split_ifs at hx with hdt
  · simp [hdt, Ne.symm hd]
  · exact absurd hx (Nat.lt_irrefl 0)

theorem due_tail {todo : List (Instr π)} (h : due d b todo = 0) : due d b todo.tail = 0 :=
  Nat.le_zero.mp (h ▸ (tail_sublist todo).countP_le)

variable (m : Option String)

@[simp] theorem due_unmark : due d b (unmark m : List (Instr π)) = 0 := by
  cases m <;> rfl

@[simp] theorem due_goOn (loop : RetryLoop) : due d b (loop.goOn m : List (Instr π)) = 0 := by
  rcases loop with ⟨_, _ | _⟩ | ⟨_, _ | _⟩ <;> simp [RetryLoop.goOn] <;> rfl

@[simp] theorem due_freed (l : RetryLoop) : due d b (l.freed m : List (Instr π)) = 0 := by
  simp [RetryLoop.freed]

@[simp] theorem due_reassert (r : NewBackend) (bi : String) : due d b (reassert r bi : List (Instr π)) = 0 := by
  rw [reassert]
  split
  · split_ifs <;> rfl
  · rfl

/-- What is to be done for the backends that were removed: to release those that are counted. -/
theorem due_finalizeRemoval (su : Setup) (r : List (String × BackendInstanceEntry)) :
    due d b (r.flatMap (finalizeRemoval su) : List (Instr π)) =
      if d = .release then r.countP (fun e => e.1 = b ∧ isCountedKind e.2.config.kind) else 0 := by
  induction r with
  | nil => simp [due]
  | cons e r ih =>
    have he : due d b (finalizeRemoval su e : List (Instr π)) =
        if d = .release ∧ e.1 = b ∧ isCountedKind e.2.config.kind then 1 else 0 := by
      rw [finalizeRemoval]
      split_ifs with hc h h <;> simp_all [due_singleton, Instr.duty?]
    rw [flatMap_cons, due_append, he, ih, countP_cons]
    by_cases hd : d = .release <;> simp [hd, Nat.add_comm]

end Due

def Next.first : Next π → List (Instr π)
  | .goOn first => first
  | .leave first => first

section Todo

variable {d : Duty} {b : String} {rest : List (Instr π)} {next : Next π}

theorem mem_todo {y : Instr π} (h : y ∈ next.todo rest) : y ∈ next.first ∨ y ∈ rest := by
  cases next with
  | goOn => exact mem_append.mp h
  | leave => exact .inl h

theorem due_first_le_todo : due d b next.first ≤ due d b (next.todo rest) := by
  cases next with
  | goOn => simp [Next.first, Next.todo]
  | leave => exact Nat.le_refl _

theorem due_todo_le : due d b (next.todo rest) ≤ due d b next.first + due d b rest := by
  cases next with
  | goOn => simp [Next.first, Next.todo]
  | leave => exact Nat.le_add_right _ _

theorem due_tail_todo (hf : due d b next.first.tail = 0) (hr : due d b rest = 0) :
    due d b (next.todo rest).tail = 0 := by
  cases next with
  | leave => exact hf
  | goOn first =>
    cases first with
    | nil => exact due_tail d b hr
    | cons x first =>
      change due d b (first ++ rest) = 0
      rw [due_append, hr]
      exact hf

end Todo

/-! ### What is removed from memory -/

/-- What a part of a function has removed from the memory of a process, and what it has left
there. -/
structure Removal (state : BackendManagerState) (removed : List (String × BackendInstanceEntry))
    (left : BackendManagerState) : Prop where
  /-- It was there. -/
  found : ∀ e ∈ removed, kindIn state e.1 = some e.2.config.kind
  /-- Each backend is removed once. -/
  once : ∀ b, removed.countP (fun e => e.1 = b) ≤ 1
  /-- It is not there any more. -/
  gone : ∀ e ∈ removed, kindIn left e.1 = none
  /-- The others still are. -/
  others : ∀ b, (∀ e ∈ removed, e.1 ≠ b) → kindIn left b = kindIn state b

theorem removal_nil {s left : BackendManagerState} (h : ∀ b, kindIn left b = kindIn s b) : Removal s [] left :=
  ⟨forall_mem_nil _, fun _ => Nat.zero_le _, forall_mem_nil _, fun b _ => h b⟩

theorem removal_singleton {state left : BackendManagerState} {backendId : String} {e : BackendInstanceEntry}
    (hf : kindIn state backendId = some e.config.kind) (hl : left.backends = state.backends.erase backendId) :
    Removal state [(backendId, e)] left := by
  have hk : ∀ b, kindIn left b = if b = backendId then none else kindIn state b := by
    intro b
    rw [kindIn, hl, get?_erase]
    split_ifs <;> rfl
  refine ⟨by simpa using hf, fun b => ?_, by simp [hk], fun b hb => ?_⟩
  · exact countP_le_length
  · have hne : backendId ≠ b := hb _ mem_cons_self
    simp [hk, Ne.symm hne]

variable (st : BackendManagerState)

theorem removal_evict (b : String) : Removal st ((st.evict b).1.toList.map (b, ·)) (st.evict b).2 := by
  rw [BackendManagerState.evict]
  split
  · exact removal_nil fun _ => rfl
  · next e he => exact removal_singleton (by simp [kindIn, he]) rfl

theorem removal_releaseSession (i : String) : Removal st (st.releaseSession i).1.toList (st.releaseSession i).2 := by
  rw [BackendManagerState.releaseSession]
  split
  · exact removal_nil fun _ => rfl
  · next bi _ =>
    dsimp only
    split
    · exact removal_nil fun _ => rfl
    · next e he =>
      split_ifs
      · exact removal_singleton (by simp [kindIn, he]) rfl
      · refine removal_nil fun b => ?_
        rw [kindIn, get?_insert]
        split_ifs with hb
        · simp [kindIn, hb, he]
        · rfl

theorem removal_drain : Removal st st.backends.entries {} := by
  have hm : ∀ e ∈ st.backends.entries, st.backends.get? e.1 = some e.2 := fun e he => mem_entries.mp he
  refine ⟨fun e he => by simp [kindIn, hm e he], st.backends.countP_key_le_one, fun _ _ => rfl, fun b hb => ?_⟩
  cases hg : st.backends.get? b with
  | none => simp only [kindIn, hg]; rfl
  | some => exact absurd rfl (hb _ (mem_entries.mpr hg))

theorem removal_remove (x : Instr π) (s : BackendManagerState) : Removal s (x.remove s).1 (x.remove s).2 := by
  cases x with
  | releaseSession i => exact removal_releaseSession s i
  | evictOwn b | evictMarkedOwn b => exact removal_evict s b
  | drain => exact removal_drain s
  | _ => exact removal_nil fun _ => rfl

/-! ### Accounts under changes of the state -/

section Accounts

variable (s : Shared π) (p : π) (b : String) (r : NewBackend)

/-- Taking a reservation back changes the counter only. -/
theorem cancel_eq (ns : ℕ) : ∃ counter, s.cancel r ns = { s with counter } := by
  rw [cancel]
  split_ifs
  · exact ⟨_, rfl⟩
  · exact ⟨s.counter, rfl⟩

theorem account_cancel (ns : ℕ) : (s.cancel r ns).account b = s.account b := by
  obtain ⟨c, hc⟩ := cancel_eq s r ns
  rw [hc]
  rfl

theorem account_releaseFor (bi sk : String) (ns : ℕ) : (s.releaseFor bi sk ns).account b =
      if b = bi then { s.account b with releases := s.releases b + 1 } else s.account b := by
  split_ifs with hb
  · simp [account, releaseFor, hb]
  · simp only [account, releaseFor, update_of_ne hb]

/-- The values in the registry are changed, its keys are not. -/
theorem account_mapValues (f : String → BackendRegistryEntry π → BackendRegistryEntry π) :
    ({ s with registry := s.registry.mapValues f } : Shared π).account b = s.account b := by
  simp only [account, get?_mapValues, Option.isSome_map]

variable [DecidableEq π]

theorem kindIn_update (m : π → BackendManagerState) (sta : BackendManagerState) :
    (fun q => kindIn (update m p sta q) b) = update (fun q => kindIn (m q) b) p (kindIn sta b) := by
  funext q
  rcases eq_or_ne q p with rfl | hq
  · simp
  · simp [hq]

theorem account_remember (sta : BackendManagerState) : (s.remember p sta).account b =
      { s.account b with kind? := update (s.account b).kind? p (kindIn sta b) } := by
  rw [remember, account, kindIn_update]
  rfl

theorem kindIn_insertBackend (i : String) (q : π) : kindIn ((s.insertBackend p r i).memory q) b =
      if q = p ∧ b = r.backendId then some r.config.kind else kindIn (s.memory q) b := by
  rcases eq_or_ne q p with rfl | hq
  · simp only [kindIn, insertBackend, remember, update_self, BackendManagerState.bind,
      get?_insert, true_and]
    split_ifs <;> rfl
  · simp [insertBackend, remember, hq]

theorem account_insertBackend (i : String) : (s.insertBackend p r i).account b =
      if b = r.backendId then
        { s.account b with
          kind? := update (s.account b).kind? p (some r.config.kind)
          issued := true }
      else s.account b := by
  rw [insertBackend, account]
  simp only [remember, kindIn_update]
  split_ifs with hb
  · simp [account, kindIn, BackendManagerState.bind, get?_insert, hb]
  · have hk : ∀ e, kindIn ((s.memory p).bind r.backendId r.sessionId e) b = kindIn (s.memory p) b := fun e => by
      simp [kindIn, BackendManagerState.bind, get?_insert, hb]
    rw [hk, update_eq_self p fun q => kindIn (s.memory q) b]
    simp [account, hb]

end Accounts

/-! ### The effect of an instruction on one backend -/

section Effects

variable [DecidableEq π]

/-- What an instruction of a call of the process `p` does to the account of a backend `b`, and
the duties to it that the call gets by the instructions `first` that follow. -/
inductive Effect (p : π) (b : String) (s : Shared π) (x : Instr π) (t : Shared π) (first : List (Instr π)) :
    Prop where
  | untouched (hacc : t.account b = s.account b) (hx : ∀ d, due d b [x] = 0) (hfirst : ∀ d, due d b first = 0)
  | created (kind : String) (hmakes : x.makes? = some b)
      (hacc : t.account b =
        { s.account b with kind? := Function.update (s.account b).kind? p (some kind), issued := true })
      (hfirst : ∀ d, d ≠ .confirm → due d b first = 0) (htail : due .confirm b first.tail = 0)
      (hcounted : isCountedKind kind → 0 < due .confirm b first)
  | confirmed (hx : 0 < due .confirm b [x]) (hacc : t.account b = { s.account b with confirms := s.confirms b + 1 })
      (hregister : due .register b first = 1) (hfirst : ∀ d, d ≠ .register → due d b first = 0)
      (htail : due .register b first.tail = 0)
  | registered (hx : 0 < due .register b [x]) (hacc : t.account b = { s.account b with registered := true })
      (hfirst : ∀ d, due d b first = 0)
  | removed (kind : String) (hremoved : ∃ e ∈ (x.remove (s.memory p)).1, e.1 = b)
      (hkind : (s.account b).kind? p = some kind)
      (hacc : t.account b = { s.account b with kind? := Function.update (s.account b).kind? p none })
      (hfirst : ∀ d, d ≠ .release → due d b first = 0) (honce : due .release b first ≤ 1)
      (hcounted : 0 < due .release b first → isCountedKind kind)
  | released (hx : 0 < due .release b [x] ∨ x.reclaims? = some b)
      (hacc : t.account b = { s.account b with releases := s.releases b + 1 })
      (hunregister : 0 < due .unregister b first) (hfirst : ∀ d, d ≠ .unregister → due d b first = 0)
      (htail : due .unregister b first.tail = 0)
  | unregistered (hx : 0 < due .unregister b [x]) (hacc : t.account b = { s.account b with registered := false })
      (hfirst : ∀ d, due d b first = 0)

variable {su : Setup} {p : π} {env : Env} {b : String} {s t : Shared π} {x : Instr π} {first : List (Instr π)}

/-- A backend that no instruction is about. -/
theorem Effect.quiet (ha : t.account b = s.account b) (hx : x.duty? = none) (hf : ∀ d, due d b first = 0) :
    Effect p b s x t first :=
  .untouched ha (fun d => by simp [due_singleton, hx]) hf

/-- The instruction of another backend. -/
theorem Effect.other {d : Duty} {bi : String} (hb : b ≠ bi) (ha : t.account b = s.account b)
    (hx : x.duty? = some (d, bi)) (hf : ∀ d, due d b first = 0) : Effect p b s x t first :=
  .untouched ha (fun d' => by simp [due_singleton, hx, Ne.symm hb]) hf

variable (request : NewBackend)

theorem effect_insertBackend (i : String) (hm : x.makes? = some request.backendId)
    (hx : x.duty? = none) (ha : t.account b = (s.insertBackend p request i).account b)
    (hf : first = [] ∧ ¬ isCountedKind request.config.kind ∨
      ∃ r, first = .confirm request i :: r ∧ ∀ d, due d b r = 0) : Effect p b s x t first := by
  have hc : ∀ d (r : List (Instr π)), (∀ d, due d b r = 0) →
      due d b (.confirm request i :: r) = if d = .confirm ∧ b = request.backendId then 1 else 0 :=
    fun d r hr => due_cons_of_duty d b rfl (hr d)
  rw [account_insertBackend] at ha
  split_ifs at ha with hb
  · subst hb
    obtain ⟨rfl, hk⟩ | ⟨r, rfl, hr⟩ := hf
    · exact .created request.config.kind hm ha (fun _ _ => rfl) rfl fun h => absurd h hk
    · refine .created request.config.kind hm ha (fun d hd => ?_) (hr _) fun _ => ?_
      · simp [hc d r hr, hd]
      · simp [hc _ r hr]
  · refine .quiet ha hx fun d => ?_
    obtain ⟨rfl, -⟩ | ⟨r, rfl, hr⟩ := hf
    · rfl
    · simp [hc d r hr, hb]

variable (se : Setup)

/-- A part of a function that removes backends, in whatever order. -/
theorem effect_remove {l : List (String × BackendInstanceEntry)} (hl : l.Perm (x.remove (s.memory p)).1)
    (r : List (Instr π)) (hx : x.duty? = none) (hrs : ∀ d, due d b r = 0) :
    Effect p b s x (s.remember p (x.remove (s.memory p)).2) (l.flatMap (finalizeRemoval se) ++ r) := by
  have hr := removal_remove x (s.memory p)
  have hf : ∀ d, due d b (l.flatMap (finalizeRemoval se) ++ r) =
      if d = .release then
        (x.remove (s.memory p)).1.countP (fun e => e.1 = b ∧ isCountedKind e.2.config.kind) else 0 := fun d => by
    rw [due_append, hrs, due_finalizeRemoval, Nat.add_zero, hl.countP_eq]
  by_cases hm : ∃ e ∈ (x.remove (s.memory p)).1, e.1 = b
  · obtain ⟨e, he, rfl⟩ := hm
    refine .removed e.2.config.kind ⟨e, he, rfl⟩ (hr.found e he) ?_ (fun d hd => ?_) ?_ fun hp => ?_
    · rw [account_remember, hr.gone e he]
    · rw [hf, if_neg hd]
    · rw [hf, if_pos rfl]
      refine le_trans (countP_mono_left fun e' _ h => ?_) (hr.once e.1)
      simp only [decide_eq_true_eq] at h ⊢
      exact h.1
    · rw [hf, if_pos rfl, countP_pos_iff] at hp
      obtain ⟨e', he', h⟩ := hp
      obtain ⟨hid, hc⟩ := of_decide_eq_true h
      have hk := hr.found e' he'
      rw [hid, hr.found e he, Option.some.injEq] at hk
      rwa [hk]
  · have hne : ∀ e ∈ (x.remove (s.memory p)).1, e.1 ≠ b := fun e he heq => hm ⟨e, he, heq⟩
    refine .quiet ?_ hx fun d => ?_
    · rw [account_remember, hr.others b hne]
      exact congrArg (fun k => { s.account b with kind? := k }) (update_eq_self p (s.account b).kind?)
    · rw [hf]
      split_ifs
      · rw [countP_eq_zero]
        intro e he
        simp [hne e he]
      · rfl

theorem effect_releaseFor {backendId sk : String} {ns : ℕ}
    (hx : x.duty? = some (.release, backendId) ∨ x.duty? = none ∧ x.reclaims? = some backendId)
    {r : List (Instr π)} (hr : ∀ d, due d b r = 0) :
    Effect p b s x (s.releaseFor backendId sk ns) (.unregister backendId :: r) := by
  have ha := account_releaseFor s b backendId sk ns
  have hf : ∀ d, due d b (.unregister backendId :: r) =
      if d = .unregister ∧ b = backendId then 1 else 0 := fun d => due_cons_of_duty d b rfl (hr d)
  split_ifs at ha with hb
  · subst hb
    refine .released ?_ ha (by simp [hf]) (fun d hd => by simp [hf, hd]) (hr _)
    exact hx.imp (fun h => by simp [due_singleton, h]) And.right
  · have hz : ∀ d, due d b (.unregister backendId :: r) = 0 := fun d => by simp [hf, hb]
    obtain hx | ⟨hx, -⟩ := hx
    · exact .other hb ha hx hz
    · exact .quiet ha hx hz

/-- **What `create` comes to.** -/
inductive Creation (p : π) (env : Env) (s : Shared π) (request : NewBackend) (r : Shared π × Next π) : Prop
  | gaveUp (h : r = (s.cancel request env.nowMs, .leave []))
  | found (backendId : String)
      (h : r = ((s.cancel request env.nowMs).lock p true, .leave (reassert request backendId)))
  | counted (instanceId : String) (hbound : ¬ isBound (s.memory p) request) (hbuilt : env.built = some instanceId)
      (hkind : isCountedKind request.config.kind)
      (h : r = ((s.insertBackend p request instanceId).lock p true, .goOn [.confirm request instanceId, .unlock]))
  | uncounted (instanceId : String) (hbound : ¬ isBound (s.memory p) request) (hbuilt : env.built = some instanceId)
      (hkind : ¬ isCountedKind request.config.kind) (h : r = (s.insertBackend p request instanceId, .goOn []))

theorem exec_create (p : π) (env : Env) (s : Shared π) (request : NewBackend) :
    Creation p env s request (exec se p env s (.create request)) := by
  dsimp only [exec]
  split_ifs with hbn hk
  · split
    · exact .gaveUp rfl
    · exact .found _ rfl
  · split
    · exact .gaveUp rfl
    · next i hb => exact .counted i hbn hb hk rfl
  · split
    · exact .gaveUp rfl
    · next i hb => exact .uncounted i hbn hb hk rfl

theorem effect_create : Effect p b s (.create request) (exec su p env s (.create request)).1
      (exec su p env s (.create request)).2.first := by
  cases exec_create su p env s request with rw [h]
  | gaveUp h => exact .quiet (account_cancel s b request env.nowMs) rfl fun _ => rfl
  | found bi h => exact .quiet (account_cancel s b request env.nowMs) rfl fun d => due_reassert d b request bi
  | counted i _ _ _ h => exact effect_insertBackend request i rfl rfl rfl (.inr ⟨[.unlock], rfl, fun _ => rfl⟩)
  | uncounted i _ _ hk h => exact effect_insertBackend request i rfl rfl rfl (.inl ⟨rfl, hk⟩)

theorem effect_insertCheckoutChild :
    Effect p b s (.insertCheckoutChild request) (exec su p env s (.insertCheckoutChild request)).1
      (exec su p env s (.insertCheckoutChild request)).2.first := by
  dsimp only [exec]
  split
  · next i _ _ =>
    exact effect_insertBackend request i rfl rfl rfl (.inr ⟨[], rfl, fun _ => rfl⟩)
  · exact .quiet (account_cancel s b request env.nowMs) rfl fun _ => rfl

theorem effect_confirm (i : String) : Effect p b s (.confirm request i) (exec su p env s (.confirm request i)).1
      (exec su p env s (.confirm request i)).2.first := by
  have hf : ∀ d, due d b [.register (.new request p i env.nowMs)] =
      if d = .register ∧ b = request.backendId then 1 else 0 := fun d => due_cons_of_duty d b rfl rfl
  rcases eq_or_ne b request.backendId with rfl | hb
  · refine .confirmed ?_ ?_ ?_ (fun d hd => ?_) rfl
    · simp [due_singleton, Instr.duty?]
    · simp [exec, account]
    · exact (hf .register).trans (if_pos ⟨rfl, rfl⟩)
    · exact (hf d).trans (if_neg fun h => hd h.1)
  · refine .other hb ?_ rfl fun d => (hf d).trans (if_neg fun h => hb h.2)
    simp only [exec, account, update_of_ne hb]

/-- An instruction that is about no backend: it reads the files, or takes a place or the lock. -/
def Instr.idle : Instr π → Bool
  | .leaseBound _ | .reserve _ _ _ | .countTotal _ _ _ | .readByKey _ _ _ | .evictFirst _ _ _ | .reserveChild _ _ _
  | .giveUp | .unlock | .delete _ | .readOwn | .evictMarked _ => true
  | _ => false

theorem exec_idle (p : π) (env : Env) (s : Shared π) (hx : x.idle) :
    x.duty? = none ∧ (∃ counter locked, (exec se p env s x).1 = { s with counter, locked }) ∧
      ∀ d b, due d b (exec se p env s x).2.first = 0 := by
  unfold exec
  dsimp only
  refine ⟨?_, ?_, fun d b => ?_⟩
  · cases x <;> first | rfl | cases hx
  · repeat' split
    all_goals first | exact absurd hx Bool.false_ne_true | exact ⟨_, _, rfl⟩
  · repeat' split
    all_goals first
      | exact absurd hx Bool.false_ne_true
      | rfl
      | exact due_reassert d b _ _
      | exact due_freed d b _ _
      | exact due_goOn d b _ _

/-- **What an instruction does to a backend.** -/
theorem exec_effect (p : π) (env : Env) (s : Shared π) (x : Instr π) (b : String) :
    Effect p b s x (exec se p env s x).1 (exec se p env s x).2.first := by
  have hi : x.idle → Effect p b s x (exec se p env s x).1 (exec se p env s x).2.first := by
    intro hx
    obtain ⟨hd, ⟨c, lc, hs⟩, hf⟩ := exec_idle se p env s hx
    exact .quiet (by rw [hs]; rfl) hd (hf · b)
  cases x with
  | create request => exact effect_create request
  | insertCheckoutChild request => exact effect_insertCheckoutChild request
  | confirm request i => exact effect_confirm request i
  | register e =>
    rcases eq_or_ne b e.backendId with rfl | hb
    · refine .registered ?_ ?_ fun _ => rfl
      · simp [due_singleton, Instr.duty?]
      · simp [exec, account, get?_insert]
    · refine .other hb ?_ rfl fun _ => rfl
      simp only [exec, account, get?_insert, if_neg hb]
  | unregister bi =>
    rcases eq_or_ne b bi with rfl | hb
    · refine .unregistered ?_ ?_ fun _ => rfl
      · simp [due_singleton, Instr.duty?]
      · simp [exec, account, get?_erase]
    · refine .other hb ?_ rfl fun _ => rfl
      simp only [exec, account, get?_erase, if_neg hb]
  | release => exact effect_releaseFor (.inl rfl) fun _ => rfl
  | reclaim => exact effect_releaseFor (.inr ⟨rfl, rfl⟩) fun _ => rfl
  | releaseSession si =>
    have h := effect_remove (p := p) (b := b) (s := s) (x := .releaseSession si) se (.refl _) [] rfl fun _ => rfl
    rwa [append_nil] at h
  | drain =>
    have h := effect_remove (p := p) (b := b) (s := s) (x := .drain) se (env.walk_perm Prod.fst _)
      [] rfl fun _ => rfl
    rwa [append_nil] at h
  | evictOwn bi r m l =>
    dsimp only [exec]
    split_ifs with hn
    · have h := effect_remove (p := p) (b := b) (s := s) (x := .evictOwn bi r m l) se (.refl _)
        [.evictFirst r m l] rfl fun _ => rfl
      rwa [hn] at h
    · exact effect_remove se (.refl _) _ rfl fun d => due_freed d b m l
  | evictMarkedOwn bi r =>
    dsimp only [exec]
    split_ifs with hn
    · have h := effect_remove (p := p) (b := b) (s := s) (x := .evictMarkedOwn bi r) se (.refl _) [] rfl
        fun _ => rfl
      rwa [hn] at h
    · exact effect_remove se (.refl _) _ rfl fun _ => rfl
  | setPendingEviction | updateSessionStatus | refreshHeartbeats =>
    exact .quiet (account_mapValues s b _) rfl fun _ => rfl
  | leaseBound | reserve | countTotal | readByKey | evictFirst | reserveChild | giveUp | unlock | delete | readOwn
  | evictMarked =>
    exact hi rfl

end Effects

end XiaoO.Backend.Processes
