import XiaoO.Gateway.PermissionBackend

/-!
# Lasting grants

A grant for the session outlives the tool call that asked for it, and a grant of the runtime lifts
the sandbox. Each should rest on an answer that allowed just that: a prompt for the same capability
and path.

## What is proved

An invocation remembers the scope of the last prompt that was allowed in it (`Remembered.step`). If
an invocation that remembers a session scope, or that meets a denial of the runtime, meets only the
denial it was prompted for, every lasting grant is backed by an answer (`lasting_grants_of_run`). In
general it is not: the scope of one answer is used for whatever the invocation is denied later
(`one_answer_for_every_denial`).
-/

namespace XiaoO.Gateway.Permission

open XiaoO.Base List

variable {ι κ : Type} {toolName : κ → String}

/-- The user was prompted for this capability and path, and allowed it with this scope. -/
def Event.Allows (scope : SandboxPermissionScope) (denial : SandboxPolicyDenial) : Event κ → Prop
  | .asked _ _ _ prompted (some (.grant given)) =>
    given = scope ∧ prompted.capability = denial.capability ∧ prompted.path = denial.path
  | _ => False

instance (scope : SandboxPermissionScope) (denial : SandboxPolicyDenial) (event : Event κ) :
    Decidable (event.Allows scope denial) := by
  rcases event with ⟨_, _, _, _, _ | _ | _⟩ | _ | _ <;> (delta Event.Allows; infer_instance)

/-- A rule that the user approved covers the command and the path. -/
def coveredByRule (log : List (Event κ)) (context : Option PermissionRequestContext) (denial : SandboxPolicyDenial) :
    Bool :=
  context.any fun command => (approvals log).any fun approval => approval.2.covers command denial.path

/-- **Backed by an answer**: a grant for the session rests on an answer that allowed it for the
session, and a grant of the runtime on one that allowed it once, or on a rule. -/
def Answered (earlier : List (Event κ)) : Event κ → Prop
  | .granted context denial scope =>
    (scope = .session → ∃ event ∈ earlier, event.Allows .session denial) ∧
    (denial.capability = .execRuntime →
      (∃ event ∈ earlier, event.Allows .once denial) ∨ coveredByRule earlier context denial)
  | _ => True

instance (earlier : List (Event κ)) : ∀ event, Decidable (Answered earlier event)
  | .asked .. | .autoApproved .. | .granted .. => by delta Answered; infer_instance

/-! ### Grants to come -/

/-- A grant that is still to come is backed by the log. -/
def Backs (log : List (Event κ)) : Instr → Prop
  | .grant _ denial scope =>
    (denial.capability ≠ .execRuntime → scope = .session → ∃ event ∈ log, event.Allows .session denial) ∧
    (denial.capability = .execRuntime → ∃ event ∈ log, event.Allows .once denial)
  | _ => True

variable {log : List (Event κ)} {x : Instr} {denial : SandboxPolicyDenial} {scope : SandboxPermissionScope}

theorem backs_of_not_isGrant (h : x.isGrant = false) : Backs log x := by
  cases x with
  | grant => cases h
  | _ => trivial

theorem Backs.mono {log' : List (Event κ)} (h : Backs log x) (hsb : log ⊆ log') : Backs log' x := by
  cases x with
  | grant =>
    refine ⟨fun hc hs => ?_, fun hc => ?_⟩
    · obtain ⟨e, hm, ha⟩ := h.1 hc hs
      exact ⟨e, hsb hm, ha⟩
    · obtain ⟨e, hm, ha⟩ := h.2 hc
      exact ⟨e, hsb hm, ha⟩
  | _ => trivial

/-- What a grant that is executed adds to the log is backed. -/
theorem Backs.answered {c : Option PermissionRequestContext} (h : Backs log (.grant c denial scope)) :
    Answered log (.granted c denial (if denial.capability = .execRuntime then .once else scope)) := by
  refine ⟨fun hs => ?_, fun hc => .inl (h.2 hc)⟩
  split_ifs at hs with hc
  exact h.1 hc hs

/-! ### What an invocation remembers -/

variable [DecidableEq κ]

/-- The prompt that was allowed in an invocation, with the scope. -/
def Event.allowedIn? (k : κ) : Event κ → Option (SandboxPolicyDenial × SandboxPermissionScope)
  | .asked (some k') _ _ denial (some (.grant scope)) => if k' = k then some (denial, scope) else none
  | _ => none

/-- The last prompt that was allowed in an invocation. -/
def lastAllowed (log : List (Event κ)) (k : κ) : Option (SandboxPolicyDenial × SandboxPermissionScope) :=
  log.findSome? (Event.allowedIn? k)

variable (s : Shared κ)

/-- What a step asks of a denial that an invocation meets: if the scope that the invocation
remembers is that of the session, or the denial is one of the runtime, the denial is the one of its
last allowed prompt. -/
def SameDenial (invocation : Option κ) : Instr → Prop
  | .scope _ denial => ∀ k ∈ invocation, ∀ allowed ∈ lastAllowed s.log k,
      allowed.2 = .session ∨ denial.capability = .execRuntime →
        allowed.1.capability = denial.capability ∧ allowed.1.path = denial.path
  | _ => True

instance (invocation : Option κ) (x : Instr) : Decidable (SameDenial s invocation x) := by
  cases x <;> (delta SameDenial; infer_instance)

/-- A runtime denial is allowed once at most. -/
def OnceForRuntime : Event κ → Prop
  | .asked _ _ _ denial (some (.grant scope)) => denial.capability = .execRuntime → scope = .once
  | _ => True

/-- What the shared state remembers: each invocation the scope of its last allowed prompt. -/
structure Remembered : Prop where
  scopes : ∀ k, s.scopes k = (lastAllowed s.log k).map Prod.snd
  runtime : ∀ event ∈ s.log, OnceForRuntime event
  backed : Backed Answered s.log

variable {s t : Shared κ}

theorem Remembered.of_quiet (h : Remembered s) (hq : Quiet s t) : Remembered t where
  scopes := by
    rw [hq.scopes, hq.log]
    exact h.scopes
  runtime := by
    rw [hq.log]
    exact h.runtime
  backed := by
    rw [hq.log]
    exact h.backed

/-- An entry that allows nothing may be added to the log if it is backed. -/
theorem Remembered.record (h : Remembered s) (e : Event κ) (hn : ∀ k, e.allowedIn? k = none)
    (ho : OnceForRuntime e) (he : Answered s.log e) : Remembered (s.record e) where
  scopes k := by
    have hl : lastAllowed (e :: s.log) k = lastAllowed s.log k := by
      rw [lastAllowed, findSome?_cons, hn k, lastAllowed]
    exact (h.scopes k).trans (by rw [← hl]; rfl)
  runtime := forall_mem_cons.mpr ⟨ho, h.runtime⟩
  backed := ⟨he, h.backed⟩

/-- The answer to a prompt, and the scope that the invocation remembers from then on. -/
theorem Remembered.approveCurrent (h : Remembered s) (i : Option κ) (r : InteractionRequest)
    (c : Option PermissionRequestContext) (denial : SandboxPolicyDenial)
    (hr : denial.capability = .execRuntime → scope = .once) :
    Remembered ((s.record (.asked i r c denial (some (.grant scope)))).approveCurrent i scope) := by
  cases i with
  | none => exact h.record _ (fun _ => rfl) hr trivial
  | some k =>
    refine ⟨fun k' => ?_, forall_mem_cons.mpr ⟨hr, h.runtime⟩, trivial, h.backed⟩
    change Function.update s.scopes k (some scope) k' = _
    rcases eq_or_ne k' k with rfl | hne
    · simp [Shared.approveCurrent, Shared.record, lastAllowed, Event.allowedIn?]
    · have hn : Event.allowedIn? k' (.asked (some k) r c denial (some (.grant scope))) = none :=
        if_neg hne.symm
      rw [Function.update_of_ne hne, h.scopes k']
      simp [Shared.approveCurrent, Shared.record, lastAllowed, hn]

theorem mem_of_lastAllowed {k : κ} (h : lastAllowed log k = some (denial, scope)) :
    ∃ r c, Event.asked (some k) r c denial (some (.grant scope)) ∈ log := by
  obtain ⟨e, hm, he⟩ := exists_of_findSome?_eq_some h
  unfold Event.allowedIn? at he
  split at he
  · split_ifs at he with hk
    cases he
    subst hk
    exact ⟨_, _, hm⟩
  · cases he

/-- A remembered scope, for the denial that it was given for, backs a grant. -/
theorem Remembered.backs (h : Remembered s) {i : Option κ} {c : Option PermissionRequestContext}
    (hsc : s.currentScope i = some scope) (hsm : SameDenial s i (.scope c denial)) :
    Backs s.log (.grant c denial scope) := by
  obtain ⟨k, rfl, hk⟩ := Option.bind_eq_some_iff.mp hsc
  rw [h.scopes k] at hk
  obtain ⟨⟨p, g⟩, hl, rfl⟩ := Option.map_eq_some_iff.mp hk
  obtain ⟨r, c', hm⟩ := mem_of_lastAllowed hl
  have hsm := hsm k rfl (p, g) hl
  refine ⟨fun _ hs => ?_, fun hcp => ?_⟩
  · exact ⟨_, hm, hs, hsm (.inl hs)⟩
  · obtain ⟨hc, hp⟩ := hsm (.inr hcp)
    exact ⟨_, hm, h.runtime _ hm (hc.trans hcp), hc, hp⟩

theorem Remembered.effect (h : Remembered s) {i : Option κ} {r cd : List Instr}
    (hsm : SameDenial s i x) (hx : Backs s.log x) (hrs : ∀ y ∈ r, Backs s.log y)
      (he : Effect toolName i s r x t cd) :
    Remembered t ∧ s.log ⊆ t.log ∧ ∀ y ∈ cd, Backs t.log y := by
  have ho : ∀ {log : List (Event κ)}, s.log ⊆ log → ∀ y ∈ r, Backs log y :=
    fun hsb y hy => (hrs y hy).mono hsb
  cases he with
  | quiet hq hcd =>
    have hsb : s.log ⊆ t.log := hq.log ▸ List.Subset.refl _
    refine ⟨h.of_quiet hq, hsb, fun y hy => ?_⟩
    rcases hcd y hy with hy | hy
    · exact ho hsb y hy
    · exact backs_of_not_isGrant hy
  | @approved cn denial hrl =>
    have hc := contextMatchesAutoApproval_execRuntime hrl
    refine ⟨h.record _ (fun _ => rfl) trivial trivial, subset_cons_self .., ?_⟩
    refine forall_mem_cons.mpr ⟨⟨fun _ hs => ?_, fun hr => absurd hr hc⟩, ho (subset_cons_self ..)⟩
    cases hs
  | remembered hs =>
    exact ⟨h, List.Subset.refl _, forall_mem_cons.mpr ⟨h.backs hs hsm, hrs⟩⟩
  | @allowed cn denial scope hr =>
    rw [Shared.approveCurrent_log]
    refine ⟨h.approveCurrent i _ cn denial hr, subset_cons_self .., ?_⟩
    refine forall_mem_cons.mpr ⟨⟨fun _ hs => ?_, fun hc => ?_⟩, ho (subset_cons_self ..)⟩
    · exact ⟨_, mem_cons_self, hs, rfl, rfl⟩
    · exact ⟨_, mem_cons_self, hr hc, rfl, rfl⟩
  | @similar c denial rl hrl =>
    have hc := fromDenial_execRuntime hrl
    have hrc := h.record (.asked i (askRequest toolName i (some c) denial) (some c)
      denial (some .allowSimilarBashForSession)) (fun _ => by cases i <;> rfl) trivial trivial
    refine ⟨⟨hrc.scopes, hrc.runtime, hrc.backed⟩, subset_cons_self .., ?_⟩
    refine forall_mem_cons.mpr ⟨⟨fun _ hs => ?_, fun hr => absurd hr hc⟩, ho (subset_cons_self ..)⟩
    cases hs
  | refused hasked =>
    have hsb : s.log ⊆ t.log := hasked.log ▸ subset_cons_self ..
    refine ⟨Remembered.of_quiet ?_ hasked, hsb, forall_mem_nil _⟩
    exact h.record _ (fun _ => by cases i <;> rfl) trivial trivial
  | granted hg =>
    have hsb : s.log ⊆ t.log := hg.log ▸ subset_cons_self ..
    refine ⟨Remembered.of_quiet ?_ hg, hsb, ho hsb⟩
    exact h.record _ (fun _ => rfl) trivial hx.answered

/-! ### Whole runs -/

/-- **The invariant**: the scopes are those of the answers, and every grant to come is backed. -/
structure Lasting (w : World ι κ) : Prop where
  remembered : Remembered w.shared
  pending : ∀ i, ∀ x ∈ (w.thread i).code, Backs w.shared.log x

theorem lasting_start (os : ι → List (Operation κ)) : Lasting (start os) :=
  ⟨⟨fun _ => rfl, forall_mem_nil _, trivial⟩, fun _ => forall_mem_nil _⟩

variable [DecidableEq ι]

/-- The thread that moves has new code, and the others keep theirs under a longer log. -/
theorem Lasting.put {w : World ι κ} (h : Lasting w) {i : ι} {ts : Task κ} (hr : Remembered t)
    (hs : w.shared.log ⊆ t.log) (hc : ∀ y ∈ ts.code, Backs t.log y) : Lasting (w.put i t ts) := by
  refine ⟨hr, Threads.forall_put (P := fun _ (ts : Task κ) => ∀ y ∈ ts.code, Backs t.log y) hc fun k _ x hx => ?_⟩
  exact (h.pending k x hx).mono hs

/-- **The step lemma.** -/
theorem Lasting.step {w w' : World ι κ} {l : ι × Env} (h : Lasting w) (hs : AtHead SameDenial w l)
    (hst : step toolName w l = some w') : Lasting w' := by
  obtain ⟨t, ts, rfl, ⟨x, r, hc, he⟩ | ⟨hq, hc⟩⟩ := step_cases hst
  · obtain ⟨hx, hrs⟩ := forall_mem_cons.mp (hc ▸ h.pending l.1)
    obtain ⟨hr, hsb, hn⟩ :=
      h.remembered.effect (hs x (by rw [hc]; rfl)) hx hrs he
    exact h.put hr hsb hn
  · exact h.put (h.remembered.of_quiet hq) (hq.log ▸ List.Subset.refl _)
      fun y hy => backs_of_not_isGrant (hc y hy)

/-- **Lasting grants are backed by an answer**, in any run whose steps meet the condition. -/
theorem lasting_grants_of_run {operations : ι → List (Operation κ)} {w : World ι κ}
    (hrun : RunUnder (Permission.step toolName) (AtHead SameDenial) (start operations) w) :
    Backed Answered w.shared.log :=
  (hrun.invariant (I := Lasting) (lasting_start operations) fun h hs hst =>
    h.step hs hst).remembered.backed

/-! ### Runs -/

/-- An operation that is denied twice, with an answer to the prompt for the first denial. -/
def oneAnswer (answer : String) (first second : SandboxPolicyDenial) : List (Unit × Env) :=
  [((), {}), ((), { outcome := .denied first }), ((), {}), ((), {}), ((), { answer := some answer }), ((), {}),
    ((), { outcome := .denied second }), ((), {}), ((), {}), ((), {})]

/-- Allowed for the session, and denied once more at the same path. -/
theorem lasting_grants_of_run_again : ∃ w, RunUnder (Permission.step fun _ : Unit => "file_read") (AtHead SameDenial)
        (start fun _ : Unit => [.plain (some ())]) w ∧
      w.shared.log.head? = some (.granted none (bashDenial .read "/w/a") .session) ∧
      Backed Answered w.shared.log :=
  (exists_run_of_exec _ _ _ _
    (oneAnswer allowSession (bashDenial .read "/w/a") (bashDenial .read "/w/a")) (by decide)).imp
    fun w ⟨hr, hl⟩ => ⟨hr, hl, lasting_grants_of_run hr⟩

/-- **One answer for every denial.** The user has allowed reading `/w/a` for the session, and the
same call writes to `/etc` for the session without a prompt. The user has allowed a command to write
`/w/a` once, and when its next result tells of no path it is let out of the sandbox without a
prompt. -/
theorem one_answer_for_every_denial :
    (∃ w, RunUnder (Permission.step fun _ : Unit => "file_read") Always (start fun _ : Unit =>
      [.plain (some ())]) w ∧
      ¬Backed Answered w.shared.log) ∧
    ∃ w, RunUnder (Permission.step fun _ : Unit => "bash") Always
        (start fun _ : Unit => [.exec (some ()) "touch /w/a"]) w ∧
      ¬Backed Answered w.shared.log := by
  constructor
  · exact exists_run_of_exec _ _ _ _
      (oneAnswer allowSession (bashDenial .read "/w/a") (bashDenial .write "/etc/passwd")) (by decide)
  · exact exists_run_of_exec _ _ _ _
      [((), {}), ((), {}), ((), { runtimeDenial := some (runtimeSeatbeltDenial "/w/a") }), ((), {}), ((), {}),
        ((), { answer := some allowOnce }), ((), {}), ((), {}), ((), { runtimeDenial := some silentRuntimeDenial }),
        ((), {}), ((), {}), ((), {})] (by decide)

end XiaoO.Gateway.Permission
