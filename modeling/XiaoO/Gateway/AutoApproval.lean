import XiaoO.Gateway.PermissionBackend

/-!
# Approvals without asking

A rule that the user approved for a session answers later denials of similar commands. It should
never allow more than the user did: the same capability, at or below the directory of the approved
path.

## What is proved

Every rule of a session stems from an answer of the user (`Ruled.step`). If the denials that are
held against the rules have no `..` in their paths, and a command whose beginning was approved
before was approved for the capability that is denied now, no approval by a rule escalates
(`no_escalation_of_run`). Neither condition can go: a rule keeps no capability, and paths are
compared as they are written (`rule_escalates`).
-/

namespace XiaoO.Gateway.Permission

open XiaoO.Base List

variable {ι κ : Type} {toolName : κ → String}

/-- **No escalation**: a denial approved by a rule has an earlier approval of its capability, whose
recorded root lies at or above the denied path after lexical normalization. -/
def NotEscalated (earlier : List (Event κ)) : Event κ → Prop
  | .autoApproved _ denial => ∃ approval ∈ approvals earlier, approval.1.capability = denial.capability ∧
      lexicalNormal approval.2.grantedRoot <:+ lexicalNormal (pathComponents denial.path)
  | _ => True

instance (earlier : List (Event κ)) (event : Event κ) : Decidable (NotEscalated earlier event) := by
  cases event <;> (delta NotEscalated; infer_instance)

variable (s : Shared κ)

/-- What a step asks of a denial that is held against the rules: its path does not go up, and what
was approved for the beginning of the command was approved for the same capability. -/
def SameUse : Instr → Prop
  | .approval (some command) denial => .up ∉ pathComponents denial.path ∧ ∀ approval ∈ approvals s.log,
      approval.2.commandPrefix.toList.isPrefixOf command.toList → approval.1.capability = denial.capability
  | _ => True

instance (x : Instr) : Decidable (SameUse s x) := by
  rcases x with _ | _ | ⟨_ | _, _⟩ | _ | _ | _ <;> (delta SameUse; infer_instance)

/-! ### Rules stem from answers -/

/-- **The invariant**: every rule was recorded by an approval of the user, and no approval by a rule
escalates. -/
structure Ruled : Prop where
  rules : ∀ rule ∈ s.rules, ∃ approval ∈ approvals s.log, approval.2 = rule
  backed : Backed NotEscalated s.log

variable {s t : Shared κ}

theorem Ruled.of_eq (h : Ruled s) (hr : t.rules = s.rules) (hl : t.log = s.log) : Ruled t where
  rules := by
    rw [hr, hl]
    exact h.rules
  backed := by
    rw [hl]
    exact h.backed

theorem Ruled.of_quiet (h : Ruled s) (hq : Quiet s t) : Ruled t := h.of_eq hq.rules hq.log

theorem approvals_subset_cons (e : Event κ) (l : List (Event κ)) : approvals l ⊆ approvals (e :: l) := by
  intro a hm
  obtain ⟨e', he, heq⟩ := mem_filterMap.mp hm
  exact mem_filterMap.mpr ⟨e', mem_cons_of_mem e he, heq⟩

/-- An entry that is backed may be added to the log. -/
theorem Ruled.record (h : Ruled s) (e : Event κ) (he : NotEscalated s.log e) : Ruled (s.record e) where
  rules rule hr := by
    obtain ⟨a, hm, heq⟩ := h.rules rule hr
    exact ⟨a, approvals_subset_cons e s.log hm, heq⟩
  backed := ⟨he, h.backed⟩

/-- A denial that matches a rule was approved in the capability and at the place where the rule
was. -/
theorem Ruled.notEscalated (h : Ruled s) {c : Option PermissionRequestContext} {d : SandboxPolicyDenial}
    (hm : contextMatchesAutoApproval s.rules c d = true) (hu : SameUse s (.approval c d)) :
    NotEscalated s.log (.autoApproved c d) := by
  cases c with
  | none => cases hm
  | some =>
    obtain ⟨-, ha⟩ := Bool.and_eq_true_iff.mp hm
    obtain ⟨r, hr, hc⟩ := any_eq_true.mp ha
    obtain ⟨hs, hw⟩ := Bool.and_eq_true_iff.mp hc
    obtain ⟨approval, hmm, rfl⟩ := h.rules r hr
    obtain ⟨hup, hsm⟩ := hu
    refine ⟨approval, hmm, hsm approval hmm hs, lexicalNormal_suffix hup ?_⟩
    rcases Bool.or_eq_true_iff.mp hw with heq | hb
    · exact of_decide_eq_true heq ▸ prefix_refl _
    · exact isPrefixOf_iff_prefix.mp hb

/-- The answer that approves similar commands is where the new rule stems from. -/
theorem Ruled.add (h : Ruled s) {i : Option κ} {r : InteractionRequest} {c : String} {denial : SandboxPolicyDenial} :
    Ruled { s.record (.asked i r (some c) denial (some .allowSimilarBashForSession)) with
      rules := s.rules.add c denial } where
  rules rule hr := by
    have ho := (h.record (.asked i r (some c) denial (some .allowSimilarBashForSession)) trivial).rules
    rw [BashSandboxApprovalRules.add] at hr
    split at hr
    · next new hn =>
      split_ifs at hr with hin
      · exact ho rule hr
      · rcases mem_append.mp hr with hr | hr
        · exact ho rule hr
        · obtain rfl : rule = new := mem_singleton.mp hr
          refine ⟨(denial, rule), mem_filterMap.mpr ⟨_, mem_cons_self, ?_⟩, rfl⟩
          simp [Event.similar?, hn]
    · exact ho rule hr
  backed := ⟨trivial, h.backed⟩

variable [DecidableEq κ]

theorem Ruled.effect (h : Ruled s) {i : Option κ} {r c : List Instr} {x : Instr} (hu : SameUse s x)
    (he : Effect toolName i s r x t c) : Ruled t := by
  cases he with
  | quiet hs => exact h.of_quiet hs
  | approved hr => exact h.record _ (h.notEscalated hr hu)
  | remembered => exact h
  | allowed =>
    refine Ruled.of_eq ?_ (Shared.approveCurrent_rules ..) (Shared.approveCurrent_log ..)
    exact h.record _ trivial
  | similar => exact h.add
  | refused hasked | granted hasked =>
    refine Ruled.of_quiet ?_ hasked
    exact h.record _ trivial

/-- **The step lemma.** -/
theorem Ruled.step [DecidableEq ι] {w w' : World ι κ} {l : ι × Env} (h : Ruled w.shared)
    (hu : AtHead (fun s _ => SameUse s) w l) (hs : step toolName w l = some w') : Ruled w'.shared := by
  obtain ⟨t, ts, rfl, ⟨x, r, hc, he⟩ | ⟨hq, -⟩⟩ := step_cases hs
  · exact h.effect (hu x (by rw [hc]; rfl)) he
  · exact h.of_quiet hq

/-- **Approvals without asking never escalate**, in any run whose steps meet the condition. -/
theorem no_escalation_of_run [DecidableEq ι] {operations : ι → List (Operation κ)} {w : World ι κ}
    (hrun : RunUnder (Permission.step toolName) (AtHead fun s _ => SameUse s) (start operations) w) :
    Backed NotEscalated w.shared.log := by
  have hs : Ruled (start operations).shared := ⟨forall_mem_nil _, trivial⟩
  exact (hrun.invariant (I := fun w => Ruled w.shared) hs fun h hu hst => h.step hu hst).backed

/-! ### Runs -/

/-- The first command is denied, and the user approves similar commands; the second is denied, and
held against the rules. -/
def deniedTwice (first second : SandboxPolicyDenial) : List (Unit × Env) :=
  [((), {}), ((), {}), ((), { runtimeDenial := some first }), ((), {}), ((), {}),
    ((), { answer := some allowSimilarBashSession }), ((), {}), ((), {}), ((), {}),
    ((), {}), ((), {}), ((), { runtimeDenial := some second }), ((), {})]

/-- Another file of the approved directory is read without asking. -/
theorem no_escalation_of_run_sibling :
    ∃ w, RunUnder (Permission.step fun _ : Fin 2 => "bash") (AtHead fun s _ => SameUse s)
        (start fun _ : Unit => [.exec (some 0) "cat /w/a", .exec (some 1) "cat /w/b"]) w ∧
      w.shared.log.head? = some (Event.autoApproved (some "cat /w/b") (bashDenial .read "/w/b")) ∧
      Backed NotEscalated w.shared.log :=
  (exists_run_of_exec _ _ _ _ (deniedTwice (bashDenial .read "/w/a") (bashDenial .read "/w/b")) (by decide)).imp
    fun w ⟨hr, hl⟩ => ⟨hr, hl, no_escalation_of_run hr⟩

/-- **A rule escalates.** The user has approved reading `/w/a`, and writing to the same directory is
not asked for. The user has approved writing `/w/a`, and writing `/etc/passwd` under another name is
not asked for. -/
theorem rule_escalates : (∃ w, RunUnder (Permission.step fun _ : Fin 2 => "bash") Always
        (start fun _ : Unit => [.exec (some 0) "cat /w/a", .exec (some 1) "cat /w/a > /w/c"]) w ∧
      ¬Backed NotEscalated w.shared.log) ∧
    ∃ w, RunUnder (Permission.step fun _ : Fin 2 => "bash") Always
        (start fun _ : Unit => [.exec (some 0) "touch /w/a", .exec (some 1) "touch /w/../etc/passwd"]) w ∧
      ¬Backed NotEscalated w.shared.log := by
  constructor
  · exact exists_run_of_exec _ _ _ _ (deniedTwice (bashDenial .read "/w/a") (bashDenial .write "/w/c")) (by decide)
  · exact exists_run_of_exec _ _ _ _
      (deniedTwice (runtimeSeatbeltDenial "/w/a") (runtimeSeatbeltDenial "/w/../etc/passwd")) (by decide)

end XiaoO.Gateway.Permission
