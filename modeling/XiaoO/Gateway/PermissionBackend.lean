import XiaoO.Base.Occurrences
import XiaoO.Base.PathText
import XiaoO.Base.Text
import XiaoO.Base.Threads

/-!
# The permission-aware backend

`gateway/permission_backend.rs` runs the operations of a backend again after the user has allowed
what the sandbox denied. `grant_after_permission` decides on one denial: a rule of the session may
approve it without asking, the tool invocation may remember the scope of an earlier answer
(`tool/src/invocation_context.rs`), and otherwise the user is asked. The answer is remembered, and
the permission control of the backend is told to grant.

## The model

Threads run the operations of a session, each inside a tool invocation or outside of any, so that
the operations of one invocation may run side by side. An operation is a list of instructions, one
for each lock or `await` of the source: the outcome of the sandboxed operation, the denial found in
the result of a command, the user's answer and the answer of the permission control are inputs of
the step. The loops of `run_with_permission` and `retry_after_permission` are one instruction: the
second is the first after a grant.

The log is for the statements: the prompts with what was decided, the denials approved by a rule,
and the grants, the last one first. How a denial is read off the output of a command is left out:
any denial may come up.
-/

namespace XiaoO.Gateway.Permission

open XiaoO.Base List Option

/-! ### Denials -/

inductive SandboxPermissionCapability where
  | read
  | write
  | execCwd
  | execRuntime
  deriving DecidableEq

def SandboxPermissionCapability.display : SandboxPermissionCapability → String
  | read => "read"
  | write => "write"
  | execCwd => "exec_cwd"
  | execRuntime => "exec_runtime"

inductive SandboxPermissionScope where
  | once
  | session
  deriving DecidableEq

structure SandboxPolicyDenial where
  backendId : String
  isolation : String
  operation : String
  capability : SandboxPermissionCapability
  path : String
  deriving DecidableEq

def maxSandboxPermissionRetries : ℕ := 6

/-! ### The rules of a session -/

/-- `BashSandboxApprovalRule`. Paths are compared by their components. -/
structure BashSandboxApprovalRule where
  commandPrefix : String
  grantedRoot : List (Component String)
  deriving DecidableEq

open BashSandboxApprovalRule

/-- `bash_command_prefix_for_denial`: the command up to the denied path, or else its first word and
a blank. -/
def bashCommandPrefixForDenial (command deniedPath : String) : Option String :=
  match (before? deniedPath.toList command.toList).filter fun before => !isBlank (String.ofList before) with
  | some before => some (String.ofList before)
  | none =>
    let leading := command.toList.takeWhile isWhitespace
    let first := (command.toList.dropWhile isWhitespace).takeWhile fun c => !isWhitespace c
    if first.isEmpty then none else some (String.ofList (leading ++ first ++ [' ']))

def BashSandboxApprovalRule.fromDenial (command : String) (denial : SandboxPolicyDenial) :
    Option BashSandboxApprovalRule :=
  if denial.capability = .execRuntime then none
  else if !isAbsolutePath denial.path then none
  else do
    let commandPrefix ← bashCommandPrefixForDenial command denial.path
    let grantedRoot ← parentPath? (pathComponents denial.path)
    some { commandPrefix, grantedRoot }

theorem fromDenial_execRuntime {c : String} {d : SandboxPolicyDenial} {r : BashSandboxApprovalRule}
    (h : fromDenial c d = some r) : d.capability ≠ .execRuntime := by
  intro hc
  simp [fromDenial, hc] at h

def pathIsWithin (path root : List (Component String)) : Bool := path = root || root.isPrefixOf path

/-- What `BashSandboxApprovalRules::matches` asks of a rule. -/
def BashSandboxApprovalRule.covers (rule : BashSandboxApprovalRule) (command : String) (path : String) : Bool :=
  rule.commandPrefix.toList.isPrefixOf command.toList && pathIsWithin (pathComponents path) rule.grantedRoot

abbrev BashSandboxApprovalRules := List BashSandboxApprovalRule

variable (rules : BashSandboxApprovalRules)

def BashSandboxApprovalRules.add (command : String) (denial : SandboxPolicyDenial) : BashSandboxApprovalRules :=
  match fromDenial command denial with
  | some rule => if rule ∈ rules then rules else rules ++ [rule]
  | none => rules

def BashSandboxApprovalRules.matches (command : String) (denial : SandboxPolicyDenial) : Bool :=
  denial.capability ≠ .execRuntime && isAbsolutePath denial.path && rules.any fun rule =>
    rule.covers command denial.path

/-- `PermissionRequestContext`: the command of a bash call, whose rules are those of the session. -/
abbrev PermissionRequestContext := String

def contextMatchesAutoApproval (context : Option PermissionRequestContext) (denial : SandboxPolicyDenial) : Bool :=
  match context with
  | some command => rules.matches command denial
  | none => false

/-! ### Asking the user -/

inductive PermissionDecision where
  | grant (scope : SandboxPermissionScope)
  | allowSimilarBashForSession
  deriving DecidableEq

/-- `InteractionRequest::Choice`, without the fields that are the same for every request. -/
structure InteractionRequest where
  prompt : String
  options : List String
  deriving DecidableEq

def allowOnce : String := "Allow once"

def allowSession : String := "Allow for this session"

def allowSimilarBashSession : String := "Allow similar bash commands for this path"

def deny : String := "Deny"

def isolationDisplayName (isolation : String) : String :=
  if isolation = "macos_seatbelt" then "macOS Seatbelt"
  else if isolation = "linux_bubblewrap" then "Linux Bubblewrap"
  else if isolation = "linux_dynsandbox" then "Dynamic Sandbox"
  else "Local sandbox"

section Ask

variable (toolName : Option String) (denial : SandboxPolicyDenial) (context : Option PermissionRequestContext)

def canOfferSimilarBashApproval : Bool :=
  match context with
  | some command => (fromDenial command denial).isSome
  | none => false

/-- `permission_prompt`, with the name of the current tool. -/
def permissionPrompt : String :=
  let blocked := isolationDisplayName denial.isolation ++ " blocked " ++ toolName.getD denial.operation
  let operation := "Blocked operation: " ++ denial.capability.display ++ " " ++ denial.operation ++ "\n" ++ denial.path
  match context with
  | some command => blocked ++ "\n\nCommand:\n" ++ command ++ "\n\n" ++ operation
  | none =>
    blocked ++ "\n\nAllow this tool call to continue with additional sandbox permissions?\n" ++ operation

def permissionOptions : List String :=
  if denial.capability = .execRuntime then [allowOnce, deny]
  else [allowOnce, allowSession] ++
    (if canOfferSimilarBashApproval denial context then [allowSimilarBashSession] else []) ++ [deny]

/-- `request_permission`, with the value that the user chose; `none` is a refusal. -/
def requestPermission (answer : Option String) : Option PermissionDecision :=
  if answer = some allowOnce then some (.grant .once)
  else if answer = some allowSession ∧ denial.capability ≠ .execRuntime then some (.grant .session)
  else if answer = some allowSimilarBashSession ∧ canOfferSimilarBashApproval denial context then
    some .allowSimilarBashForSession
  else none

variable {denial context} {a : Option String} {d : PermissionDecision}

/-- **What a decision rests on**: the option that the user chose, which was offered. -/
theorem requestPermission_eq_some (h : requestPermission denial context a = some d) :
    (d = .grant .once ∧ a = some allowOnce) ∨
    (d = .grant .session ∧ a = some allowSession ∧ denial.capability ≠ .execRuntime) ∨
    (d = .allowSimilarBashForSession ∧ a = some allowSimilarBashSession ∧
      ∃ c r, context = some c ∧ fromDenial c denial = some r) := by
  rw [requestPermission] at h
  split_ifs at h with hon hs hsm
  · exact .inl ⟨(some.inj h).symm, hon⟩
  · exact .inr (.inl ⟨(some.inj h).symm, hs⟩)
  · obtain ⟨ha, ho⟩ := hsm
    refine .inr (.inr ⟨(some.inj h).symm, ha, ?_⟩)
    cases context with
    | none => cases ho
    | some c =>
      obtain ⟨r, hr⟩ := isSome_iff_exists.mp ho
      exact ⟨c, r, rfl, hr⟩

end Ask

/-! ### The machine -/

abbrev SandboxPermissionGrantId := ℕ

/-- What the log records; `κ` are the tool invocations. -/
inductive Event (κ : Type) where
  | asked (invocation : Option κ) (request : InteractionRequest) (context : Option PermissionRequestContext)
      (denial : SandboxPolicyDenial) (decision : Option PermissionDecision)
  | autoApproved (context : Option PermissionRequestContext) (denial : SandboxPolicyDenial)
  | granted (context : Option PermissionRequestContext) (denial : SandboxPolicyDenial)
      (scope : SandboxPermissionScope)
  deriving DecidableEq

/-- The state of a session: its rules, the scope and the grants that each invocation remembers, the
grants in force and the log. -/
structure Shared (κ : Type) where
  rules : BashSandboxApprovalRules
  scopes : κ → Option SandboxPermissionScope
  onceGrants : κ → List SandboxPermissionGrantId
  active : List (SandboxPermissionGrantId × SandboxPolicyDenial × SandboxPermissionScope)
  log : List (Event κ)

/-- The steps of an operation. -/
inductive Instr where
  /-- The sandboxed operation in the loop of `run_with_permission`, or of
  `retry_after_permission`. -/
  | operation (context : Option PermissionRequestContext) (retries : ℕ)
  /-- The loop of `exec`: the result of the command may tell of a denial. -/
  | inspect (command : String) (retries : ℕ)
  /-- `grant_after_permission`: a rule may approve the denial. -/
  | approval (context : Option PermissionRequestContext) (denial : SandboxPolicyDenial)
  /-- The invocation may remember a scope. -/
  | scope (context : Option PermissionRequestContext) (denial : SandboxPolicyDenial)
  /-- The user is asked. -/
  | ask (context : Option PermissionRequestContext) (denial : SandboxPolicyDenial)
  /-- The permission control grants. -/
  | grant (context : Option PermissionRequestContext) (denial : SandboxPolicyDenial) (scope : SandboxPermissionScope)

/-- What a caller does with the backend. -/
inductive Operation (κ : Type) where
  /-- An operation on files, a search or an export. -/
  | plain (invocation : Option κ)
  /-- A command. -/
  | exec (invocation : Option κ) (command : String)
  /-- The end of a tool invocation, in `scope_tool_invocation`. -/
  | leave (invocation : κ)

/-- How the sandboxed operation ends. -/
inductive Outcome where
  | ok
  | denied (denial : SandboxPolicyDenial)
  | failed
  deriving DecidableEq

structure Env where
  outcome : Outcome := .ok
  /-- The denial that `runtime_exec_denial` reads off the result of a command. -/
  runtimeDenial : Option SandboxPolicyDenial := none
  /-- The value that the user chose, if the response is a choice. -/
  answer : Option String := none
  /-- The id of the grant; none when the backend has no permission control, or when that refuses. -/
  grantId : Option SandboxPermissionGrantId := some 0

/-- The thread of a caller: the operation under way, with its invocation and the grants that it has
to revoke, and the operations to come. -/
structure Task (κ : Type) where
  invocation : Option κ
  code : List Instr
  cleanup : List SandboxPermissionGrantId
  todo : List (Operation κ)

variable {κ ι : Type} [DecidableEq κ] (s : Shared κ)

/-- `control.revoke`, for each of the grants. -/
def Shared.revoke (ids : List SandboxPermissionGrantId) : Shared κ :=
  { s with active := s.active.filter fun grant => grant.1 ∉ ids }

variable (toolName : κ → String) (invocation : Option κ)

/-- `current_sandbox_permission_scope`. -/
def Shared.currentScope : Option SandboxPermissionScope :=
  invocation.bind s.scopes

/-- `approve_current_sandbox_permission`. -/
def Shared.approveCurrent (scope : SandboxPermissionScope) : Shared κ :=
  match invocation with
  | some k => { s with scopes := Function.update s.scopes k (some scope) }
  | none => s

@[simp] theorem Shared.approveCurrent_rules (i : Option κ) (sc : SandboxPermissionScope) :
    (s.approveCurrent i sc).rules = s.rules := by
  cases i <;> rfl

@[simp] theorem Shared.approveCurrent_log (i : Option κ) (sc : SandboxPermissionScope) :
    (s.approveCurrent i sc).log = s.log := by
  cases i <;> rfl

def Shared.record (event : Event κ) : Shared κ := { s with log := event :: s.log }

/-- `PermissionGrantCleanup::revoke_all`, before the operation returns with an error. -/
def Task.fail (task : Task κ) : Shared κ × Task κ :=
  (s.revoke task.cleanup, { task with code := [], cleanup := [] })

def askRequest (context : Option PermissionRequestContext) (denial : SandboxPolicyDenial) : InteractionRequest :=
  { prompt := permissionPrompt (invocation.map toolName) denial context
    options := permissionOptions denial context }

/-- One instruction of an operation, with the code that is left after it. -/
def exec (env : Env) (s : Shared κ) (task : Task κ) (rest : List Instr) : Instr → Shared κ × Task κ
  | .operation context retries =>
    match env.outcome with
    | .ok => (s.revoke task.cleanup, { task with code := rest, cleanup := [] })
    | .denied denial =>
      if retries ≥ maxSandboxPermissionRetries then task.fail s
      else (s, { task with code := .approval context denial :: .operation context (retries + 1) :: rest })
    | .failed => task.fail s
  | .inspect command retries =>
    match env.runtimeDenial with
    | none => (s, { task with code := rest })
    | some denial =>
      if retries ≥ maxSandboxPermissionRetries then task.fail s
      else
        (s, { task with
          code := .approval (some command) denial :: .operation (some command) 0 ::
            .inspect command (retries + 1) :: rest })
  | .approval context denial =>
    if contextMatchesAutoApproval s.rules context denial then
      (s.record (.autoApproved context denial), { task with code := .grant context denial .once :: rest })
    else (s, { task with code := .scope context denial :: rest })
  | .scope context denial =>
    match s.currentScope task.invocation with
    | some scope => (s, { task with code := .grant context denial scope :: rest })
    | none => (s, { task with code := .ask context denial :: rest })
  | .ask context denial =>
    let decision := requestPermission denial context env.answer
    let asked := s.record
      (.asked task.invocation (askRequest toolName task.invocation context denial) context denial decision)
    match decision with
    | some (.grant scope) =>
      (asked.approveCurrent task.invocation scope, { task with code := .grant context denial scope :: rest })
    | some .allowSimilarBashForSession =>
      let rules := match context with
        | some command => s.rules.add command denial
        | none => s.rules
      ({ asked with rules }, { task with code := .grant context denial .once :: rest })
    | none => task.fail asked
  | .grant context denial scope =>
    let grantScope := if denial.capability = .execRuntime then .once else scope
    match env.grantId with
    | none => task.fail s
    | some id =>
      let granted := { s.record (.granted context denial grantScope) with
        active := s.active ++ [(id, denial, grantScope)] }
      if grantScope = .once then
        -- the invocation revokes the grant at its end; outside of one the operation does
        match task.invocation with
        | some k =>
          ({ granted with onceGrants := Function.update s.onceGrants k (s.onceGrants k ++ [id]) },
            { task with code := rest })
        | none => (granted, { task with code := rest, cleanup := task.cleanup ++ [id] })
      else (granted, { task with code := rest })

/-- The next operation of a caller. -/
def begin (todo : List (Operation κ)) : Operation κ → Shared κ × Task κ
  | .plain invocation => (s, { invocation, code := [.operation none 0], cleanup := [], todo })
  | .exec invocation command =>
    (s, { invocation, code := [.operation none 0, .inspect command 0], cleanup := [], todo })
  | .leave k =>
    ({ s.revoke (s.onceGrants k) with onceGrants := Function.update s.onceGrants k [] },
      { invocation := some k, code := [], cleanup := [], todo })

/-- A thread goes on with its operation, or begins the next. -/
def act (env : Env) (s : Shared κ) (task : Task κ) : Option (Shared κ × Task κ) :=
  match task.code, task.todo with
  | x :: rest, _ => some (exec toolName env s task rest x)
  | [], operation :: todo => some (begin s todo operation)
  | [], [] => none

/-- The callers of a session. -/
abbrev World (ι κ : Type) := Threads ι (Shared κ) (Task κ)

def step [DecidableEq ι] (toolName : κ → String) : World ι κ → ι × Env → Option (World ι κ) :=
  Threads.step (act toolName)

/-- A session before its first operation. -/
def start (operations : ι → List (Operation κ)) : World ι κ where
  shared := { rules := [], scopes := fun _ => none, onceGrants := fun _ => [], active := [], log := [] }
  thread i := { invocation := none, code := [], cleanup := [], todo := operations i }

/-- A condition on the instruction that a step executes, in the state before it. -/
def AtHead (P : Shared κ → Option κ → Instr → Prop) (w : World ι κ) (label : ι × Env) : Prop :=
  ∀ x ∈ (w.thread label.1).code.head?, P w.shared (w.thread label.1).invocation x

instance (P : Shared κ → Option κ → Instr → Prop) [∀ s invocation x, Decidable (P s invocation x)] :
    DecidableRel (AtHead (ι := ι) P) := fun w label =>
  inferInstanceAs (Decidable (∀ x ∈ (w.thread label.1).code.head?, P w.shared (w.thread label.1).invocation x))

/-! ### What a step does -/

def Instr.isGrant : Instr → Bool
  | grant .. => true
  | _ => false

/-- The rules, the scopes and the log are as before. -/
structure Quiet (t : Shared κ) : Prop where
  rules : t.rules = s.rules
  scopes : t.scopes = s.scopes
  log : t.log = s.log

/-- **What an instruction does** to the rules, the scopes and the log, and the code that it leaves:
nothing; a rule approves; the invocation remembers; the user answers, in one of three ways; or there
is a grant. -/
inductive Effect (toolName : κ → String) (invocation : Option κ) (s : Shared κ) (rest : List Instr) :
    Instr → Shared κ → List Instr → Prop where
  | quiet {x : Instr} {t : Shared κ} {code : List Instr} (same : Quiet s t)
      (old : ∀ y ∈ code, y ∈ rest ∨ y.isGrant = false) : Effect toolName invocation s rest x t code
  | approved {context : Option PermissionRequestContext} {denial : SandboxPolicyDenial}
      (rule : contextMatchesAutoApproval s.rules context denial) :
      Effect toolName invocation s rest (.approval context denial) (s.record (.autoApproved context denial))
        (.grant context denial .once :: rest)
  | remembered {context : Option PermissionRequestContext} {denial : SandboxPolicyDenial}
      {scope : SandboxPermissionScope} (known : s.currentScope invocation = some scope) :
      Effect toolName invocation s rest (.scope context denial) s (.grant context denial scope :: rest)
  | allowed {context : Option PermissionRequestContext} {denial : SandboxPolicyDenial}
      (scope : SandboxPermissionScope) (runtime : denial.capability = .execRuntime → scope = .once) :
      Effect toolName invocation s rest (.ask context denial)
        ((s.record (.asked invocation (askRequest toolName invocation context denial) context denial
          (some (.grant scope)))).approveCurrent invocation scope)
        (.grant context denial scope :: rest)
  | similar {command : String} {denial : SandboxPolicyDenial} {rule : BashSandboxApprovalRule}
      (new : fromDenial command denial = some rule) :
      Effect toolName invocation s rest (.ask (some command) denial)
        { s.record (.asked invocation (askRequest toolName invocation (some command) denial) (some command) denial
          (some .allowSimilarBashForSession)) with rules := s.rules.add command denial }
        (.grant (some command) denial .once :: rest)
  | refused {context : Option PermissionRequestContext} {denial : SandboxPolicyDenial} {t : Shared κ}
      (asked : Quiet (s.record (.asked invocation (askRequest toolName invocation context denial)
        context denial none))
        t) :
      Effect toolName invocation s rest (.ask context denial) t []
  | granted {context : Option PermissionRequestContext} {denial : SandboxPolicyDenial}
      {scope : SandboxPermissionScope} {t : Shared κ}
      (granted : Quiet (s.record (.granted context denial
        (if denial.capability = .execRuntime then .once else scope))) t) :
      Effect toolName invocation s rest (.grant context denial scope) t rest

variable {toolName : κ → String}

/-- A rule never approves a denial of the runtime. -/
theorem contextMatchesAutoApproval_execRuntime {rs : BashSandboxApprovalRules}
    {c : Option PermissionRequestContext} {d : SandboxPolicyDenial}
    (h : contextMatchesAutoApproval rs c d) : d.capability ≠ .execRuntime := by
  cases c with
  | none => cases h
  | some =>
    intro hc
    simp [contextMatchesAutoApproval, BashSandboxApprovalRules.matches, hc] at h

/-- The code that is left, after instructions that grant nothing. -/
theorem Effect.before {i : Option κ} {s t : Shared κ} {rest l : List Instr} {x : Instr} (h : Quiet s t)
    (hx : ∀ y ∈ l, y.isGrant = false) : Effect toolName i s rest x t (l ++ rest) := by
  refine .quiet h fun y hy => ?_
  rcases mem_append.mp hy with hy | hy
  · exact .inr (hx y hy)
  · exact .inl hy

theorem exec_effect (s : Shared κ) (e : Env) (ts : Task κ) (rest : List Instr) (x : Instr) :
    Effect toolName ts.invocation s rest x (exec toolName e s ts rest x).1 (exec toolName e s ts rest x).2.code := by
  cases x with dsimp only [exec]
  | operation =>
    split
    · exact .quiet ⟨rfl, rfl, rfl⟩ fun y hy => .inl hy
    · split_ifs
      · exact .quiet ⟨rfl, rfl, rfl⟩ (forall_mem_nil _)
      · exact .before (l := [_, _]) ⟨rfl, rfl, rfl⟩ (by simp [Instr.isGrant])
    · exact .quiet ⟨rfl, rfl, rfl⟩ (forall_mem_nil _)
  | inspect =>
    split
    · exact .quiet ⟨rfl, rfl, rfl⟩ fun y hy => .inl hy
    · split_ifs
      · exact .quiet ⟨rfl, rfl, rfl⟩ (forall_mem_nil _)
      · exact .before (l := [_, _, _]) ⟨rfl, rfl, rfl⟩ (by simp [Instr.isGrant])
  | approval =>
    split_ifs with hr
    · exact .approved hr
    · exact .before (l := [_]) ⟨rfl, rfl, rfl⟩ (by simp [Instr.isGrant])
  | scope =>
    split
    · next scope hs => exact .remembered hs
    · exact .before (l := [_]) ⟨rfl, rfl, rfl⟩ (by simp [Instr.isGrant])
  | ask =>
    split
    · next scope hd =>
      rw [hd]
      refine .allowed scope fun hc => ?_
      rcases requestPermission_eq_some hd with ⟨heq, -⟩ | ⟨heq, -, hne⟩ | ⟨heq, -⟩
      · exact PermissionDecision.grant.inj heq
      · exact absurd hc hne
      · cases heq
    · next hd =>
      rcases requestPermission_eq_some hd with ⟨heq, -⟩ | ⟨heq, -⟩ | ⟨-, -, cm, r, rfl, hr⟩
      · cases heq
      · cases heq
      · rw [hd]
        exact .similar hr
    · next hd =>
      rw [hd]
      exact .refused ⟨rfl, rfl, rfl⟩
  | grant c d scope =>
    split
    · exact .quiet ⟨rfl, rfl, rfl⟩ (forall_mem_nil _)
    · generalize hs : (if d.capability = .execRuntime then SandboxPermissionScope.once else scope) = grantScope
      have hg : ∀ {t}, Quiet (s.record (.granted c d grantScope)) t →
          Effect toolName ts.invocation s rest (.grant c d scope) t rest :=
        fun hq => .granted (hs ▸ hq)
      split_ifs
      · split <;> exact hg ⟨rfl, rfl, rfl⟩
      · exact hg ⟨rfl, rfl, rfl⟩

/-- A step executes an instruction, or begins an operation. -/
theorem step_cases [DecidableEq ι] {w w' : World ι κ} {l : ι × Env} (h : step toolName w l = some w') :
    ∃ t ts, w' = w.put l.1 t ts ∧ ((∃ x r, (w.thread l.1).code = x :: r ∧
          Effect toolName (w.thread l.1).invocation w.shared r x t ts.code) ∨
        (Quiet w.shared t ∧ ∀ y ∈ ts.code, y.isGrant = false)) := by
  obtain ⟨t, ts, ha, rfl⟩ := Threads.step_eq_some.mp h
  refine ⟨t, ts, rfl, ?_⟩
  rw [act] at ha
  split at ha
  · next x r hc =>
    have he : Effect toolName _ _ _ x _ _ := exec_effect w.shared l.2 (w.thread l.1) r x
    rw [some.inj ha] at he
    exact .inl ⟨x, r, hc, he⟩
  · next o td _ _ =>
    refine .inr ?_
    cases o <;> cases ha <;> exact ⟨⟨rfl, rfl, rfl⟩, by simp [Instr.isGrant]⟩
  · cases ha

/-- A denial in the sandbox of the local backend. -/
def bashDenial (capability : SandboxPermissionCapability) (path : String) : SandboxPolicyDenial where
  backendId := "local"
  isolation := "linux_bubblewrap"
  operation := "bash"
  capability := capability
  path := path

/-- The path is the one that the command has printed. -/
def runtimeSeatbeltDenial (path : String) : SandboxPolicyDenial :=
  { bashDenial .write path with isolation := "macos_seatbelt" }

def silentRuntimeDenial : SandboxPolicyDenial :=
  { bashDenial .execRuntime "<runtime path not reported by macOS Seatbelt>" with isolation := "macos_seatbelt" }

/-! ### Reading the log -/

/-- An approval of similar commands, with the rule that it recorded. -/
def Event.similar? : Event κ → Option (SandboxPolicyDenial × BashSandboxApprovalRule)
  | .asked _ _ (some command) denial (some .allowSimilarBashForSession) =>
    (fromDenial command denial).map fun rule => (denial, rule)
  | _ => none

/-- The user's approvals of similar commands. -/
def approvals (log : List (Event κ)) : List (SandboxPolicyDenial × BashSandboxApprovalRule) :=
  log.filterMap Event.similar?

end XiaoO.Gateway.Permission
