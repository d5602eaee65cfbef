import XiaoO.Base.FileCalls

/-!
# The policy of the local backend

Under path isolation the local backend checks paths by the roots of its configuration and the live
grants (`backends/local/policy.rs`).

## The model

A host path is absolute and lexically normal, a list of entry names with the file name first. The
names are those of the file tree: texts for the file operations, and bytes that need not be UTF-8
for the mounts of a command. `canonicalize` returns the resolved location of an entry that exists
and fails otherwise.
-/

namespace XiaoO.Operation

open XiaoO.Base XiaoO.Base.FileTree

/-- `SandboxPermissionCapability`. -/
inductive Capability where
  | read
  | write
  | execCwd
  | execRuntime
  deriving DecidableEq

/-- `OperationError`, as far as the write operations return it. -/
inductive OperationError where
  | invalidPath (message : String)
  | sandboxPolicyDenied (isolation operation : String) (capability : Capability) (path : String)
  | notFound (path : String)
  | alreadyExists (path : String)
  | notDirectory (path : String)
  | transport (path : String) (errno : Errno)
  deriving DecidableEq

structure SandboxPermissionGrant (α : Type) where
  id : ℕ
  capability : Capability
  path : List α

structure PathIsolationConfig (α : Type) where
  allowNetwork : Bool
  readableRoots : List (List α)
  writableRoots : List (List α)

inductive LocalIsolationConfig (α : Type) where
  | none
  | macosSeatbelt (config : PathIsolationConfig α)
  | linuxBubblewrap (config : PathIsolationConfig α)
  | linuxDynsandbox (roots : PathIsolationConfig α)

/-- `LocalBackendPolicy`: the isolation and the grants that are live. -/
structure LocalBackendPolicy (α : Type) where
  isolation : LocalIsolationConfig α
  grants : List (SandboxPermissionGrant α)

variable {α : Type} [DecidableEq α]

def SandboxPermissionGrant.allows (grant : SandboxPermissionGrant α) (requested : Capability) :
    Bool :=
  match grant.capability, requested with
  | .write, .read => true
  | .execCwd, .read => true
  | granted, requested => granted = requested

def pathIsWithin (path root : List α) : Bool := root.isSuffixOf path

variable (links : ℕ) (fs : FileTree α) (path : List α)

def canonicalize : Option (List α) :=
  match fs.resolve true links [] (names path) with
  | .ok (loc, _) => if (fs.node loc).isSome then some loc else none
  | .error _ => none

def normalizeForRead : List α := (canonicalize links fs path).getD path

def normalizeForWrite : List α :=
  match canonicalize links fs path with
  | some canonical => canonical
  | none =>
    match path with
    | [] => []
    | name :: parent =>
      match canonicalize links fs parent with
      | some canonicalParent => name :: canonicalParent
      | none => name :: parent

namespace LocalBackendPolicy

variable (policy : LocalBackendPolicy α)

def activePathIsolation : Option (String × PathIsolationConfig α) :=
  match policy.isolation with
  | .none => none
  | .macosSeatbelt config => some ("macos_seatbelt", config)
  | .linuxBubblewrap config => some ("linux_bubblewrap", config)
  | .linuxDynsandbox roots => some ("linux_dynsandbox", roots)

def isGranted (capability : Capability) : Bool :=
  policy.grants.any fun grant => grant.allows capability && pathIsWithin path grant.path

/-- A location lies within one of the roots or a live grant. -/
def allows (roots : PathIsolationConfig α → List (List α)) (capability : Capability) : Bool :=
  match policy.activePathIsolation with
  | none => true
  | some (_, config) =>
    (roots config).any (pathIsWithin path) || policy.isGranted path capability

variable (display : List α → String) (operation : String)

/-- What `check_read` and `check_write` do with the normal path. -/
def checkWithin (roots : PathIsolationConfig α → List (List α)) (capability : Capability) :
    Except OperationError Unit :=
  match policy.activePathIsolation with
  | none => .ok ()
  | some (isolationName, config) =>
    if (roots config).any (pathIsWithin path) || policy.isGranted path capability then .ok ()
    else .error (.sandboxPolicyDenied isolationName operation capability (display path))

def checkRead : Except OperationError Unit :=
  policy.checkWithin (normalizeForRead links fs path) display operation
    PathIsolationConfig.readableRoots .read

def checkWrite : Except OperationError Unit :=
  policy.checkWithin (normalizeForWrite links fs path) display operation
    PathIsolationConfig.writableRoots .write

end LocalBackendPolicy

/-! ### What the checks say -/

variable {links} {fs} {path}

theorem pathIsWithin_iff {root : List α} : pathIsWithin path root ↔ root <:+ path :=
  List.isSuffixOf_iff_suffix

namespace LocalBackendPolicy

variable {policy : LocalBackendPolicy α} {display : List α → String} {operation : String}
  {roots : PathIsolationConfig α → List (List α)} {capability : Capability}

theorem allows_iff {name : String} {config : PathIsolationConfig α}
    (h : policy.activePathIsolation = some (name, config)) :
    policy.allows path roots capability ↔ (∃ root ∈ roots config, root <:+ path) ∨
      ∃ grant ∈ policy.grants, grant.allows capability ∧ grant.path <:+ path := by
  simp [allows, h, isGranted, pathIsWithin_iff]

/-- What lies below an allowed location is allowed. -/
theorem allows_of_suffix {below : List α} (h : policy.allows path roots capability)
    (hs : path <:+ below) : policy.allows below roots capability := by
  cases hc : policy.activePathIsolation with
  | none => simp [allows, hc]
  | some c =>
    rw [allows_iff hc] at h ⊢
    rcases h with ⟨root, hm, hr⟩ | ⟨grant, hm, hg, hr⟩
    · exact .inl ⟨root, hm, hr.trans hs⟩
    · exact .inr ⟨grant, hm, hg, hr.trans hs⟩

theorem checkWithin_ok : policy.checkWithin path display operation roots capability = .ok () ↔
    policy.allows path roots capability := by
  unfold checkWithin allows
  cases policy.activePathIsolation with
  | none => simp
  | some =>
    dsimp only
    split_ifs with h <;> simp [h]

end LocalBackendPolicy

omit [DecidableEq α] in
theorem canonicalize_eq_some {loc : List α} : canonicalize links fs path = some loc ↔
    ∃ k, fs.resolve true links [] (names path) = .ok (loc, k) ∧ (fs.node loc).isSome := by
  unfold canonicalize
  cases fs.resolve true links [] (names path) with
  | error => simp
  | ok r =>
    obtain ⟨l, k⟩ := r
    dsimp only
    split_ifs with h
    · simp only [Option.some.injEq, Except.ok.injEq, Prod.mk.injEq]
      constructor
      · rintro rfl
        exact ⟨k, ⟨rfl, rfl⟩, h⟩
      · rintro ⟨-, ⟨rfl, -⟩, -⟩
        rfl
    · simp only [Except.ok.injEq, Prod.mk.injEq, false_iff]
      rintro ⟨-, ⟨rfl, -⟩, hs⟩
      exact h hs

end XiaoO.Operation
