import XiaoO.Operation.Policy

/-!
# Writes of the local backend under path isolation

The write checks of `backends/local/policy.rs` and the two writing operations of
`backends/local/filesystem.rs`, `create_dir_all` and `write_bytes`, on a file
tree with symbolic links.

## The model

Names are texts, and a host path is what `normalize_absolute_host_path` produces. An
operation returns the tree after it, the locations of everything it has created
or changed, and its result. Nothing else changes the tree meanwhile.

The externalized writes and the ownership check of a backend path are left out, and so
is the text of an I/O error.

## What is proved

The check looks at the canonical location of the path, or of its parent, and
falls back on the *lexical* path when neither exists, while the operation
resolves every component. So `create_dir_all` below a link to a directory
outside the roots creates directories there, and an overwrite of a dangling link
creates its target (`write_escapes`). `write_confined_iff` says exactly when an
operation that passes its checks stays inside.
-/

namespace XiaoO.Operation

open XiaoO.Base XiaoO.Base.FileTree Except List

/-- A lexically normal absolute path, innermost name first. -/
abbrev HostPath := List String

def display (p : HostPath) : String := "/" ++ "/".intercalate p.reverse

def ioErrorForPath (p : HostPath) : Errno → OperationError
  | .noent => .notFound (display p)
  | .exist => .alreadyExists (display p)
  | e => .transport (display p) e

def componentText : Component String → String
  | .cur => "."
  | .up => ".."
  | .name n => n

/-- The loop of `normalize_absolute_host_path`, from the part already normalized. -/
def normalizeFrom : HostPath → List (Component String) → Option HostPath
  | normalized, [] => some normalized
  | normalized, .cur :: rest => normalizeFrom normalized rest
  | [], .up :: _ => none
  | _ :: parent, .up :: rest => normalizeFrom parent rest
  | normalized, .name n :: rest => normalizeFrom (n :: normalized) rest

/-- `normalize_absolute_host_path`, of the components of an absolute path. -/
def normalizeAbsoluteHostPath (path : List (Component String)) : Except OperationError HostPath :=
  match normalizeFrom [] path with
  | some normalized => .ok normalized
  | none => .error (.invalidPath ("path escapes root: /" ++ "/".intercalate (path.map componentText)))

/-! ### The checks -/

variable (policy : LocalBackendPolicy String) (links : ℕ) (fs : FileTree String) (pid timestamp : ℕ)
  (p : HostPath)

/-- The location lies within a writable root or a live write grant. -/
def LocalBackendPolicy.allowed (loc : HostPath) : Bool :=
  policy.allows loc PathIsolationConfig.writableRoots .write

/-! ### The operations -/

/-- What an operation leaves: the tree, the locations it has created or changed, and
its result. -/
structure Outcome (β : Type) where
  tree : FileTree String
  touched : List HostPath
  result : Except OperationError β

inductive WriteMode where
  | create
  | overwrite
  | atomicOverwrite
  deriving DecidableEq

def ensureDirectory : Except OperationError Unit :=
  match fs.resolve true links [] (names p) with
  | .error e => .error (ioErrorForPath p e)
  | .ok (loc, _) =>
    match fs.node loc with
    | none => .error (ioErrorForPath p .noent)
    | some .dir => .ok ()
    | some _ => .error (.notDirectory (display p))

/-- `atomic_write_temp_path`: the name of the temporary file, in the same directory. -/
def atomicWriteTempName (name : String) : String :=
  "." ++ name ++ ".atomic-" ++ toString pid ++ "-" ++ toString timestamp ++ ".tmp"

def createDirAll (policy : LocalBackendPolicy String) (links : ℕ) (fs : FileTree String)
    (path : List (Component String)) : Outcome Unit :=
  match normalizeAbsoluteHostPath path with
  | .error e => ⟨fs, [], .error e⟩
  | .ok hostPath =>
    match policy.checkWrite links fs hostPath display "create_dir_all" with
    | .error e => ⟨fs, [], .error e⟩
    | .ok () =>
      let (tree, created, result) := fs.createDirAll links hostPath
      ⟨tree, created, result.mapError (ioErrorForPath hostPath)⟩

/-- The part of `write_bytes` before the file is opened: both checks, and the parent
must be a directory. Returns the file name and the parent. -/
def prepareWrite (path : List (Component String)) : Except OperationError (String × HostPath) := do
  let hostPath ← normalizeAbsoluteHostPath path
  policy.checkWrite links fs hostPath display "file_write"
  match hostPath with
  | [] => .error (.invalidPath "path does not have a parent directory: /")
  | name :: parent =>
    policy.checkWrite links fs parent display "file_write"
    ensureDirectory links fs parent
    return (name, parent)

/-- The part of `write_bytes` that writes. -/
def writeMode (fs : FileTree String) (name : String)
    (parent : HostPath) (content : List UInt8) : WriteMode → Outcome Unit
  | .create =>
    match fs.create links (.file content) (name :: parent) with
    | .error e => ⟨fs, [], .error (ioErrorForPath (name :: parent) e)⟩
    | .ok (tree, loc) => ⟨tree, [loc], .ok ()⟩
  | .overwrite =>
    match fs.writeFile links content (name :: parent) with
    | .error e => ⟨fs, [], .error (ioErrorForPath (name :: parent) e)⟩
    | .ok (tree, loc) => ⟨tree, [loc], .ok ()⟩
  | .atomicOverwrite =>
    let tempName := atomicWriteTempName pid timestamp name
    match policy.checkWrite links fs (tempName :: parent) display "file_write" with
    | .error e => ⟨fs, [], .error e⟩
    | .ok () =>
      match fs.create links (.file content) (tempName :: parent) with
      | .error e => ⟨fs, [], .error (ioErrorForPath (tempName :: parent) e)⟩
      | .ok (tree, loc) =>
        match tree.rename links tempName name parent with
        | .error e => ⟨tree, [loc], .error (ioErrorForPath (name :: parent) e)⟩
        | .ok (tree, locs) => ⟨tree, loc :: locs, .ok ()⟩

/-- `LocalFileSystem::write_bytes`; the result says whether the file is new. -/
def writeBytes (fs : FileTree String)
    (path : List (Component String)) (mode : WriteMode) (content : List UInt8) : Outcome Bool :=
  match prepareWrite policy links fs path with
  | .error e => ⟨fs, [], .error e⟩
  | .ok (name, parent) =>
    let existed := (canonicalize links fs (name :: parent)).isSome
    let out := writeMode policy links pid timestamp fs name parent content mode
    ⟨out.tree, out.touched, out.result.map fun () => !existed⟩

/-! ### What the checks give -/

variable {policy : LocalBackendPolicy String} {links : ℕ} {fs : FileTree String} {p : HostPath}

variable {loc d parent : HostPath} {k pid timestamp : ℕ} {name : String} {path : List (Component String)}
  {content : List UInt8}

theorem allowed_cons (h : policy.allowed loc) (n : String) : policy.allowed (n :: loc) :=
  LocalBackendPolicy.allows_of_suffix h (suffix_cons n loc)

theorem checkWrite_ok {o : String} : policy.checkWrite links fs p display o = .ok () ↔
    policy.allowed (normalizeForWrite links fs p) :=
  LocalBackendPolicy.checkWithin_ok

/-- The path of a directory is checked at its resolved location. -/
theorem normalizeForWrite_of_resolveDir
    (h : fs.resolveDir links [] (names p) = .ok (d, k)) : normalizeForWrite links fs p = d := by
  obtain ⟨hr, hd⟩ := resolveDir_ok.mp h
  have hc : canonicalize links fs p = some d := canonicalize_eq_some.mpr ⟨k, hr, by simp [hd]⟩
  simp [normalizeForWrite, hc]

theorem ensureDirectory_ok : ensureDirectory links fs p = .ok () ↔
    ∃ r, fs.resolveDir links [] (names p) = .ok r := by
  unfold ensureDirectory
  constructor
  · intro h
    cases hrs : fs.resolve true links [] (names p) with
    | error => simp [hrs] at h
    | ok r =>
      simp only [hrs] at h
      split at h
      next => simp at h
      next hd => exact ⟨r, resolveDir_ok.mpr ⟨hrs, hd⟩⟩
      next => simp at h
  · rintro ⟨r, hr⟩
    obtain ⟨hrs, hd⟩ := resolveDir_ok.mp hr
    simp [hrs, hd]

/-- When a write is prepared, its parent is a directory at an allowed location. -/
theorem prepareWrite_ok (h : prepareWrite policy links fs path = .ok (name, parent)) :
    normalizeAbsoluteHostPath path = .ok (name :: parent) ∧
      policy.allowed (normalizeForWrite links fs (name :: parent)) ∧
      ∃ d k, fs.resolveDir links [] (names parent) = .ok (d, k) ∧ policy.allowed d := by
  unfold prepareWrite at h
  cases hn : normalizeAbsoluteHostPath path with
  | error => simp [hn, bind, Except.bind] at h
  | ok hostPath =>
    cases hc : policy.checkWrite links fs hostPath display "file_write" with
    | error => simp [hn, hc, bind, Except.bind] at h
    | ok =>
      cases hostPath with
      | nil => simp [hn, hc, bind, Except.bind] at h
      | cons n q =>
        cases hc' : policy.checkWrite links fs q display "file_write" with
        | error => simp [hn, hc, hc', bind, Except.bind] at h
        | ok =>
          cases hd : ensureDirectory links fs q with
          | error => simp [hn, hc, hc', hd, bind, Except.bind] at h
          | ok =>
            simp only [hn, hc, hc', hd, bind, Except.bind, pure, Except.pure, Except.ok.injEq, Prod.mk.injEq] at h
            obtain ⟨rfl, rfl⟩ := h
            obtain ⟨⟨d, k⟩, hr⟩ := ensureDirectory_ok.mp hd
            refine ⟨rfl, checkWrite_ok.mp hc, d, k, hr, ?_⟩
            rw [← normalizeForWrite_of_resolveDir hr]
            exact checkWrite_ok.mp hc'

/-! ### Requests -/

inductive WriteRequest where
  | createDirAll (path : List (Component String))
  | writeBytes (path : List (Component String)) (mode : WriteMode) (content : List UInt8)

/-- The locations a request creates or changes. -/
def WriteRequest.touched (policy : LocalBackendPolicy String) (links pid timestamp : ℕ) (fs : FileTree String) :
    WriteRequest → List HostPath
  | .createDirAll path => (Operation.createDirAll policy links fs path).touched
  | .writeBytes path mode content =>
    (Operation.writeBytes policy links pid timestamp fs path mode content).touched

/-- The request passes its policy checks. -/
def WriteRequest.PassesChecks (policy : LocalBackendPolicy String) (links pid timestamp : ℕ) (fs : FileTree String) :
    WriteRequest → Prop
  | .createDirAll path =>
    ∃ p, normalizeAbsoluteHostPath path = .ok p ∧ policy.checkWrite links fs p display "create_dir_all" = .ok ()
  | .writeBytes path mode _ =>
    ∃ name parent, normalizeAbsoluteHostPath path = .ok (name :: parent) ∧
      policy.checkWrite links fs (name :: parent) display "file_write" = .ok () ∧
      policy.checkWrite links fs parent display "file_write" = .ok () ∧
      (mode = .atomicOverwrite →
        policy.checkWrite links fs (atomicWriteTempName pid timestamp name :: parent) display "file_write" = .ok ())

/-- The path `p` names a symbolic link, and the target `t` it leads to does not exist. -/
def DanglingTarget (links : ℕ) (fs : FileTree String) (p t : HostPath) : Prop :=
  ∃ name parent d k target j, p = name :: parent ∧ fs.resolveDir links [] (names parent) = .ok (d, k) ∧
    fs.node (name :: d) = some (.symlink target) ∧ fs.resolve true links [] (names p) = .ok (t, j) ∧
    fs.node t = none

/-- Where the checks do not look: the first missing entry of a path whose parent does
not exist, and the target of a dangling link that is overwritten. -/
def WriteRequest.SafeTarget (policy : LocalBackendPolicy String) (links : ℕ)
    (fs : FileTree String) : WriteRequest → Prop
  | .createDirAll path =>
    ∀ p, normalizeAbsoluteHostPath path = .ok p → ∀ loc, Missing links fs p loc → policy.allowed loc
  | .writeBytes path .overwrite _ =>
    ∀ p, normalizeAbsoluteHostPath path = .ok p → ∀ t, DanglingTarget links fs p t → policy.allowed t
  | .writeBytes _ _ _ => True

/-! ### Confinement -/

section

variable (hd : fs.resolveDir links [] (names parent) = .ok (d, k)) (ha : policy.allowed d)
include hd ha

theorem create_allowed {x : Node String} {t : FileTree String}
    (h : fs.create links x (name :: parent) = .ok (t, loc)) : policy.allowed loc := by
  obtain ⟨n, q, d', k', heq, hr, -, rfl, -⟩ := create_ok h
  obtain ⟨rfl, rfl⟩ := cons.inj heq
  rw [hd] at hr
  obtain ⟨rfl, -⟩ := Prod.mk.inj (ok.inj hr)
  exact allowed_cons ha name

/-- A location that an existing parent's entry resolves to is allowed, unless it is the
target of a dangling link. -/
theorem resolve_allowed {j : ℕ} (hc : policy.allowed (normalizeForWrite links fs (name :: parent)))
    (hr : fs.resolve true links [] (names (name :: parent)) = .ok (loc, j)) :
    policy.allowed loc ∨ DanglingTarget links fs (name :: parent) loc := by
  cases hn : fs.node loc with
  | some =>
    have hcn : canonicalize links fs (name :: parent) = some loc :=
      canonicalize_eq_some.mpr ⟨j, hr, by simp [hn]⟩
    rw [normalizeForWrite, hcn] at hc
    exact .inl hc
  | none =>
    have he := hr
    rw [resolve_names_cons, hd] at he
    simp only [Except.bind] at he
    cases hl : fs.node (name :: d) with
    | none =>
      rw [resolve_none hl] at he
      obtain ⟨rfl, -⟩ : name :: d = loc ∧ k = j := by simpa using he
      exact .inl (allowed_cons ha name)
    | some x =>
      cases x with
      | dir =>
        rw [resolve_dir hl] at he
        obtain ⟨rfl, -⟩ : name :: d = loc ∧ k = j := by simpa using he
        simp [hl] at hn
      | file =>
        rw [resolve_file hl] at he
        obtain ⟨rfl, -⟩ : name :: d = loc ∧ k = j := by simpa using he
        simp [hl] at hn
      | symlink t => exact .inr ⟨name, parent, d, k, t, j, rfl, hd, hl, hr, hn⟩

/-- Creating a file and replacing one atomically stay in the parent directory. -/
theorem writeMode_allowed {m : WriteMode} (hm : m ≠ .overwrite) :
    ∀ loc ∈ (writeMode policy links pid timestamp fs name parent content m).touched, policy.allowed loc := by
  cases m with
  | overwrite => exact absurd rfl hm
  | create =>
    rcases hc : fs.create links (.file content) (name :: parent) with e | ⟨tree, loc⟩
    · simp [writeMode, hc]
    · simpa [writeMode, hc] using create_allowed hd ha hc
  | atomicOverwrite =>
    simp only [writeMode]
    rcases policy.checkWrite links fs (atomicWriteTempName pid timestamp name :: parent) display
      "file_write" with e | u
    · simp
    · rcases hc : fs.create links (.file content) (atomicWriteTempName pid timestamp name :: parent)
        with e | ⟨tree, loc⟩
      · simp
      · have ht := create_allowed hd ha hc
        rcases hr : tree.rename links (atomicWriteTempName pid timestamp name) name parent with e | ⟨tree', locs⟩
        · simpa [hr] using ht
        · -- The parent still resolves to the same directory after the temporary file is there.
          obtain ⟨d', k', hrs, rfl⟩ := rename_ok hr
          rw [resolveDir_mono (create_le hc) hd] at hrs
          obtain ⟨rfl, -⟩ := Prod.mk.inj (ok.inj hrs)
          simp [hr, ht, allowed_cons ha]

end

/-- A write that is prepared passes its checks, and one that is not touches nothing. -/
theorem touched_writeBytes {m : WriteMode}
    (h : loc ∈ (writeBytes policy links pid timestamp fs path m content).touched) :
    ∃ name parent, prepareWrite policy links fs path = .ok (name, parent) ∧
      loc ∈ (writeMode policy links pid timestamp fs name parent content m).touched := by
  unfold writeBytes at h
  rcases hp : prepareWrite policy links fs path with e | ⟨name, parent⟩
  · simp [hp] at h
  · exact ⟨name, parent, rfl, by simpa [hp] using h⟩

/-- The target of a dangling link that passes the checks is created by an overwrite. -/
theorem danglingTarget_touched {t : HostPath}
    (hps : (WriteRequest.writeBytes path .overwrite content).PassesChecks policy links pid timestamp fs)
    (hn : normalizeAbsoluteHostPath path = .ok p) (ht : DanglingTarget links fs p t) :
    t ∈ (writeBytes policy links pid timestamp fs path .overwrite content).touched := by
  obtain ⟨name, parent, hn', hc, hp, -⟩ := hps
  obtain ⟨n, q, d, k, tr, j, heq, hd, -, hr, hnn⟩ := ht
  obtain rfl : name :: parent = p := Except.ok.inj (hn'.symm.trans hn)
  obtain ⟨rfl, rfl⟩ := cons.inj heq
  have hdr := ensureDirectory_ok.mpr ⟨_, hd⟩
  have hpr : prepareWrite policy links fs path = .ok (name, parent) := by
    simp [prepareWrite, hn, hc, hp, hdr, bind, Except.bind, pure, Except.pure]
  obtain ⟨tree, hw⟩ := writeFile_missing content hr hnn
  simp [writeBytes, hpr, writeMode, hw]

/-- **Exactly when a write stays inside**: an operation that passes its policy checks
creates and changes only locations within a writable root or a write grant, if
and only if the places the checks do not look at are allowed. -/
theorem write_confined_iff {pid timestamp : ℕ} {request : WriteRequest}
    (hpass : request.PassesChecks policy links pid timestamp fs) :
    (∀ loc ∈ request.touched policy links pid timestamp fs, policy.allowed loc) ↔
      request.SafeTarget policy links fs := by
  cases request with
  | createDirAll path =>
    obtain ⟨p, hn, hc⟩ := hpass
    have htc : (createDirAll policy links fs path).touched = (fs.createDirAll links p).2.1 := by
      simp [createDirAll, hn, hc]
    simp only [WriteRequest.touched, WriteRequest.SafeTarget, htc]
    constructor
    · intro h q hq loc hm
      obtain rfl : p = q := ok.inj (hn.symm.trans hq)
      exact h loc (missing_mem_created hm)
    · intro h loc hl
      obtain ⟨m, hm, hs⟩ := (creates_createDirAll links fs p).exists_missing_of_created hl
      exact LocalBackendPolicy.allows_of_suffix (h p hn m hm) hs
  | writeBytes path md content =>
    by_cases hmd : md = .overwrite
    · subst hmd
      constructor
      · intro h q hq t ht
        exact h t (danglingTarget_touched hpass hq ht)
      · intro h loc hl
        obtain ⟨name, parent, hp, hl⟩ := touched_writeBytes hl
        obtain ⟨hn, hc, d, k, hd, ha⟩ := prepareWrite_ok hp
        rcases hw : fs.writeFile links content (name :: parent) with e | ⟨tree, l⟩
        · simp [writeMode, hw] at hl
        · obtain rfl : loc = l := by simpa [writeMode, hw] using hl
          obtain ⟨j, hr⟩ := writeFile_ok hw
          rcases resolve_allowed hd ha hc hr with hin | hdn
          · exact hin
          · exact h _ hn _ hdn
    · have htr : (WriteRequest.writeBytes path md content).SafeTarget policy links fs := by
        cases md <;> first | exact absurd rfl hmd | trivial
      refine iff_of_true (fun loc hl => ?_) htr
      obtain ⟨name, parent, hp, hl⟩ := touched_writeBytes hl
      obtain ⟨-, -, d, k, hd, ha⟩ := prepareWrite_ok hp
      exact writeMode_allowed hd ha hmd loc hl

/-! ### A workspace with links out of it -/

/-- A writable workspace `/w` next to a directory `/out`. -/
def workspace : FileTree String :=
  (FileTree.root.put "w" [] .dir rfl (by decide)).put "out" [] .dir (by decide) (by decide)

/-- The workspace with the links `/w/link` to `/out` and `/w/dangling` to `/out/new`,
which does not exist. -/
def linkedWorkspace : FileTree String :=
  (workspace.put "link" ["w"] (.symlink ⟨true, [.name "out"]⟩) (by decide) (by decide)).put "dangling" ["w"]
    (.symlink ⟨true, [.name "out", .name "new"]⟩) (by decide) (by decide)

/-- Isolation with `/w` as the only writable root. -/
def workspacePolicy : LocalBackendPolicy String := ⟨.linuxBubblewrap ⟨false, [], [["w"]]⟩, []⟩

/-- The same with `/out` as another one. -/
def outerPolicy : LocalBackendPolicy String :=
  ⟨.linuxBubblewrap ⟨false, [], [["w"], ["out"]]⟩, []⟩

/-- `create_dir_all` of `/w/link/a/b`. -/
def belowLink : WriteRequest := .createDirAll [.name "w", .name "link", .name "a", .name "b"]

/-- Directories below a link into an allowed directory. -/
theorem write_confined_iff_create :
    belowLink.PassesChecks outerPolicy 40 1 1 linkedWorkspace ∧
      ["a", "out"] ∈ belowLink.touched outerPolicy 40 1 1 linkedWorkspace ∧
      ∀ loc ∈ belowLink.touched outerPolicy 40 1 1 linkedWorkspace, outerPolicy.allowed loc := by
  have hp : belowLink.PassesChecks outerPolicy 40 1 1 linkedWorkspace :=
    ⟨["b", "a", "link", "w"], by decide, by decide⟩
  refine ⟨hp, by decide, (write_confined_iff hp).mpr ?_⟩
  rintro p hn loc ⟨s, n, parent, d, k, rfl, hr, hm, rfl⟩
  have heq : ["b", "a", "link", "w"] = s ++ n :: parent := ok.inj hn
  -- Only `a` is missing in a directory that exists.
  have hb : linkedWorkspace.resolveDir 40 [] (names ["a", "link", "w"]) = .error .noent := by decide
  have ha : linkedWorkspace.resolveDir 40 [] (names ["link", "w"]) = .ok (["out"], 39) := by decide
  have hl : linkedWorkspace.resolveDir 40 [] (names ["w"]) = .ok (["w"], 40) := by decide
  have hw : linkedWorkspace.resolveDir 40 [] (names []) = .ok ([], 40) := by decide
  rcases s with _ | ⟨_, _ | ⟨_, _ | ⟨_, _ | ⟨_, s⟩⟩⟩⟩
  · cases heq
    cases hb.symm.trans hr
  · cases heq
    cases ha.symm.trans hr
    decide
  · cases heq
    cases hl.symm.trans hr
    cases hm
  · cases heq
    cases hw.symm.trans hr
    cases hm
  · simp at heq

/-- **Writes escape the workspace**: with `/w` as the only writable root,
`create_dir_all` of `/w/link/a/b` passes its check and creates `/out/a`, and an
overwrite of `/w/dangling` passes its checks and creates `/out/new`. -/
theorem write_escapes :
    (belowLink.PassesChecks workspacePolicy 40 1 1 linkedWorkspace ∧
      ["a", "out"] ∈ belowLink.touched workspacePolicy 40 1 1 linkedWorkspace ∧
      ¬ workspacePolicy.allowed ["a", "out"]) ∧
    (WriteRequest.writeBytes [.name "w", .name "dangling"] .overwrite []).PassesChecks
        workspacePolicy 40 1 1 linkedWorkspace ∧
      ["new", "out"] ∈ (WriteRequest.writeBytes [.name "w", .name "dangling"] .overwrite []).touched
        workspacePolicy 40 1 1 linkedWorkspace ∧
      ¬ workspacePolicy.allowed ["new", "out"] := by
  refine ⟨⟨⟨["b", "a", "link", "w"], by decide, by decide⟩, by decide, by decide⟩, ?_, by decide, by decide⟩
  exact ⟨"dangling", ["w"], by decide, by decide, by decide, by decide⟩

end XiaoO.Operation
