import XiaoO.Base.Text
import XiaoO.Base.Utf8
import XiaoO.Operation.Policy

/-!
# Mounts of a sandboxed command

Under path isolation a command is run in a sandbox with the roots of the policy as mounts
(`backends/local/policy.rs`): `bubblewrap_args` and `linux_dynsandbox_args` give the arguments of
the two tools.

## The model

A name is a list of bytes that need not be UTF-8, as names of files are, and the arguments are
texts. The arguments are read back as the tools read them, as a list of binds; the last bind that
covers a path decides what may be done with it.

Left out are the texts of rules for one invocation, which are not passed on.

## What is proved

A path may be written to exactly if it is bound for writing, and what may be read is bound, if and
only if each writable root lies in one that is UTF-8, and each readable root in what is bound
(`checks_agree_with_mounts_iff`). A root that is not UTF-8 is written into the arguments with
replacement characters, so another path is bound in its place (`other_root_is_bound`).
-/

namespace XiaoO.Operation.Mounts

open XiaoO.Base XiaoO.Base.FileTree
open List hiding utf8Encode utf8Encode_append utf8Encode_cons

/-! ### Paths -/

abbrev IsName (bytes : List UInt8) : Prop :=
  bytes ≠ [] ∧ 0x2F ∉ bytes ∧ bytes ≠ [0x2E] ∧ bytes ≠ [0x2E, 0x2E]

/-- The name of an entry of a directory. -/
structure OsName where
  bytes : List UInt8
  valid : IsName bytes
  deriving DecidableEq

def osName (s : String) (valid : IsName (utf8Encode s.toList) := by decide) : OsName :=
  ⟨utf8Encode s.toList, valid⟩

/-- A normal absolute path, innermost name first. -/
abbrev OsPath := List OsName

variable (path : OsPath)

def pathBytes : List UInt8 := 0x2F :: [0x2F].intercalate (path.reverse.map OsName.bytes)

/-- `Path::to_string_lossy`, and `Path::display`. -/
def toStringLossy : String := String.ofList (fromUtf8Lossy (pathBytes path))

/-- The names of the path in an argument, innermost first. -/
def pathOf (arg : String) : List (List UInt8) :=
  (((utf8Encode arg.toList).splitOn 0x2F).filter fun bytes => bytes ≠ [] ∧ bytes ≠ [0x2E]).reverse

variable (policy : LocalBackendPolicy OsName) (links : ℕ) (fs : FileTree OsName)

/-! ### Roots of a command -/

def pushUniquePath (paths : List OsPath) (path : OsPath) : List OsPath :=
  if path ∈ paths then paths else paths ++ [path]

structure Roots where
  readable : List OsPath
  writable : List OsPath

def Roots.mergeGrant (roots : Roots) (grant : SandboxPermissionGrant OsName) : Roots :=
  match grant.capability with
  | .read | .execCwd => { roots with readable := pushUniquePath roots.readable grant.path }
  | .execRuntime => roots
  | .write =>
    ⟨pushUniquePath roots.readable grant.path, pushUniquePath roots.writable grant.path⟩

def mergeGrantsIntoRoots (roots : Roots) (grants : List (SandboxPermissionGrant OsName)) : Roots :=
  grants.foldl Roots.mergeGrant roots

def configRoots (config : PathIsolationConfig OsName) : Roots :=
  ⟨config.readableRoots, config.writableRoots⟩

/-- The readable roots that are not bound as writable ones. -/
def Roots.readOnly (roots : Roots) : List OsPath :=
  roots.readable.filter fun root => root ∉ roots.writable

/-! ### The arguments of dyn-sandbox -/

def mountArgs (mode : String) (root : OsPath) : List String := ["--mount", toStringLossy root ++ mode]

def linuxDynsandboxArgs (cwd : OsPath) : Option (List String) :=
  match policy.isolation with
  | .linuxDynsandbox config =>
    if policy.grants.any fun grant => grant.capability = .execRuntime then none
    else
      let roots := mergeGrantsIntoRoots (configRoots config) policy.grants
      some (roots.readOnly.flatMap (mountArgs ":ro") ++ roots.writable.flatMap (mountArgs ":rw") ++
        ["-c", toStringLossy cwd])
  | _ => none

/-! ### The arguments of bubblewrap -/

structure BubblewrapArgsBuilder where
  args : List String := []
  dirs : List OsPath := []

variable (builder : BubblewrapArgsBuilder)

namespace BubblewrapArgsBuilder

def arg (value : String) : BubblewrapArgsBuilder := { builder with args := builder.args ++ [value] }

/-- A round of `ensure_directory`. -/
def ensureOne (current : OsPath) : BubblewrapArgsBuilder :=
  if current = [] then builder
  else if current ∈ builder.dirs then builder
  else
    let builder := (builder.arg "--dir").arg (toStringLossy current)
    { builder with dirs := builder.dirs ++ [current] }

/-- `ensure_directory`, from the root to the directory. -/
def ensureDirectory (dest : OsPath) : BubblewrapArgsBuilder :=
  dest.tails.reverse.foldl ensureOne builder

variable (links : ℕ) (fs : FileTree OsName)

def ensureBindDestination (builder : BubblewrapArgsBuilder) (source dest : OsPath) :
    BubblewrapArgsBuilder :=
  let isFile := match (canonicalize links fs source).bind fs.node with
    | some (.file _) => true
    | _ => false
  builder.ensureDirectory (if isFile then dest.tail else dest)

/-- What `ro_bind` and `rw_bind` have in common. All binds of the source are of a path to itself. -/
def bind (option : String) (builder : BubblewrapArgsBuilder) (root : OsPath) :
    BubblewrapArgsBuilder :=
  (((builder.ensureBindDestination links fs root root).arg option).arg (toStringLossy root)).arg
    (toStringLossy root)

def roBind : BubblewrapArgsBuilder → OsPath → BubblewrapArgsBuilder := bind links fs "--ro-bind"

def rwBind : BubblewrapArgsBuilder → OsPath → BubblewrapArgsBuilder := bind links fs "--bind"

def runtimeRoots : List OsPath :=
  [[osName "usr"], [osName "bin"], [osName "sbin"], [osName "lib"], [osName "lib64"]]

def runtimeFiles : List OsPath :=
  [osName "ld.so.cache", osName "ld.so.conf", osName "ld.so.conf.d", osName "nsswitch.conf",
    osName "passwd", osName "group", osName "hosts", osName "resolv.conf", osName "ssl",
    osName "ca-certificates", osName "pki", osName "localtime"].map fun name => [name, osName "etc"]

def pathExists (path : OsPath) : Bool := (canonicalize links fs path).isSome

/-- A mount of `/proc` or `/dev`, if there is one. -/
def special (option : String) (builder : BubblewrapArgsBuilder) (root : OsPath) :
    BubblewrapArgsBuilder :=
  if pathExists links fs root then (builder.arg option).arg (toStringLossy root) else builder

def bindRuntimeRoots (builder : BubblewrapArgsBuilder) : BubblewrapArgsBuilder :=
  let builder := (runtimeRoots.filter (pathExists links fs)).foldl (roBind links fs) builder
  let builder := special links fs "--proc" builder [osName "proc"]
  let builder := special links fs "--dev" builder [osName "dev"]
  (runtimeFiles.filter (pathExists links fs)).foldl (roBind links fs) builder

end BubblewrapArgsBuilder

structure LinuxBubblewrapProfile where
  roots : Roots
  allowNetwork : Bool

def LinuxBubblewrapProfile.fromConfigAndGrants (config : PathIsolationConfig OsName)
    (grants : List (SandboxPermissionGrant OsName)) : LinuxBubblewrapProfile :=
  ⟨mergeGrantsIntoRoots (configRoots config) grants, config.allowNetwork⟩

open BubblewrapArgsBuilder in
def LinuxBubblewrapProfile.toArgs (profile : LinuxBubblewrapProfile) (cwd : OsPath) : List String :=
  let builder : BubblewrapArgsBuilder :=
    ["--die-with-parent", "--unshare-user", "--unshare-ipc", "--unshare-pid", "--unshare-uts",
      "--unshare-cgroup-try"].foldl arg {}
  let builder := if profile.allowNetwork then builder else builder.arg "--unshare-net"
  let builder := builder.bindRuntimeRoots links fs
  let builder := profile.roots.readOnly.foldl (roBind links fs) builder
  let builder := profile.roots.writable.foldl (rwBind links fs) builder
  (((builder.ensureDirectory cwd).arg "--chdir").arg (toStringLossy cwd)).args

def bubblewrapArgs (cwd : OsPath) : Option (List String) :=
  match policy.isolation with
  | .linuxBubblewrap config =>
    if policy.grants.any fun grant => grant.capability = .execRuntime then none
    else some ((LinuxBubblewrapProfile.fromConfigAndGrants config policy.grants).toArgs links fs cwd)
  | _ => none

/-! ### The arguments as binds -/

inductive Access where
  | ro
  | rw
  deriving DecidableEq

structure Bind where
  access : Access
  dest : List (List UInt8)

/-- The binds among the arguments of bubblewrap, by the number of values that each option has. -/
def readBubblewrap : List String → List Bind
  | "--ro-bind" :: _ :: dest :: rest => ⟨.ro, pathOf dest⟩ :: readBubblewrap rest
  | "--bind" :: _ :: dest :: rest => ⟨.rw, pathOf dest⟩ :: readBubblewrap rest
  | "--dir" :: _ :: rest => readBubblewrap rest
  | "--proc" :: _ :: rest => readBubblewrap rest
  | "--dev" :: _ :: rest => readBubblewrap rest
  | "--chdir" :: _ :: rest => readBubblewrap rest
  | _ :: rest => readBubblewrap rest
  | [] => []

/-- A path and, after the last colon, what may be done with it. -/
def readMount (value : String) : Option Bind :=
  match rsplitOnce? ':' value.toList with
  | some (path, ['r', 'o']) => some ⟨.ro, pathOf (String.ofList path)⟩
  | some (path, ['r', 'w']) => some ⟨.rw, pathOf (String.ofList path)⟩
  | _ => none

/-- The binds among the arguments of dyn-sandbox. -/
def readDynsandbox : List String → List Bind
  | "--mount" :: value :: rest => (readMount value).toList ++ readDynsandbox rest
  | "-c" :: _ :: rest => readDynsandbox rest
  | _ :: rest => readDynsandbox rest
  | [] => []

def Bind.covers (bind : Bind) : Bool := bind.dest.isSuffixOf (path.map OsName.bytes)

/-- What the last bind that covers a path allows. -/
def access (binds : List Bind) (path : OsPath) : Option Access :=
  ((binds.filter (Bind.covers path)).getLast?).map Bind.access

/-! ### Texts of paths -/

/-- A path whose names are UTF-8. -/
def Utf8 : Prop := ∀ name ∈ path, ValidUtf8 name.bytes
  deriving Decidable

theorem validUtf8_intercalate {ps : List (List UInt8)} (h : ∀ p ∈ ps, ValidUtf8 p) :
    ValidUtf8 ([0x2F].intercalate ps) := by
  have hs : ValidUtf8 [0x2F] := ⟨['/'], by decide⟩
  induction ps with
  | nil => exact ⟨[], rfl⟩
  | cons p ps ih =>
    have hp := h p mem_cons_self
    have hr := ih fun p hp => h p (mem_cons_of_mem _ hp)
    cases ps with
    | nil => simpa [intercalate] using hp
    | cons =>
      rw [intercalate_cons_cons]
      exact (hp.append hs).append hr

variable {path : OsPath} {config : PathIsolationConfig OsName}

theorem validUtf8_pathBytes (h : Utf8 path) : ValidUtf8 (pathBytes path) := by
  have hs : ValidUtf8 [0x2F] := ⟨['/'], by decide⟩
  refine hs.append (validUtf8_intercalate fun p hp => ?_)
  obtain ⟨n, hn, rfl⟩ := mem_map.mp hp
  exact h n (mem_reverse.mp hn)

theorem splitOn_pathBytes (path : OsPath) :
    ((pathBytes path).splitOn 0x2F).filter (fun bs => bs ≠ [] ∧ bs ≠ [0x2E]) =
      path.reverse.map OsName.bytes := by
  cases hn : path.reverse.map OsName.bytes with
  | nil =>
    rw [pathBytes, hn]
    decide
  | cons n r =>
    have hv : ∀ part ∈ n :: r, IsName part := by
      intro part hp
      rw [← hn] at hp
      obtain ⟨n, -, rfl⟩ := mem_map.mp hp
      exact n.valid
    have hb : pathBytes path = [0x2F].intercalate ([] :: n :: r) := by
      rw [pathBytes, hn, intercalate_cons_cons]
      rfl
    rw [hb, splitOn_intercalate]
    · rw [filter_cons_of_neg (by simp), filter_eq_self]
      intro part hp
      simpa using ⟨(hv part hp).1, (hv part hp).2.2.1⟩
    · intro part hp
      rcases mem_cons.mp hp with rfl | hp
      · simp
      · exact (hv part hp).2.1
    · simp

/-- **A path is read back** from its argument, if it is UTF-8. -/
theorem pathOf_toStringLossy (h : Utf8 path) :
    pathOf (toStringLossy path) = path.map OsName.bytes := by
  have hb : utf8Encode (fromUtf8Lossy (pathBytes path)) = pathBytes path :=
    validUtf8_iff.mp (validUtf8_pathBytes h)
  rw [pathOf, toStringLossy, String.toList_ofList, hb, splitOn_pathBytes, ← map_reverse,
    reverse_reverse]

theorem readMount_eq (path : String) :
    readMount (path ++ ":ro") = some ⟨.ro, pathOf path⟩ ∧
      readMount (path ++ ":rw") = some ⟨.rw, pathOf path⟩ := by
  constructor <;> simp [readMount, rsplitOnce?, splitOnce?]

theorem suffix_map_bytes {r : OsPath} : r.map OsName.bytes <:+ path.map OsName.bytes ↔ r <:+ path := by
  constructor
  · rintro ⟨f, hf⟩
    obtain ⟨s, rs, rfl, -, hr⟩ := map_eq_append_iff.mp hf.symm
    have hi : Function.Injective OsName.bytes := fun a b hab => by
      cases a
      cases b
      cases hab
      rfl
    rw [map_injective_iff.mpr hi hr]
    exact suffix_append s r
  · exact fun h => h.map OsName.bytes

/-! ### Reading arguments -/

/-- Arguments that are read as binds, whatever comes after them. -/
def Reads (read : List String → List Bind) (args : List String) (binds : List Bind) : Prop :=
  ∀ rest, read (args ++ rest) = binds ++ read rest

variable {r : List String → List Bind} {args m : List String} {xs ys : List Bind}

theorem Reads.nil : Reads r [] [] := fun _ => rfl

theorem Reads.append (h : Reads r args xs) (hm : Reads r m ys) : Reads r (args ++ m) (xs ++ ys) := by
  intro rs
  rw [append_assoc, h, hm, append_assoc]

theorem Reads.flatMap {α : Type} {args : α → List String} {bind : α → Bind}
    (h : ∀ a, Reads r (args a) [bind a]) (as : List α) : Reads r (as.flatMap args) (as.map bind) := by
  induction as with
  | nil => exact .nil
  | cons a as ih => exact (h a).append ih

theorem Reads.eq (h : Reads r args xs) (he : r [] = []) : r args = xs := by
  have ha := h []
  rwa [append_nil, he, append_nil] at ha

def rootBind (access : Access) (root : OsPath) : Bind := ⟨access, pathOf (toStringLossy root)⟩

theorem reads_mountArgs (rt : OsPath) :
    Reads readDynsandbox (mountArgs ":ro" rt) [rootBind .ro rt] ∧
      Reads readDynsandbox (mountArgs ":rw" rt) [rootBind .rw rt] := by
  obtain ⟨hro, hrw⟩ := readMount_eq (toStringLossy rt)
  refine ⟨fun rs => ?_, fun rs => ?_⟩
  · change (readMount (toStringLossy rt ++ ":ro")).toList ++ _ = _
    rw [hro]
    rfl
  · change (readMount (toStringLossy rt ++ ":rw")).toList ++ _ = _
    rw [hrw]
    rfl

/-! ### Reading what the builder appends -/

namespace BubblewrapArgsBuilder

variable (ls : ℕ) (fs : FileTree OsName) {a b c : BubblewrapArgsBuilder}

/-- The arguments that were appended are read as binds. -/
def Appends (a b : BubblewrapArgsBuilder) (binds : List Bind) : Prop :=
  ∃ args, b.args = a.args ++ args ∧ Reads readBubblewrap args binds

theorem Appends.refl (a : BubblewrapArgsBuilder) : Appends a a [] := ⟨[], (append_nil _).symm, .nil⟩

theorem Appends.trans (hab : Appends a b xs) (hbc : Appends b c ys) : Appends a c (xs ++ ys) := by
  obtain ⟨args, ha, hr⟩ := hab
  obtain ⟨m, hm, ho⟩ := hbc
  exact ⟨args ++ m, by rw [hm, ha, append_assoc], hr.append ho⟩

theorem Appends.foldl {α : Type} {s : BubblewrapArgsBuilder → α → BubblewrapArgsBuilder}
    {bs : α → List Bind} (h : ∀ bl a, Appends bl (s bl a) (bs a)) (as : List α)
    (bl : BubblewrapArgsBuilder) :
    Appends bl (as.foldl s bl) (as.flatMap bs) := by
  induction as generalizing bl with
  | nil => exact .refl bl
  | cons a as ih => exact (h bl a).trans (ih (s bl a))

variable (bl : BubblewrapArgsBuilder)

theorem appends_ensureOne (cr : OsPath) : Appends bl (bl.ensureOne cr) [] := by
  unfold ensureOne
  split
  · exact .refl bl
  · split
    · exact .refl bl
    · exact ⟨["--dir", toStringLossy cr], by simp [arg], fun _ => rfl⟩

theorem appends_ensureDirectory (d : OsPath) : Appends bl (bl.ensureDirectory d) [] := by
  have hf := Appends.foldl appends_ensureOne d.tails.reverse bl
  have hn : d.tails.reverse.flatMap (fun _ => ([] : List Bind)) = [] := by simp
  rwa [hn] at hf

theorem appends_ensureBindDestination (s d : OsPath) :
    Appends bl (bl.ensureBindDestination ls fs s d) [] :=
  appends_ensureDirectory bl _

theorem appends_bind {o : String} {acc : Access}
    (ho : ∀ rt, Reads readBubblewrap [o, toStringLossy rt, toStringLossy rt] [rootBind acc rt])
    (bu : BubblewrapArgsBuilder) (rt : OsPath) : Appends bu (bind ls fs o bu rt) [rootBind acc rt] :=
  (appends_ensureBindDestination ls fs bu rt rt).trans
    ⟨[o, toStringLossy rt, toStringLossy rt], by simp [arg, bind], ho rt⟩

theorem appends_roBind (rt : OsPath) : Appends bl (roBind ls fs bl rt) [rootBind .ro rt] :=
  appends_bind ls fs (fun _ _ => rfl) bl rt

theorem appends_rwBind (rt : OsPath) : Appends bl (rwBind ls fs bl rt) [rootBind .rw rt] :=
  appends_bind ls fs (fun _ _ => rfl) bl rt

theorem appends_special {o : String} (ho : ∀ v, Reads readBubblewrap [o, v] [])
    (bu : BubblewrapArgsBuilder) (rt : OsPath) : Appends bu (special ls fs o bu rt) [] := by
  unfold special
  split
  · exact ⟨[o, toStringLossy rt], by simp [arg], ho _⟩
  · exact .refl bu

def runtimePaths : List OsPath :=
  runtimeRoots.filter (pathExists ls fs) ++ runtimeFiles.filter (pathExists ls fs)

/-- The runtime is bound for reading only. -/
theorem appends_bindRuntimeRoots :
    Appends bl (bl.bindRuntimeRoots ls fs) ((runtimePaths ls fs).map (rootBind .ro)) := by
  have hr := Appends.foldl (appends_roBind ls fs) (runtimeRoots.filter (pathExists ls fs)) bl
  have hp := (hr.trans (appends_special ls fs (o := "--proc") (fun _ _ => rfl) _
    [osName "proc"])).trans (appends_special ls fs (o := "--dev") (fun _ _ => rfl) _ [osName "dev"])
  have hf := hp.trans
    (Appends.foldl (appends_roBind ls fs) (runtimeFiles.filter (pathExists ls fs)) _)
  simpa [runtimePaths, bindRuntimeRoots, map_eq_flatMap] using hf

end BubblewrapArgsBuilder

def Roots.binds (roots : Roots) : List Bind :=
  roots.readOnly.map (rootBind .ro) ++ roots.writable.map (rootBind .rw)

open BubblewrapArgsBuilder in
theorem readBubblewrap_toArgs (ls : ℕ) (fs : FileTree OsName) (p : LinuxBubblewrapProfile)
    (c : OsPath) : readBubblewrap (p.toArgs ls fs c) =
      (runtimePaths ls fs).map (rootBind .ro) ++ p.roots.binds := by
  let flags := ["--die-with-parent", "--unshare-user", "--unshare-ipc", "--unshare-pid",
    "--unshare-uts", "--unshare-cgroup-try"]
  have hf : Appends {} (flags.foldl arg {}) [] := ⟨flags, rfl, fun _ => rfl⟩
  have hn : ∀ b : BubblewrapArgsBuilder,
      Appends b (if p.allowNetwork then b else b.arg "--unshare-net") [] := by
    intro b
    split
    · exact .refl b
    · exact ⟨["--unshare-net"], rfl, fun _ => rfl⟩
  have hc : ∀ b : BubblewrapArgsBuilder,
      Appends b ((b.arg "--chdir").arg (toStringLossy c)) [] :=
    fun b => ⟨["--chdir", toStringLossy c], by simp [arg], fun _ => rfl⟩
  have hr := (hf.trans (hn _)).trans (appends_bindRuntimeRoots ls fs _)
  have hrt := (hr.trans (Appends.foldl (appends_roBind ls fs) p.roots.readOnly _)).trans
    (Appends.foldl (appends_rwBind ls fs) p.roots.writable _)
  obtain ⟨args, ha, hrd⟩ := (hrt.trans (appends_ensureDirectory _ c)).trans (hc _)
  unfold LinuxBubblewrapProfile.toArgs
  rw [ha, nil_append, hrd.eq rfl]
  simp [Roots.binds, map_eq_flatMap]

theorem readDynsandbox_args (rs : Roots) (c : OsPath) :
    readDynsandbox (rs.readOnly.flatMap (mountArgs ":ro") ++ rs.writable.flatMap (mountArgs ":rw") ++
      ["-c", toStringLossy c]) = rs.binds := by
  have hro := Reads.flatMap (fun rt => (reads_mountArgs rt).1) rs.readOnly
  have hrw := Reads.flatMap (fun rt => (reads_mountArgs rt).2) rs.writable
  have hc : Reads readDynsandbox ["-c", toStringLossy c] [] := fun _ => rfl
  rw [((hro.append hrw).append hc).eq rfl, append_nil]
  rfl

/-! ### The last bind -/

variable {path : OsPath} {root : OsPath}

/-- What a path may be used for, if binds for writing come last. -/
theorem access_append (path : OsPath) {f l : List Bind} (hf : ∀ bind ∈ f, bind.access = .ro)
    (hl : ∀ bind ∈ l, bind.access = .rw) :
    (access (f ++ l) path = some .rw ↔ ∃ bind ∈ l, bind.covers path) ∧
      ((access (f ++ l) path).isSome ↔ ∃ bind ∈ f ++ l, bind.covers path) := by
  constructor
  · unfold access
    rw [filter_append, getLast?_append]
    rcases hg : (l.filter (Bind.covers path)).getLast? with _ | bind
    · have hn : l.filter (Bind.covers path) = [] := getLast?_eq_none_iff.mp hg
      constructor
      · intro hrw
        rw [Option.none_or, Option.map_eq_some_iff] at hrw
        obtain ⟨bind, hb, hrw⟩ := hrw
        have hro := hf bind (mem_of_mem_filter (mem_of_getLast? hb))
        rw [hro] at hrw
        contradiction
      · rintro ⟨bind, hb, hc⟩
        exact absurd hc (filter_eq_nil_iff.mp hn bind hb)
    · obtain ⟨hm, hc⟩ := mem_filter.mp (mem_of_getLast? hg)
      constructor
      · exact fun _ => ⟨bind, hm, hc⟩
      · intro _
        rw [Option.some_or, Option.map_some, hl bind hm]
  · unfold access
    rw [Option.isSome_map, getLast?_isSome, ne_eq, filter_eq_nil_iff]
    push Not
    rfl

/-! ### Grants -/

theorem mem_pushUniquePath {ps : List OsPath} {n : OsPath} :
    root ∈ pushUniquePath ps n ↔ root ∈ ps ∨ n = root := by
  unfold pushUniquePath
  split
  · constructor
    · exact .inl
    · rintro (h | rfl)
      · exact h
      · assumption
  · simp [eq_comm]

theorem mem_mergeGrants (grants : List (SandboxPermissionGrant OsName)) (rs : Roots) (root : OsPath) :
    (root ∈ (mergeGrantsIntoRoots rs grants).readable ↔
        root ∈ rs.readable ∨ ∃ g ∈ grants, g.allows .read ∧ g.path = root) ∧
      (root ∈ (mergeGrantsIntoRoots rs grants).writable ↔
        root ∈ rs.writable ∨ ∃ g ∈ grants, g.allows .write ∧ g.path = root) := by
  induction grants generalizing rs with
  | nil => simp [mergeGrantsIntoRoots]
  | cons g grants ih =>
    obtain ⟨hr, hw⟩ := ih (rs.mergeGrant g)
    have hs : mergeGrantsIntoRoots rs (g :: grants) =
        mergeGrantsIntoRoots (rs.mergeGrant g) grants := rfl
    rw [hs, hr, hw]
    rcases g with ⟨id, c, path⟩
    cases c <;> simp [Roots.mergeGrant, SandboxPermissionGrant.allows, mem_pushUniquePath, or_assoc]

/-! ### Checks without symbolic links -/

def NoLinks : Prop := ∀ loc target, fs.node loc ≠ some (.symlink target)

variable {links : ℕ} {fs : FileTree OsName}

/-- Without symbolic links a path is resolved to itself. -/
theorem resolve_names (hl : NoLinks fs) {cur l : OsPath} {left : ℕ}
    (h : fs.resolve true links cur (path.map .name) = .ok (l, left)) : l = path.reverse ++ cur := by
  induction path generalizing cur with
  | nil =>
    rw [map_nil, resolve_nil] at h
    cases h
    rfl
  | cons name path ih =>
    rw [map_cons] at h
    rw [reverse_cons, append_assoc, singleton_append]
    rcases hn : fs.node (name :: cur) with _ | _ | content | target
    · rw [resolve_none hn] at h
      cases path with
      | nil =>
        cases h
        rfl
      | cons => contradiction
    · rw [resolve_dir hn] at h
      exact ih h
    · rw [resolve_file hn] at h
      cases path with
      | nil =>
        cases h
        rfl
      | cons => contradiction
    · exact absurd hn (hl _ _)

theorem canonicalize_eq (hl : NoLinks fs) {l : OsPath} (h : canonicalize links fs path = some l) :
    l = path := by
  obtain ⟨k, hr, -⟩ := canonicalize_eq_some.mp h
  simpa using resolve_names hl hr

theorem normalizeForRead_eq (hl : NoLinks fs) (path : OsPath) : normalizeForRead links fs path = path := by
  unfold normalizeForRead
  rcases h : canonicalize links fs path with _ | loc
  · rfl
  · exact canonicalize_eq hl h

theorem normalizeForWrite_eq (hl : NoLinks fs) (path : OsPath) : normalizeForWrite links fs path = path := by
  unfold normalizeForWrite
  split
  · rename_i h
    exact canonicalize_eq hl h
  · split
    · rfl
    · split
      · rename_i h
        rw [canonicalize_eq hl h]
      · rfl

/-! ### Texts of roots -/

theorem ValidUtf8.of_cons_slash {bytes : List UInt8} (h : ValidUtf8 (0x2F :: bytes)) :
    ValidUtf8 bytes := by
  obtain ⟨t, ht⟩ := h
  cases t with
  | nil => cases ht
  | cons c t => exact ⟨t, (eq_of_utf8EncodeChar_append (d := '/') ht).2⟩

theorem validUtf8_of_intercalate {ps : List (List UInt8)} (h : ValidUtf8 ([0x2F].intercalate ps)) :
    ∀ p ∈ ps, ValidUtf8 p := by
  induction ps with
  | nil => exact nofun
  | cons p ps ih =>
    cases ps with
    | nil => simpa using h
    | cons q ps =>
      rw [intercalate_cons_cons, append_assoc] at h
      obtain ⟨hp, hs⟩ := h.split (by simp [isTail])
      exact forall_mem_cons.mpr ⟨hp, ih (ValidUtf8.of_cons_slash hs)⟩

/-- The names that a text has are UTF-8. -/
theorem validUtf8_of_mem_pathOf {arg : String} {bytes : List UInt8} (h : bytes ∈ pathOf arg) :
    ValidUtf8 bytes := by
  have hv : ValidUtf8 ([0x2F].intercalate ((utf8Encode arg.toList).splitOn 0x2F)) := by
    rw [intercalate_splitOn]
    exact ⟨_, rfl⟩
  exact validUtf8_of_intercalate hv bytes (mem_of_mem_filter (mem_reverse.mp h))

/-- The text of a path below one that is UTF-8 names a path below it, too. -/
theorem suffix_pathOf (hr : Utf8 root) (hs : root <:+ path) :
    root.map OsName.bytes <:+ pathOf (toStringLossy path) := by
  obtain ⟨below, rfl⟩ := hs
  by_cases hroot : root = []
  · subst hroot
    exact nil_suffix
  by_cases hbelow : below = []
  · subst hbelow
    exact ⟨[], (pathOf_toStringLossy hr).symm⟩
  · -- The text of the root comes first, whatever the names below it are.
    obtain ⟨t, ht⟩ := validUtf8_pathBytes hr
    have hb : pathBytes (below ++ root) =
        utf8Encode (t ++ ['/']) ++ [0x2F].intercalate (below.reverse.map OsName.bytes) := by
      rw [utf8Encode_append, ht, pathBytes, pathBytes, reverse_append, map_append,
        intercalate_append _ (by simpa using hroot) (by simpa using hbelow)]
      rfl
    rw [pathOf, toStringLossy, String.toList_ofList, hb, fromUtf8Lossy,
      decodeFrom_utf8Encode_append, append_assoc, utf8Encode_append, ht, singleton_append,
      utf8Encode_cons]
    change _ <:+ (((pathBytes root ++ 0x2F :: _).splitOn 0x2F).filter _).reverse
    rw [splitOn_append_cons_self, filter_append, splitOn_pathBytes, reverse_append,
      ← map_reverse, reverse_reverse]
    exact suffix_append ..

/-! ### Both encodings -/

/-- The checks of a policy agree with what a command may do under binds. -/
def Agree (policy : LocalBackendPolicy OsName) (links : ℕ) (fs : FileTree OsName)
    (binds : List Bind) : Prop :=
  ∀ path operation,
    (policy.checkWrite links fs path toStringLossy operation = .ok () ↔
        access binds path = some .rw) ∧
      (policy.checkRead links fs path toStringLossy operation = .ok () → (access binds path).isSome)

/-- The roots of the configuration and the paths of the grants. -/
def allRoots (config : PathIsolationConfig OsName) (grants : List (SandboxPermissionGrant OsName)) :
    Roots where
  readable := config.readableRoots ++ (grants.filter (·.allows .read)).map (·.path)
  writable := config.writableRoots ++ (grants.filter (·.allows .write)).map (·.path)

/-- **The condition**, with the paths of the runtime that are bound: each writable root lies in one
that is UTF-8, and each readable root in what the text of a root names. -/
structure RootsBound (runtime : List OsPath) (roots : Roots) : Prop where
  writable : ∀ root ∈ roots.writable, ∃ outer ∈ roots.writable, Utf8 outer ∧ outer <:+ root
  readable : ∀ root ∈ roots.readable, ∃ outer ∈ runtime ++ roots.readable ++ roots.writable,
    pathOf (toStringLossy outer) <:+ root.map OsName.bytes

theorem mem_allRoots (config : PathIsolationConfig OsName)
    (gs : List (SandboxPermissionGrant OsName)) (root : OsPath) :
    (root ∈ (mergeGrantsIntoRoots (configRoots config) gs).readable ↔
        root ∈ (allRoots config gs).readable) ∧
      (root ∈ (mergeGrantsIntoRoots (configRoots config) gs).writable ↔
        root ∈ (allRoots config gs).writable) := by
  obtain ⟨hr, hw⟩ := mem_mergeGrants gs (configRoots config) root
  rw [hr, hw]
  simp [configRoots, allRoots, and_assoc]

/-- What a check allows lies within a root. -/
theorem allows_iff_allRoots {p : LocalBackendPolicy OsName} {n : String}
    (ha : p.activePathIsolation = some (n, config)) (path : OsPath) :
    (p.allows path PathIsolationConfig.writableRoots .write ↔
        ∃ root ∈ (allRoots config p.grants).writable, root <:+ path) ∧
      (p.allows path PathIsolationConfig.readableRoots .read ↔
        ∃ root ∈ (allRoots config p.grants).readable, root <:+ path) := by
  rw [LocalBackendPolicy.allows_iff ha, LocalBackendPolicy.allows_iff ha]
  simp only [allRoots, mem_append, mem_map, mem_filter]
  grind

theorem access_binds (runtime : List OsPath) (rs : Roots) (path : OsPath) :
    (access (runtime.map (rootBind .ro) ++ rs.binds) path = some .rw ↔
        ∃ root ∈ rs.writable, pathOf (toStringLossy root) <:+ path.map OsName.bytes) ∧
      ((access (runtime.map (rootBind .ro) ++ rs.binds) path).isSome ↔
        ∃ root ∈ runtime ++ rs.readable ++ rs.writable,
          pathOf (toStringLossy root) <:+ path.map OsName.bytes) := by
  have hc : ∀ a root, (rootBind a root).covers path ↔
      pathOf (toStringLossy root) <:+ path.map OsName.bytes := fun a root => by
    rw [Bind.covers, rootBind, isSuffixOf_iff_suffix]
  obtain ⟨hw, hs⟩ := access_append path
    (f := runtime.map (rootBind .ro) ++ rs.readOnly.map (rootBind .ro))
    (l := rs.writable.map (rootBind .rw)) (by simp [rootBind, or_imp, forall_and])
    (by simp [rootBind])
  rw [Roots.binds, ← append_assoc, hw, hs]
  constructor
  · simp [hc]
  · simp only [Roots.readOnly, mem_append, mem_map, mem_filter]
    constructor
    · rintro ⟨_, (⟨root, hr, rfl⟩ | ⟨root, ⟨hr, -⟩, rfl⟩) | ⟨root, hr, rfl⟩, hb⟩
      · exact ⟨root, .inl (.inl hr), (hc _ _).mp hb⟩
      · exact ⟨root, .inl (.inr hr), (hc _ _).mp hb⟩
      · exact ⟨root, .inr hr, (hc _ _).mp hb⟩
    · rintro ⟨root, hr, hb⟩
      by_cases hw : root ∈ rs.writable
      · exact ⟨rootBind .rw root, .inr ⟨root, hw, rfl⟩, (hc .rw root).mpr hb⟩
      · refine ⟨rootBind .ro root, .inl ?_, (hc .ro root).mpr hb⟩
        rcases hr with (hr | hr) | hr
        · exact .inl ⟨root, hr, rfl⟩
        · exact .inr ⟨root, ⟨hr, by simpa using hw⟩, rfl⟩
        · exact absurd hr hw

theorem agree_iff {p : LocalBackendPolicy OsName} {n : String} (runtime : List OsPath)
    (ha : p.activePathIsolation = some (n, config)) (hl : NoLinks fs) :
    Agree p links fs
        (runtime.map (rootBind .ro) ++ (mergeGrantsIntoRoots (configRoots config) p.grants).binds) ↔
      RootsBound runtime (allRoots config p.grants) := by
  have hm := mem_allRoots config p.grants
  have hall := allows_iff_allRoots ha
  have hacc := access_binds runtime (mergeGrantsIntoRoots (configRoots config) p.grants)
  simp only [mem_append, hm] at hacc
  simp only [← mem_append] at hacc
  unfold Agree LocalBackendPolicy.checkWrite LocalBackendPolicy.checkRead
  simp only [normalizeForWrite_eq hl, normalizeForRead_eq hl, LocalBackendPolicy.checkWithin_ok,
    hall, hacc]
  constructor
  · intro h
    refine ⟨fun root hr => ?_, fun root hr => (h root "").2 ⟨root, hr, suffix_rfl⟩⟩
    -- The path that is bound around the root, and the root around that.
    obtain ⟨other, ho, hs⟩ := (h root "").1.mp ⟨root, hr, suffix_rfl⟩
    obtain ⟨bound, hb, hbo⟩ : ∃ bound, bound <:+ root ∧
        bound.map OsName.bytes = pathOf (toStringLossy other) := by
      obtain ⟨pre, hp⟩ := hs
      obtain ⟨l₁, l₂, rfl, -, h₂⟩ := map_eq_append_iff.mp hp.symm
      exact ⟨l₂, suffix_append .., h₂⟩
    obtain ⟨outer, hou, hob⟩ := (h bound "").1.mpr ⟨other, ho, hbo ▸ suffix_rfl⟩
    refine ⟨outer, hou, fun name hn => ?_, hob.trans hb⟩
    exact validUtf8_of_mem_pathOf (hbo ▸ mem_map_of_mem (hob.subset hn))
  · intro h path _
    refine ⟨⟨?_, ?_⟩, ?_⟩
    · rintro ⟨root, hr, hs⟩
      obtain ⟨outer, ho, hu, hor⟩ := h.writable root hr
      refine ⟨outer, ho, ?_⟩
      rw [pathOf_toStringLossy hu, suffix_map_bytes]
      exact hor.trans hs
    · rintro ⟨root, hr, hs⟩
      obtain ⟨outer, ho, hu, hor⟩ := h.writable root hr
      exact ⟨outer, ho, suffix_map_bytes.mp ((suffix_pathOf hu hor).trans hs)⟩
    · rintro ⟨root, hr, hs⟩
      obtain ⟨outer, ho, hor⟩ := h.readable root hr
      exact ⟨outer, ho, hor.trans (hs.map OsName.bytes)⟩

/-- **When the sandboxed command and the file checks agree**: exactly if each writable root lies in
one that is UTF-8, and each readable root in what is bound. -/
theorem checks_agree_with_mounts_iff (config : PathIsolationConfig OsName)
    (grants : List (SandboxPermissionGrant OsName)) (links : ℕ) (fs : FileTree OsName)
    (cwd : OsPath) (hgrants : ∀ grant ∈ grants, grant.capability ≠ .execRuntime)
    (hlinks : NoLinks fs) :
    (∃ args, bubblewrapArgs ⟨.linuxBubblewrap config, grants⟩ links fs cwd = some args ∧
        (Agree ⟨.linuxBubblewrap config, grants⟩ links fs (readBubblewrap args) ↔
          RootsBound (BubblewrapArgsBuilder.runtimePaths links fs) (allRoots config grants))) ∧
      ∃ args, linuxDynsandboxArgs ⟨.linuxDynsandbox config, grants⟩ cwd = some args ∧
        (Agree ⟨.linuxDynsandbox config, grants⟩ links fs (readDynsandbox args) ↔
          RootsBound [] (allRoots config grants)) := by
  have hr : ¬(grants.any fun grant => decide (grant.capability = .execRuntime)) = true := by
    simpa using hgrants
  constructor
  · refine ⟨_, if_neg hr, ?_⟩
    rw [readBubblewrap_toArgs]
    exact agree_iff _ rfl hlinks
  · refine ⟨_, if_neg hr, ?_⟩
    rw [readDynsandbox_args]
    exact agree_iff [] rfl hlinks

theorem noLinks_root : NoLinks FileTree.root := by
  intro l t
  unfold FileTree.root
  simp only
  split <;> simp

/-- A name that is not UTF-8, and the one that is written in its place. -/
def oddName : OsName := ⟨[0xFF], by decide⟩

def replacedName : OsName := ⟨[0xEF, 0xBF, 0xBD], by decide⟩

/-- With nested roots, one of them not UTF-8, and a grant that is a root already. -/
def workspaceConfig : PathIsolationConfig OsName where
  allowNetwork := false
  readableRoots := [[osName "docs", osName "work"], [osName "work"]]
  writableRoots := [[oddName, osName "work"], [osName "work"], [osName "tmp"]]

def workspaceGrants : List (SandboxPermissionGrant OsName) :=
  [⟨1, .write, [osName "tmp"]⟩, ⟨2, .execCwd, [osName "opt"]⟩]

theorem checks_agree_with_mounts_workspace :
    ∃ args, linuxDynsandboxArgs ⟨.linuxDynsandbox workspaceConfig, workspaceGrants⟩ [] = some args ∧
      Agree ⟨.linuxDynsandbox workspaceConfig, workspaceGrants⟩ 40 FileTree.root
        (readDynsandbox args) := by
  obtain ⟨-, args, ha, h⟩ := checks_agree_with_mounts_iff workspaceConfig workspaceGrants 40
    FileTree.root [] (by decide) noLinks_root
  exact ⟨args, ha, h.mpr ⟨by decide +kernel, by decide +kernel⟩⟩

def oddConfig : PathIsolationConfig OsName := ⟨true, [[oddName]], [[oddName]]⟩

def oddPolicy : LocalBackendPolicy OsName := ⟨.linuxBubblewrap oddConfig, []⟩

/-- **Another root is bound**: a file below the root may be written to by the checks, and is not
bound; one below the root that is bound may not be written to by the checks. So it is for both
tools. -/
theorem other_root_is_bound :
    oddPolicy.checkWrite 40 FileTree.root [osName "x", oddName] toStringLossy "file_write" = .ok () ∧
      oddPolicy.checkWrite 40 FileTree.root [osName "x", replacedName] toStringLossy "file_write" ≠
        .ok () ∧
      (bubblewrapArgs oddPolicy 40 FileTree.root []).map (fun args =>
        (access (readBubblewrap args) [osName "x", oddName],
          access (readBubblewrap args) [osName "x", replacedName])) = some (none, some .rw) ∧
      (linuxDynsandboxArgs ⟨.linuxDynsandbox oddConfig, []⟩ []).map (fun args =>
        (access (readDynsandbox args) [osName "x", oddName],
          access (readDynsandbox args) [osName "x", replacedName])) = some (none, some .rw) := by
  refine ⟨?_, ?_, ?_, ?_⟩
  · rfl
  · intro h
    contradiction
  · decide +kernel
  · decide +kernel

end XiaoO.Operation.Mounts
