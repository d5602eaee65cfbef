import Mathlib.Data.List.Basic

/-!
# File trees with symbolic links

A file tree over arbitrary entry names: every location holds a directory, a file, a symbolic link or
nothing, and whatever exists lies in a directory. A *location* is the list of entry names from the
innermost one up to the root, so `n :: d` is the entry `n` of the directory `d` and a location lies
below another when it has it as a suffix.

A path is resolved the way a Unix kernel does it (`resolve`): component by component from a starting
directory, a symbolic link in the middle of the path is replaced by its target, one at the end is
followed if asked, and only so many links are followed in one resolution. A path whose last entry
alone is missing resolves to the location where the entry would be.

## What is proved

A resolution ends in a directory that exists (`resolve_tail_dir`). It is a resolution of the
directory part followed by a look at the last entry (`resolve_snoc`), and a resolution that ends at
something that exists stays the same when the tree grows (`resolve_mono`).
-/

namespace XiaoO.Base

open Except

inductive Component (α : Type*) where
  /-- The current directory, `.`. -/
  | cur
  /-- The parent directory, `..`. -/
  | up
  /-- An entry name. -/
  | name (n : α)
  deriving DecidableEq

structure LinkTarget (α : Type*) where
  absolute : Bool
  components : List (Component α)
  deriving DecidableEq

/-- What a location holds. -/
inductive Node (α : Type*) where
  | dir
  | file (content : List UInt8)
  | symlink (target : LinkTarget α)
  deriving DecidableEq

/-- A file tree: the root is a directory, and what exists lies in a directory. -/
structure FileTree (α : Type*) where
  node : List α → Option (Node α)
  root_dir : node [] = some .dir
  parent_dir : ∀ {n d x}, node (n :: d) = some x → node d = some .dir

/-- The errors of the system calls. -/
inductive Errno where
  | noent
  | notdir
  | loop
  | exist
  | isdir
  deriving DecidableEq

variable {α : Type*}

/-- The directory a link's target is resolved from, for a link in the directory `d`. -/
def LinkTarget.start (t : LinkTarget α) (d : List α) : List α := if t.absolute then [] else d

namespace FileTree

variable (fs : FileTree α)

/-- Resolve components from the directory `cur` with `links` link expansions left;
`jump` resolves the path after an expansion. Returns the location and the number
of expansions left. -/
def walk (follow : Bool) (links : ℕ) (jump : List α → List (Component α) → Except Errno (List α × ℕ)) :
    List α → List (Component α) → Except Errno (List α × ℕ)
  | cur, [] => .ok (cur, links)
  | cur, .cur :: rest => walk follow links jump cur rest
  | cur, .up :: rest => walk follow links jump cur.tail rest
  | cur, .name n :: rest =>
    match fs.node (n :: cur) with
    | some .dir => walk follow links jump (n :: cur) rest
    | some (.symlink t) =>
      if rest.isEmpty && !follow then .ok (n :: cur, links) else jump (t.start cur) (t.components ++ rest)
    | some (.file _) => if rest.isEmpty then .ok (n :: cur, links) else .error .notdir
    | none => if rest.isEmpty then .ok (n :: cur, links) else .error .noent

/-- Resolve components from the directory `cur`, expanding at most `links` links. -/
def resolve (follow : Bool) : (links : ℕ) → List α → List (Component α) → Except Errno (List α × ℕ)
  | 0 => fs.walk follow 0 fun _ _ => .error .loop
  | links + 1 => fs.walk follow (links + 1) (resolve follow links)

/-- The location of a resolution must hold a directory. -/
def asDir : Except Errno (List α × ℕ) → Except Errno (List α × ℕ)
  | .error e => .error e
  | .ok (loc, links) =>
    match fs.node loc with
    | some .dir => .ok (loc, links)
    | some _ => .error .notdir
    | none => .error .noent

def resolveDir (links : ℕ) (cur : List α) (path : List (Component α)) : Except Errno (List α × ℕ) :=
  fs.asDir (fs.resolve true links cur path)

/-! ### Resolution, component by component -/

variable {fs} {follow : Bool} {links : ℕ} {cur : List α} {rest : List (Component α)} {n : α}

@[simp] theorem resolve_nil : fs.resolve follow links cur [] = .ok (cur, links) := by
  cases links <;> rfl

@[simp] theorem resolve_cur : fs.resolve follow links cur (.cur :: rest) = fs.resolve follow links cur rest := by
  cases links <;> rfl

@[simp] theorem resolve_up : fs.resolve follow links cur (.up :: rest) = fs.resolve follow links cur.tail rest := by
  cases links <;> rfl

theorem resolve_dir (h : fs.node (n :: cur) = some .dir) :
    fs.resolve follow links cur (.name n :: rest) = fs.resolve follow links (n :: cur) rest := by
  cases links <;> simp [resolve, walk, h]

theorem resolve_file {c : List UInt8} (h : fs.node (n :: cur) = some (.file c)) :
    fs.resolve follow links cur (.name n :: rest) =
      if rest.isEmpty then .ok (n :: cur, links) else .error .notdir := by
  cases links <;> simp [resolve, walk, h]

theorem resolve_none (h : fs.node (n :: cur) = none) : fs.resolve follow links cur (.name n :: rest) =
      if rest.isEmpty then .ok (n :: cur, links) else .error .noent := by
  cases links <;> simp [resolve, walk, h]

def expand (fs : FileTree α) (follow : Bool) (links : ℕ) (t : LinkTarget α) (cur : List α)
    (rest : List (Component α)) : Except Errno (List α × ℕ) :=
  match links with
  | 0 => .error .loop
  | links + 1 => fs.resolve follow links (t.start cur) (t.components ++ rest)

theorem resolve_symlink {t : LinkTarget α} (h : fs.node (n :: cur) = some (.symlink t)) :
    fs.resolve follow links cur (.name n :: rest) =
      if rest.isEmpty && !follow then .ok (n :: cur, links) else fs.expand follow links t cur rest := by
  cases links <;> simp [resolve, walk, expand, h]

theorem tail_dir (h : fs.node cur = some .dir) : fs.node cur.tail = some .dir := by
  cases cur with
  | nil => exact fs.root_dir
  | cons => exact fs.parent_dir h

theorem start_dir (t : LinkTarget α) (h : fs.node cur = some .dir) : fs.node (t.start cur) = some .dir := by
  unfold LinkTarget.start
  split_ifs
  · exact fs.root_dir
  · exact h

/-! ### Where a resolution can end -/

variable {p : List (Component α)} {r : List α × ℕ}

theorem resolve_tail_dir_of_expand
    (he : ∀ t cur rest, fs.node cur = some .dir → fs.expand follow links t cur rest = .ok r →
      fs.node r.1.tail = some .dir) (hc : fs.node cur = some .dir) (h : fs.resolve follow links cur p = .ok r) :
    fs.node r.1.tail = some .dir := by
  induction p generalizing cur with
  | nil =>
    obtain rfl : (cur, links) = r := by simpa using h
    exact tail_dir hc
  | cons c p ih =>
    cases c with
    | cur =>
      rw [resolve_cur] at h
      exact ih hc h
    | up =>
      rw [resolve_up] at h
      exact ih (tail_dir hc) h
    | name m =>
      cases hn : fs.node (m :: cur) with
      | none =>
        rw [resolve_none hn] at h
        split_ifs at h
        obtain rfl := ok.inj h
        exact hc
      | some x =>
        cases x with
        | dir =>
          rw [resolve_dir hn] at h
          exact ih hn h
        | file =>
          rw [resolve_file hn] at h
          split_ifs at h
          obtain rfl := ok.inj h
          exact hc
        | symlink t =>
          rw [resolve_symlink hn] at h
          split_ifs at h
          · obtain rfl := ok.inj h
            exact hc
          · exact he t cur p hc h

/-- A resolution ends at an entry of a directory that exists, or at the root. -/
theorem resolve_tail_dir (hc : fs.node cur = some .dir)
    (h : fs.resolve follow links cur p = .ok r) : fs.node r.1.tail = some .dir := by
  induction links generalizing cur p with
  | zero => exact resolve_tail_dir_of_expand (fun _ _ _ _ h => by simp [expand] at h) hc h
  | succ links ih =>
    refine resolve_tail_dir_of_expand (fun t d rest hd ht => ?_) hc h
    exact ih (start_dir t hd) ht

/-! ### The directory part and the last entry -/

/-- Looking up the entry `n` in the directory that a resolution ends at. -/
def thenEntry (fs : FileTree α) (follow : Bool) (n : α) (r : Except Errno (List α × ℕ)) :
    Except Errno (List α × ℕ) :=
  (fs.asDir r).bind fun d => fs.resolve follow d.2 d.1 [.name n]

/-- If the paths after an expansion split, so does the path. -/
theorem resolve_snoc_of_expand (n : α) (pt : List (Component α)) (he : ∀ t cur rest, fs.node cur = some .dir →
      fs.expand follow links t cur (rest ++ [.name n]) = fs.thenEntry follow n (fs.expand true links t cur rest))
    (hc : fs.node cur = some .dir) :
    fs.resolve follow links cur (pt ++ [.name n]) = fs.thenEntry follow n (fs.resolve true links cur pt) := by
  induction pt generalizing cur with
  | nil => simp [thenEntry, asDir, hc, Except.bind]
  | cons c pt ih =>
    cases c with
    | cur => simpa using ih hc
    | up => simpa using ih (tail_dir hc)
    | name m =>
      rw [List.cons_append]
      cases hn : fs.node (m :: cur) with
      | none =>
        -- A missing directory, whether it was the last of `pt` or not.
        rw [resolve_none hn, resolve_none hn]
        cases pt <;> simp [thenEntry, asDir, hn, Except.bind]
      | some x =>
        cases x with
        | dir =>
          rw [resolve_dir hn, resolve_dir hn]
          exact ih hn
        | file =>
          rw [resolve_file hn, resolve_file hn]
          cases pt <;> simp [thenEntry, asDir, hn, Except.bind]
        | symlink t =>
          rw [resolve_symlink hn, resolve_symlink hn]
          simpa using he t cur pt hc

/-- **A resolution is a resolution of the directory part and a look at the last
entry**, with the link expansions that are left. -/
theorem resolve_snoc (n : α) (pt : List (Component α)) (hc : fs.node cur = some .dir) :
    fs.resolve follow links cur (pt ++ [.name n]) = fs.thenEntry follow n (fs.resolve true links cur pt) := by
  induction links generalizing cur pt with
  | zero => exact resolve_snoc_of_expand n pt (fun _ _ _ _ => rfl) hc
  | succ links ih =>
    refine resolve_snoc_of_expand n pt (fun t d rest hd => ?_) hc
    simp only [expand, ← List.append_assoc]
    exact ih (t.components ++ rest) (start_dir t hd)

/-! ### Growing trees -/

/-- Everything of `fs` is still there in `fs'`. -/
def Le (fs fs' : FileTree α) : Prop := ∀ loc x, fs.node loc = some x → fs'.node loc = some x

theorem resolve_mono_of_expand {fs' : FileTree α} (hle : fs.Le fs') {x : Node α}
    (he : ∀ t cur rest, fs.expand follow links t cur rest = .ok r → fs'.expand follow links t cur rest = .ok r)
    (h : fs.resolve follow links cur p = .ok r) (hr : fs.node r.1 = some x) :
    fs'.resolve follow links cur p = .ok r := by
  induction p generalizing cur with
  | nil => simpa using h
  | cons c p ih =>
    cases c with
    | cur =>
      rw [resolve_cur] at h ⊢
      exact ih h
    | up =>
      rw [resolve_up] at h ⊢
      exact ih h
    | name m =>
      cases hn : fs.node (m :: cur) with
      | none =>
        rw [resolve_none hn] at h
        split_ifs at h
        obtain rfl := ok.inj h
        exact absurd hr (by simp [hn])
      | some y =>
        have hn' := hle _ _ hn
        cases y with
        | dir =>
          rw [resolve_dir hn] at h
          rw [resolve_dir hn']
          exact ih h
        | file =>
          rw [resolve_file hn] at h
          rw [resolve_file hn']
          exact h
        | symlink t =>
          rw [resolve_symlink hn] at h
          rw [resolve_symlink hn']
          split_ifs at h ⊢ with hl
          · exact h
          · exact he t cur p h

/-- **A resolution that ends at something that exists is the same in a larger tree.** -/
theorem resolve_mono {fs' : FileTree α} (hle : fs.Le fs')
    {x : Node α} (h : fs.resolve follow links cur p = .ok r) (hr : fs.node r.1 = some x) :
    fs'.resolve follow links cur p = .ok r := by
  induction links generalizing cur p with
  | zero => exact resolve_mono_of_expand hle (fun _ _ _ h => h) h hr
  | succ links ih => exact resolve_mono_of_expand hle (fun t d rest ht => ih ht) h hr

end FileTree

end XiaoO.Base
