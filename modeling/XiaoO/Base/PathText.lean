import XiaoO.Base.FileTree

/-!
# Paths as texts

The components of an absolute Unix path, as `std::path` reads them: separators may be repeated, and
`.` is skipped. The components are not normalized: `..` stays where it is.

## What is proved

Lexical normalization keeps a path below another that it starts with, as long as what follows does
not go up (`lexicalNormal_suffix`).
-/

namespace XiaoO.Base

/-- A part of a path between separators. -/
def component? (part : String) : Option (Component String) :=
  if part = "" ∨ part = "." then none else if part = ".." then some .up else some (.name part)

variable (path : String)

def pathComponents : List (Component String) :=
  (path.toList.splitOn '/').filterMap fun part => component? (String.ofList part)

/-- `Path::is_absolute`. -/
def isAbsolutePath : Bool := path.toList.head? = some '/'

/-- `Path::parent`, of the components of an absolute path. -/
def parentPath? {α : Type*} (path : List (Component α)) : Option (List (Component α)) :=
  if path.isEmpty then none else some path.dropLast

def fileName? : Option String :=
  match (pathComponents path).getLast? with
  | some (.name name) => some name
  | _ => none

/-- `Path::extension`: what follows the last dot of the file name, unless that dot is its first
character. -/
def extension? : Option String := do
  let name ← fileName? path
  let parts := name.toList.splitOn '.'
  if parts.length = 1 ∨ parts.dropLast = [[]] then none else parts.getLast?.map String.ofList

variable {α : Type*}

/-- Go from a directory to what a component names in it; the parent of the root is the root. -/
def lexicalStep : List α → Component α → List α
  | dir, .cur => dir
  | dir, .up => dir.tail
  | dir, .name n => n :: dir

/-- The lexical normalization of an absolute path, innermost name first. -/
def lexicalNormal (path : List (Component α)) : List α := path.foldl lexicalStep []

theorem suffix_foldl_lexicalStep {rest : List (Component α)} (h : .up ∉ rest) (dir : List α) :
    dir <:+ rest.foldl lexicalStep dir := by
  induction rest generalizing dir with
  | nil => exact List.suffix_refl dir
  | cons c rest ih =>
    have hr : .up ∉ rest := fun hm => h (List.mem_cons_of_mem c hm)
    cases c with
    | cur => exact ih hr dir
    | up => exact absurd List.mem_cons_self h
    | name n => exact (List.suffix_cons n dir).trans (ih hr (n :: dir))

/-- A path without `..` stays below each path that it starts with. -/
theorem lexicalNormal_suffix {r path : List (Component α)} (hup : .up ∉ path) (h : r <+: path) :
    lexicalNormal r <:+ lexicalNormal path := by
  obtain ⟨rs, rfl⟩ := h
  rw [lexicalNormal, lexicalNormal, List.foldl_append]
  exact suffix_foldl_lexicalStep (fun hm => hup (List.mem_append_right r hm)) _

end XiaoO.Base
