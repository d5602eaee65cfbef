import XiaoO.Base.Shell
import Mathlib.Data.List.Infix

/-!
# Scripts for a remote sandbox

The E2B backend (`apps/shared/src/backend/e2b`) does some of its file operations, and its searches,
by shell scripts in which paths and other texts are written. `shell_quote` puts a text in single
quotes. In the script of `temp_path` the parent directory is written twice: once quoted so, and once
as it is between double quotes.

## The model

The scripts are the texts that the source makes, as lists of characters. They are read by the
quoting rules of POSIX shells (`Base/Shell`).

## What is proved

In the scripts, texts are read as what they are, each as a part of a word or a word of its own, and
the rest of a script is read in the same way whatever they are (`scripts_inert_iff`). For the parent
directory of `temp_path` this holds exactly if it has no character that acts in double quotes;
otherwise a part of it may be run as a command (`parent_is_run`).
-/

namespace XiaoO.Backend.Remote

open XiaoO.Base XiaoO.Base.Shell

/-! ### Scripts -/

def shellQuote (value : List Char) : List Char :=
  if value = [] then "''".toList
  else
    "'".toList ++ value.flatMap (fun c => if c = '\'' then "'\\''".toList else [c]) ++ "'".toList

/-- The script of `write_bytes`, in the mode `AtomicOverwrite`. -/
def atomicOverwriteScript (tempPath native : List Char) : List Char :=
  let destination := shellQuote native
  "parent=$(dirname ".toList ++ destination ++ ") && mkdir -p \"$parent\" && mv -f ".toList ++
    shellQuote tempPath ++ " ".toList ++ destination

def createDirAllScript (native : List Char) : List Char := "mkdir -p ".toList ++ shellQuote native

inductive TempPathKind where
  | file
  | directory
  deriving DecidableEq

def TempPathKind.creation : TempPathKind → List Char
  | .file => ": > \"$path\"".toList
  | .directory => "mkdir \"$path\"".toList

/-- The script of `temp_path` up to the parent in double quotes. -/
def tempPathHead (parent : List Char) (tempPrefix tempSuffix : Option (List Char)) : List Char :=
  "mkdir -p ".toList ++ shellQuote parent ++
    "\nprefix=".toList ++ shellQuote (tempPrefix.getD "tmp-".toList) ++
    "\nsuffix=".toList ++ shellQuote (tempSuffix.getD []) ++
    "\nwhile true; do\n  path=\"".toList

/-- The script after it. -/
def tempPathTail (kind : TempPathKind) : List Char :=
  "$prefix$(date +%s%N)-$RANDOM$suffix\"\n  if [ ! -e \"$path\" ]; then\n    ".toList ++
    kind.creation ++ "\n    printf '%s' \"$path\"\n    exit 0\n  fi\ndone".toList

def tempPathScript (kind : TempPathKind) (parent : List Char)
    (tempPrefix tempSuffix : Option (List Char)) : List Char :=
  tempPathHead parent tempPrefix tempSuffix ++ (parent ++ ['/'] ++ tempPathTail kind)

def globScript (base : List Char) : List Char :=
  "if [ -d ".toList ++ shellQuote base ++ " ]; then find ".toList ++ shellQuote base ++
    " -mindepth 1 -print; fi".toList

inductive GrepMode where
  | filesWithMatches
  | content
  | count
  deriving DecidableEq

def GrepMode.flags : GrepMode → List (List Char)
  | .filesWithMatches => ["-l".toList]
  | .content => []
  | .count => ["-c".toList]

/-- The script of `grep`: the parts of the command, joined by blanks. -/
def grepScript (mode : GrepMode) (pattern : Option (List Char)) (query base : List Char) :
    List Char :=
  [' '].intercalate (["grep -r -H".toList] ++ mode.flags ++
    (pattern.map fun text => "--include=".toList ++ shellQuote text).toList ++
    ["--".toList, shellQuote query, shellQuote base])

/-! ### How they are read -/

theorem shellQuote_eq (value : List Char) : shellQuote value = singleQuoted value := by
  unfold shellQuote
  split
  · rename_i he
    rw [he]
    rfl
  · rfl

/-- A text that is a word of its own. -/
def quotedWord (s : List Char) : List Piece := .begin :: literal s

theorem reads_shellQuote (v : List Char) (c : Closer) (r : State) :
    Reads (.plain c false :: r) (shellQuote v) (quotedWord v) (.plain c true :: r) := by
  rw [shellQuote_eq]
  exact reads_singleQuoted v c false r

theorem reads_shellQuote_inWord (v : List Char) (c : Closer) (r : State) :
    Reads (.plain c true :: r) (shellQuote v) (literal v) (.plain c true :: r) := by
  rw [shellQuote_eq]
  exact reads_singleQuoted v c true r

/-! #### Files -/

def atomicOverwritePieces (tempPath native : List Char) : List Piece :=
  word "parent=" ++ [.substOpen false] ++ word "dirname" ++ quotedWord native ++
    ([.substClose, .op '&', .op '&'] ++ word "mkdir" ++ word "-p" ++
      [.begin, .param true "parent".toList, .op '&', .op '&'] ++ word "mv" ++ word "-f") ++
    quotedWord tempPath ++ quotedWord native

theorem read_atomicOverwriteScript (t n : List Char) :
    read (atomicOverwriteScript t n) = some (atomicOverwritePieces t n) := by
  have hh : Reads start "parent=$(dirname ".toList
      (word "parent=" ++ [.substOpen false] ++ word "dirname")
      [.plain .subst false, .plain .eof true] := by decide
  have hm : Reads [.plain .subst true, .plain .eof true]
      ") && mkdir -p \"$parent\" && mv -f ".toList
      ([.substClose, .op '&', .op '&'] ++ word "mkdir" ++ word "-p" ++
        [.begin, .param true "parent".toList, .op '&', .op '&'] ++ word "mv" ++ word "-f")
      [.plain .eof false] := by decide +kernel
  have hb : Reads [.plain .eof true] " ".toList [] [.plain .eof false] := by decide
  exact (((((hh.append (reads_shellQuote n .subst _)).append hm).append
    (reads_shellQuote t .eof [])).skip hb).append (reads_shellQuote n .eof [])).read

def createDirAllPieces (native : List Char) : List Piece :=
  word "mkdir" ++ word "-p" ++ quotedWord native

theorem reads_createDirAllScript (n : List Char) :
    ReadsWords (createDirAllScript n) (createDirAllPieces n) := by
  have hh : Reads start "mkdir -p ".toList (word "mkdir" ++ word "-p") [.plain .eof false] := by
    decide
  exact hh.append (reads_shellQuote n .eof [])

def TempPathKind.pieces : TempPathKind → List Piece
  | .file => word ":" ++ [.op '>', .begin, .param true "path".toList]
  | .directory => word "mkdir" ++ [.begin, .param true "path".toList]

theorem TempPathKind.reads_creation (k : TempPathKind) : ReadsWords k.creation k.pieces := by
  cases k <;> decide

def tempPathHeadPieces (parent : List Char) (tempPrefix tempSuffix : Option (List Char)) :
    List Piece :=
  createDirAllPieces parent ++ ([.op '\n'] ++ word "prefix=") ++
    literal (tempPrefix.getD "tmp-".toList) ++ ([.op '\n'] ++ word "suffix=") ++
    literal (tempSuffix.getD []) ++ ([.op '\n'] ++ word "while" ++ word "true" ++ [.op ';'] ++
      word "do" ++ [.op '\n'] ++ word "path=")

theorem reads_tempPathHead (p : List Char) (t ts : Option (List Char)) :
    Reads start (tempPathHead p t ts) (tempPathHeadPieces p t ts) [.double, .plain .eof true] := by
  have hn : Reads [.plain .eof true] "\nprefix=".toList ([.op '\n'] ++ word "prefix=")
      [.plain .eof true] := by decide
  have hs : Reads [.plain .eof true] "\nsuffix=".toList ([.op '\n'] ++ word "suffix=")
      [.plain .eof true] := by decide
  have hl : Reads [.plain .eof true] "\nwhile true; do\n  path=\"".toList
      ([.op '\n'] ++ word "while" ++ word "true" ++ [.op ';'] ++ word "do" ++ [.op '\n'] ++
        word "path=") [.double, .plain .eof true] := by decide +kernel
  have hst := (((reads_createDirAllScript p).append hn).append
    (reads_shellQuote_inWord (t.getD "tmp-".toList) .eof [])).append hs
  exact (hst.append (reads_shellQuote_inWord (ts.getD []) .eof [])).append hl

/-- A name in the directory, and the test whether it is taken. -/
def tempPathTestPieces : List Piece :=
  [.param true "prefix".toList, .substOpen true] ++ word "date" ++ word "+%s%N" ++
    [.substClose, .char true '-', .param true "RANDOM".toList, .param true "suffix".toList,
      .op '\n'] ++ word "if" ++ word "[" ++ word "!" ++ word "-e" ++
    [.begin, .param true "path".toList] ++ word "]" ++ [.op ';'] ++ word "then" ++ [.op '\n']

def tempPathEndPieces : List Piece :=
  [.op '\n'] ++ word "printf" ++ quotedWord "%s".toList ++
    [.begin, .param true "path".toList, .op '\n'] ++ word "exit" ++ word "0" ++ [.op '\n'] ++
    word "fi" ++ [.op '\n'] ++ word "done"

theorem reads_tempPathTail (k : TempPathKind) : Reads [.double, .plain .eof true] (tempPathTail k)
    (tempPathTestPieces ++ k.pieces ++ tempPathEndPieces) [.plain .eof true] := by
  have ht : Reads [.double, .plain .eof true]
      "$prefix$(date +%s%N)-$RANDOM$suffix\"\n  if [ ! -e \"$path\" ]; then\n    ".toList
      tempPathTestPieces start := by decide +kernel
  have he : Reads [.plain .eof true]
      "\n    printf '%s' \"$path\"\n    exit 0\n  fi\ndone".toList
      tempPathEndPieces [.plain .eof true] := by decide +kernel
  exact (ht.append k.reads_creation).append he

def tempPathPieces (kind : TempPathKind) (parent : List Char)
    (tempPrefix tempSuffix : Option (List Char)) : List Piece :=
  tempPathHeadPieces parent tempPrefix tempSuffix ++
    (literal (parent ++ ['/']) ++ (tempPathTestPieces ++ kind.pieces ++ tempPathEndPieces))

/-- The slash after the parent comes only once, so nothing else is read in its place. -/
theorem read_tempPathScript_iff (k : TempPathKind) (p : List Char) (t ts : Option (List Char)) :
    read (tempPathScript k p t ts) = some (tempPathPieces k p t ts) ↔ DoubleInert p := by
  have hh := reads_tempPathHead p t ts
  rw [← doubleInert_concat_iff (l := '/') (by decide) (by decide)]
  refine ⟨doubleInert_of_read hh rfl (by decide) (by cases k <;> decide), fun hp => ?_⟩
  exact (hh.append ((reads_double rfl (by decide) hp).append (reads_tempPathTail k))).read

/-! #### Searches -/

def globPieces (base : List Char) : List Piece :=
  word "if" ++ word "[" ++ word "-d" ++ quotedWord base ++
    (word "]" ++ [.op ';'] ++ word "then" ++ word "find") ++ quotedWord base ++
    (word "-mindepth" ++ word "1" ++ word "-print" ++ [.op ';'] ++ word "fi")

theorem read_globScript (b : List Char) : read (globScript b) = some (globPieces b) := by
  have hh : Reads start "if [ -d ".toList (word "if" ++ word "[" ++ word "-d")
      [.plain .eof false] := by decide
  have hm : Reads [.plain .eof true] " ]; then find ".toList
      (word "]" ++ [.op ';'] ++ word "then" ++ word "find") [.plain .eof false] := by decide +kernel
  have he : Reads [.plain .eof true] " -mindepth 1 -print; fi".toList
      (word "-mindepth" ++ word "1" ++ word "-print" ++ [.op ';'] ++ word "fi")
      [.plain .eof true] := by decide +kernel
  exact ((((hh.append (reads_shellQuote b .eof [])).append hm).append
    (reads_shellQuote b .eof [])).append he).read

def GrepMode.pieces : GrepMode → List (List Piece)
  | .filesWithMatches => [word "-l"]
  | .content => []
  | .count => [word "-c"]

def grepPieces (mode : GrepMode) (pattern : Option (List Char)) (query base : List Char) :
    List Piece :=
  ([word "grep" ++ word "-r" ++ word "-H"] ++ mode.pieces ++
    (pattern.map fun text => word "--include=" ++ literal text).toList ++
    [word "--", quotedWord query, quotedWord base]).flatten

theorem GrepMode.reads_flags (m : GrepMode) : List.Forall₂ ReadsWords m.flags m.pieces := by
  cases m with
  | filesWithMatches | count => exact .cons (by decide) .nil
  | content => exact .nil

theorem reads_include (p : Option (List Char)) :
    List.Forall₂ ReadsWords (p.map fun t => "--include=".toList ++ shellQuote t).toList
      (p.map fun t => word "--include=" ++ literal t).toList := by
  have hh : Reads start "--include=".toList (word "--include=") [.plain .eof true] := by decide
  cases p with
  | none => exact .nil
  | some t => exact .cons (hh.append (reads_shellQuote_inWord t .eof [])) .nil

theorem read_grepScript (m : GrepMode) (p : Option (List Char)) (q b : List Char) :
    read (grepScript m p q b) = some (grepPieces m p q b) := by
  have hh : ReadsWords "grep -r -H".toList (word "grep" ++ word "-r" ++ word "-H") := by decide
  have hd : ReadsWords "--".toList (word "--") := by decide
  have ho : List.Forall₂ ReadsWords ["--".toList, shellQuote q, shellQuote b]
      [word "--", quotedWord q, quotedWord b] :=
    .cons hd (.cons (reads_shellQuote q .eof []) (.cons (reads_shellQuote b .eof []) .nil))
  have hr := List.rel_append (List.rel_append m.reads_flags (reads_include p)) ho
  exact (hh.intercalate hr).read

/-! ### All scripts -/

/-- **Paths and other texts are inert**: whatever they are, a script is read in one way only, with
each text as a part of a word, or as a word of its own, that stands for itself. For the parent of a
temporary path this holds exactly if it has no character that acts in double quotes. -/
theorem scripts_inert_iff (native tempPath parent base query : List Char) (kind : TempPathKind)
    (mode : GrepMode) (tempPrefix tempSuffix pattern : Option (List Char)) :
    read (atomicOverwriteScript tempPath native) = some (atomicOverwritePieces tempPath native) ∧
      read (createDirAllScript native) = some (createDirAllPieces native) ∧
      (read (tempPathScript kind parent tempPrefix tempSuffix) =
        some (tempPathPieces kind parent tempPrefix tempSuffix) ↔ DoubleInert parent) ∧
      read (globScript base) = some (globPieces base) ∧
      read (grepScript mode pattern query base) = some (grepPieces mode pattern query base) :=
  ⟨read_atomicOverwriteScript tempPath native, (reads_createDirAllScript native).read,
    read_tempPathScript_iff kind parent tempPrefix tempSuffix, read_globScript base,
    read_grepScript mode pattern query base⟩

/-- A blank, a single quote, and a backslash and a dollar sign that act on nothing. -/
example : DoubleInert "/tmp/it's \\here$".toList := by decide

/-- **A part of the parent is run**: the path is quoted for `mkdir`, and then written into double
quotes as it is. -/
theorem parent_is_run :
    ∃ pieces, read (tempPathScript .file "/tmp/$(reboot)".toList none none) = some pieces ∧
      [.substOpen true] ++ word "reboot" ++ [.substClose] <:+: pieces := by
  have hrn : (read (tempPathScript .file "/tmp/$(reboot)".toList none none)).any
      fun pieces => [.substOpen true] ++ word "reboot" ++ [.substClose] <:+: pieces := by
    decide +kernel
  obtain ⟨pieces, hr, hp⟩ := (Option.any_eq_true _ _).mp hrn
  exact ⟨pieces, hr, of_decide_eq_true hp⟩

end XiaoO.Backend.Remote
