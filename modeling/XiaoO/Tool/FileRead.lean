import XiaoO.Base.PathText
import XiaoO.Base.SortedMap
import XiaoO.Base.Text
import XiaoO.Base.Threads
import XiaoO.Base.Utf8
import Mathlib.Data.String.Basic

/-!
# The file_read tool

`file_read/executor/backend.rs`: a call resolves its path, checks its input, asks the backend for
the modification time, and then either answers that the file is unchanged since the same request was
last answered, or reads the bytes and returns their content. What was last returned of a path is
remembered in `file_read/dedup.rs` by the modification time that was reported before the bytes were
read, as milliseconds, and a time that is not reported counts as 0.

## The model

A call goes from await to await; calls run in any interleaving with each other and with changes of
the files, which may come from `file_edit`, `file_write` or anything else and may set any content
and any reported time, or none. A backend that never reports a time, such as `path_stat_from_entry`
of the E2B backend, is one whose files all have none.

The history of a path and the log of the answers are for the statements. What a call takes from
elsewhere is a parameter: the checks of the input, the estimate of the tokens, the float arithmetic
of the window and the JSON of a notebook. What images and PDF files are turned into is an input of
the step, as they are never remembered.

## What is proved

What each step does (`exec_effect`).
-/

namespace XiaoO.Tool.Read

open XiaoO.Base

/-! ### What was read -/

structure FileReadState where
  timestamp : ℤ
  offset : Option UInt64
  limit : Option UInt64
  isPartialView : Bool

abbrev DedupStateStore := SortedMap String FileReadState

variable (store : DedupStateStore)

def DedupStateStore.isFileUnchanged (path : String) (currentMtime : ℤ)
    (offset limit : Option UInt64) (isPartialView : Bool) : Bool :=
  match store.get? path with
  | some state =>
    state.timestamp = currentMtime && state.offset = offset && state.limit = limit &&
      state.isPartialView = isPartialView
  | none => false

/-- `system_time_to_timestamp`, of a time in nanoseconds since the epoch: `as_millis() as i64`, or 0
if there is no time or it is before the epoch. -/
def systemTimeToTimestamp (time : Option ℤ) : ℤ :=
  match time with
  | some t => if 0 ≤ t then (t / 1000000).bmod (2 ^ 64) else 0
  | none => 0

/-! ### Input and output -/

structure FileReadInput where
  filePath : String
  offset : Option UInt64
  limit : Option UInt64
  pages : Option String

def FileReadInput.isPartialView (input : FileReadInput) : Bool := input.offset.isSome || input.limit.isSome

structure TextOutput where
  filePath : String
  content : String
  numLines : ℕ
  startLine : ℕ
  totalLines : ℕ
  deriving DecidableEq

inductive FileReadOutput where
  | text (output : TextOutput)
  /-- The cells are JSON texts. -/
  | notebook (filePath : String) (cells : List String)
  /-- `Image`, `Pdf` and `Parts`. -/
  | media (json : String)
  | fileUnchanged (filePath note : String)
  deriving DecidableEq

def defaultMaxTokens : ℕ := 25000

def defaultMaxSizeBytes : ℕ := 256 * 1024

def imageExtensions : List String := ["png", "jpg", "jpeg", "gif", "webp"]

/-- `get_extension`. No letter outside ASCII has a lower case that spells one of the extensions
looked for. -/
def getExtension (path : String) : String :=
    ((extension? path).map fun e => String.ofList (e.toList.map Char.toLower)).getD ""

variable (ext : String)

def isPdfExtension : Bool := ext = "pdf"

def isImageExtension : Bool := ext ∈ imageExtensions

def isNotebookExtension : Bool := ext = "ipynb"

def dedupApplies : Bool := !isImageExtension ext && !isPdfExtension ext

/-! ### The content of the bytes -/

/-- What the tool takes from elsewhere. -/
structure Reader where
  /-- `validate_input_with_base_from_bytes`: the error code and the message. -/
  validate : FileReadInput → String → Except (ℕ × String) Unit
  /-- `estimate_tokens`, of a path and a text. -/
  estimateTokens : String → String → ℕ
  /-- `total_shown as f64 * fraction`, of the tokens allowed, those estimated and the lines. -/
  windowLines : ℕ → ℕ → ℕ → ℕ
  /-- The cells of a notebook, or what is wrong with its JSON. -/
  notebookCells : List Char → Except String (List String)

/-- `read_text_from_bytes`, or nothing if the end of the slice overflows. -/
def readTextFromBytes (path : String) (bytes : List UInt8) (offset limit : Option UInt64) : Option TextOutput :=
  let allLines := textLines (String.ofList (fromUtf8Lossy bytes))
  let startPos := min ((offset.map fun o => o.toNat - 1).getD 0) allLines.length
  let wanted := (limit.filter (0 < ·)).map fun l => startPos + l.toNat
  if (wanted.getD 0) < 2 ^ 64 then
    let endPos := min (wanted.getD allLines.length) allLines.length
    let selected := (allLines.take endPos).drop startPos
    some {
      filePath := path
      content := "\n".intercalate selected
      numLines := selected.length
      startLine := if allLines.length = 0 then 1 else startPos + 1
      totalLines := allLines.length }
  else none

variable (reader : Reader)

def windowTextOutput (output : TextOutput) (maxTokens estimatedTokens : ℕ) : TextOutput :=
  let lines := textLines output.content
  let keep := max 1 (min (reader.windowLines maxTokens estimatedTokens lines.length) (max lines.length 1))
  let lastLine := output.startLine + (keep - 1)
  let nextOffset := output.startLine + keep
  let head := "\n".intercalate (lines.take keep)
  let marker := "\n\n…[file_read truncated to fit the " ++ toString maxTokens ++ "-token budget: showing lines " ++
    toString output.startLine ++ "–" ++ toString lastLine ++ " of " ++ toString output.totalLines ++
    " total. Re-read with offset=" ++ toString nextOffset ++
    " (optionally a `limit`) to continue, or use grep to jump to a pattern.]…"
  { output with content := head ++ marker, numLines := keep }

variable (path : String) (offset limit : Option UInt64) (bytes : List UInt8)

/-- `process_text` up to the store. -/
def processText : Option (Except String FileReadOutput) :=
  (readTextFromBytes path bytes offset limit).map fun output =>
    let estimatedTokens := reader.estimateTokens path output.content
    if estimatedTokens ≤ defaultMaxTokens then .ok (.text output)
    else if limit.isNone then .ok (.text (windowTextOutput reader output defaultMaxTokens estimatedTokens))
    else .error ("File content token count (" ++ toString estimatedTokens ++ ") exceeds maximum (" ++
      toString defaultMaxTokens ++
      "). Re-read a smaller slice with a lower `limit` (and `offset` to page).")

/-- `process_notebook` up to the store, with `read_notebook_from_bytes`. -/
def processNotebook : Except String FileReadOutput :=
  if bytes.length > defaultMaxSizeBytes then
    .error ("Notebook file too large: " ++ toString bytes.length ++ " bytes (max: " ++ toString
      defaultMaxSizeBytes ++
      " bytes)")
  else
    match reader.notebookCells (fromUtf8Lossy bytes) with
    | .error message => .error ("Invalid notebook format: " ++ message)
    | .ok cells =>
      let cellsJson := "[" ++ ",".intercalate cells ++ "]"
      let cellsJsonBytes := (utf8Encode cellsJson.toList).length
      let estimatedTokens := reader.estimateTokens path cellsJson
      if cellsJsonBytes > defaultMaxSizeBytes then
        .error ("Notebook content (" ++ toString cellsJsonBytes ++ " bytes) exceeds maximum allowed size (" ++
          toString defaultMaxSizeBytes ++ " bytes).")
      else if estimatedTokens > defaultMaxTokens then
        .error ("Notebook content token count (" ++ toString estimatedTokens ++ ") exceeds maximum (" ++
          toString defaultMaxTokens ++ ")")
      else .ok (.notebook path cells)

/-- What a request returns from the bytes of a file that is neither an image nor a PDF. -/
def process : Option (Except String FileReadOutput) :=
  if isNotebookExtension (getExtension path) then some (processNotebook reader path bytes)
  else processText reader path offset limit bytes

/-- The output of a request, if it returns one from the bytes. -/
def content? : Option FileReadOutput :=
  match process reader path offset limit bytes with
  | some (.ok output) => some output
  | _ => none

def checkDedupUnchanged (input : FileReadInput) (mtime : ℤ) : Option FileReadOutput :=
  if store.isFileUnchanged path mtime input.offset input.limit input.isPartialView then
    let note :=
      if input.isPartialView then
        "File is unchanged since your previous identical paged read this session; its content is already in your " ++
          "context above. Pass a different `offset`/`limit` to view other lines, or re-read after the file changes."
      else
        "File is unchanged since your previous full read this session; its content is already in your context above. " ++
          "Re-read after the file changes, or use grep to jump to a pattern."
    some (.fileUnchanged input.filePath note)
  else none

/-! ### Calls and changes -/

/-- What a backend has at a path: the content, and the modification time that it reports with it. -/
structure Entry where
  bytes : List UInt8
  modifiedAt : Option ℤ

/-- An answer of the tool. -/
inductive Event where
  | returned (path : String) (input : FileReadInput) (output : FileReadOutput)
  /-- `FileUnchanged`, with the content that the file has, and those that it had before since the
  call asked for the modification time. -/
  | unchanged (path : String) (input : FileReadInput) (output : FileReadOutput) (current : List UInt8)
      (meanwhile : List (List UInt8))
  | failed (message : String)

/-- The files, the contents that each path has had, the store, and the answers, the last ones
first. -/
structure State where
  files : String → Option Entry
  history : String → List Entry
  store : DedupStateStore
  log : List Event

/-- A file gets a new content or a new reported time, or is removed. -/
def State.change (s : State) (path : String) (entry : Option Entry) : State :=
  { s with
    files := Function.update s.files path entry
    history := Function.update s.history path (entry.toList ++ s.history path) }

/-- The contents that a path has had since its history had the length `since`, the last one
first. -/
def State.contentsSince (s : State) (path : String) (since : ℕ) : List (List UInt8) :=
  ((s.history path).take ((s.history path).length + 1 - since)).map Entry.bytes

def State.answer (s : State) (event : Event) : State := { s with log := event :: s.log }

inductive Call where
  | idle
  | statting (input : FileReadInput) (path : String)
  /-- The modification time is known. `since` is the length of the history of the path when it was
  reported. -/
  | checking (input : FileReadInput) (path : String) (mtime : ℤ) (since : ℕ)
  | reading (input : FileReadInput) (path : String) (mtime : ℤ)
  | processing (input : FileReadInput) (path : String) (mtime : ℤ) (bytes : List UInt8)

/-- What can happen: a file changes, a call arrives, or an await of a call is over. -/
inductive Act where
  | change (path : String) (entry : Option Entry)
  /-- A call, with what its path is resolved to. -/
  | request (input : FileReadInput) (resolved : Except String String)
  | proceed
  /-- The backend fails or takes too long. -/
  | fail (error : String)
  /-- What an image or a PDF file is turned into. -/
  | media (outcome : Except String String)

/-- The store after a request has been answered with a content. -/
def remember (input : FileReadInput) (mtime : ℤ) : DedupStateStore :=
  store.insert path
    { timestamp := mtime, offset := input.offset, limit := input.limit, isPartialView := input.isPartialView }

/-- `FileReadExecutor::invoke`, from one await to the next. -/
def exec : Act → State → Call → Option (State × Call)
  | .change path entry, s, call => some (s.change path entry, call)
  | .request input resolved, s, .idle =>
    match resolved with
    | .error e => some (s.answer (.failed ("Failed to resolve path: " ++ e)), .idle)
    | .ok path =>
      match reader.validate input path with
      | .error (code, message) =>
          some (s.answer (.failed ("[error_code=" ++ toString code ++ "] " ++ message)), .idle)
      | .ok () => some (s, .statting input path)
  | .fail e, s, .statting _ _ => some (s.answer (.failed ("Failed to stat file: " ++ e)), .idle)
  | .proceed, s, .statting input path =>
    match s.files path with
    | none => some (s.answer (.failed ("File does not exist: " ++ path)), .idle)
    | some entry => some (s, .checking input path (systemTimeToTimestamp entry.modifiedAt) (s.history path).length)
  | .proceed, s, .checking input path mtime since =>
    match if dedupApplies (getExtension path) then checkDedupUnchanged s.store path input mtime else none with
    | some output =>
      let during := s.contentsSince path since
      some (s.answer (.unchanged path input output (during.headD []) during.tail), .idle)
    | none => some (s, .reading input path mtime)
  | .fail e, s, .reading _ _ _ => some (s.answer (.failed ("Failed to read file: " ++ e)), .idle)
  | .proceed, s, .reading input path mtime =>
    (s.files path).map fun entry => (s, .processing input path mtime entry.bytes)
  | .proceed, s, .processing input path mtime bytes =>
    if dedupApplies (getExtension path) then
      match process reader path input.offset input.limit bytes with
      | some (.ok output) =>
        some ({ s.answer (.returned path input output) with store := remember s.store path input mtime }, .idle)
      | some (.error message) => some (s.answer (.failed message), .idle)
      -- the call panics
      | none => some (s, .idle)
    else none
  | .media outcome, s, .processing input path _ _ =>
    if dedupApplies (getExtension path) then none
    else
      match outcome with
      | .ok json => some (s.answer (.returned path input (.media json)), .idle)
      | .error message => some (s.answer (.failed message), .idle)
  | _, _, _ => none

variable {ι : Type*} [DecidableEq ι]

/-- Calls `ι` over the files and the store. -/
abbrev World (ι : Type*) := Threads ι State Call

def start (files : String → Option Entry) : World ι where
  shared := { files, history := fun path => (files path).toList, store := .empty, log := [] }
  thread _ := .idle

/-! ### What a step does -/

/-- What a step may do to the state and to the call that takes it. -/
inductive Effect (reader : Reader) (s : State) : Act → Call → State → Call → Prop
  | changed (path : String) (entry : Option Entry) (call : Call) :
      Effect reader s (.change path entry) call (s.change path entry) call
  | requested {act : Act} {call : Call} (input : FileReadInput) (path : String) :
      Effect reader s act call s (.statting input path)
  | failed {act : Act} {call : Call} (message : String) : Effect reader s act call (s.answer (.failed message)) .idle
  | panicked {act : Act} {call : Call} : Effect reader s act call s .idle
  | statted {act : Act} {input : FileReadInput} {path : String} {entry : Entry}
      (hentry : s.files path = some entry) :
      Effect reader s act (.statting input path) s
        (.checking input path (systemTimeToTimestamp entry.modifiedAt) (s.history path).length)
  | unchanged {act : Act} {input : FileReadInput} {path : String} {mtime : ℤ} {since : ℕ} {output : FileReadOutput}
      (hunchanged : s.store.isFileUnchanged path mtime input.offset input.limit input.isPartialView = true) :
      Effect reader s act (.checking input path mtime since)
        (s.answer (.unchanged path input output ((s.contentsSince path since).headD [])
          (s.contentsSince path since).tail))
        .idle
  | missed {act : Act} {input : FileReadInput} {path : String} {mtime : ℤ} {since : ℕ} :
      Effect reader s act (.checking input path mtime since) s (.reading input path mtime)
  | read {act : Act} {input : FileReadInput} {path : String} {mtime : ℤ} {entry : Entry}
      (hentry : s.files path = some entry) :
      Effect reader s act (.reading input path mtime) s (.processing input path mtime entry.bytes)
  | returned {act : Act} {input : FileReadInput} {path : String} {mtime : ℤ} {bytes : List UInt8}
      {output : FileReadOutput} (hdedup : dedupApplies (getExtension path) = true)
      (houtput : content? reader path input.offset input.limit bytes = some output) :
      Effect reader s act (.processing input path mtime bytes)
        { s.answer (.returned path input output) with store := remember s.store path input mtime } .idle
  | media {act : Act} {input : FileReadInput} {path : String} {mtime : ℤ} {bytes : List UInt8} (json : String)
      (hdedup : dedupApplies (getExtension path) = false) :
      Effect reader s act (.processing input path mtime bytes) (s.answer (.returned path input (.media json))) .idle

theorem exec_effect {r : Reader} {a : Act} {s s' : State} {c call' : Call}
    (h : exec r a s c = some (s', call')) : Effect r s a c s' call' := by
  rw [exec.eq_def] at h
  split at h
  · cases h
    exact .changed _ _ _
  · split at h
    · cases h
      exact .failed _
    · split at h <;> cases h
      · exact .failed _
      · exact .requested _ _
  · cases h
    exact .failed _
  · split at h <;> cases h
    · exact .failed _
    · next he => exact .statted he
  · split at h <;> cases h
    · next hc =>
      split at hc
      · rw [checkDedupUnchanged] at hc
        split at hc
        · exact .unchanged ‹_›
        · cases hc
      · cases hc
    · exact .missed
  · cases h
    exact .failed _
  · obtain ⟨e, he, heq⟩ := Option.map_eq_some_iff.mp h
    cases heq
    exact .read he
  · split at h
    · next hd =>
      split at h <;> cases h
      · next hp =>
        refine .returned hd ?_
        unfold content?
        rw [hp]
      · exact .failed _
      · exact .panicked
    · cases h
  · split at h
    · cases h
    · next hd =>
      split at h <;> cases h
      · exact .media _ (Bool.eq_false_iff.mpr hd)
      · exact .failed _
  · cases h

end XiaoO.Tool.Read
