import XiaoO.Base.PathText
import XiaoO.Base.Runs
import XiaoO.Base.SortedMap
import XiaoO.Base.Text
import Mathlib.Data.String.Basic

/-!
# The session diff tracker

`session_diff/mod.rs` keeps, for each file that the tools of a session change, the number of added
and of deleted lines. A tool call that starts captures the content of its file; when it completes,
the file is compared with its content at the start of the session, and the totals of the file are
set to the result. Without a captured content the change is estimated from the arguments and added.
In remote mode a tracker runs in the daemon (`session_diff/daemon_sinks.rs`), and the delta of each
completed call is forwarded to the tracker of the client, which adds it.

## The model

The functions of the tracker, under their names. A read of a file asks the disk of the step, so
contents may change between any two events. The arguments of a call are the texts that `serde_json`
finds in them. Counts are 32 bits wide, with the conversions and the saturating sums of the source.

The machine is the daemon's tracker with the list of the deltas that it has forwarded; its labels
are the events that the two sinks listen to.
-/

namespace XiaoO.SessionDiff

open XiaoO.Base

/-! ### Counting changed lines -/

/-- The rest of a row of the table in `lcs_line_count`: the lines after, the previous row from here
on, and the entry to the left. -/
def lcsRow (line : String) : List String → List ℕ → ℕ → List ℕ
  | a :: after, diagonal :: above :: previous, left =>
    let entry := if line = a then diagonal + 1 else max left above
    entry :: lcsRow line after (above :: previous) entry
  | _, _, _ => []

def lcsLineCount (before after : List String) : ℕ :=
  (before.foldl (fun previous line => 0 :: lcsRow line after previous 0)
    (List.replicate (after.length + 1) 0)).getLastD 0

/-- The length of the common start of two lists. -/
def commonPrefixLength : List String → List String → ℕ
  | a :: as, b :: bs => if a = b then commonPrefixLength as bs + 1 else 0
  | _, _ => 0

/-- `coarse_common_line_count`: the common start, and the common end of what is left. -/
def coarseCommonLineCount (before after : List String) : ℕ :=
  let start := commonPrefixLength before after
  start + commonPrefixLength (before.drop start).reverse (after.drop start).reverse

/-- `line_change_counts`: additions and deletions. -/
def lineChangeCounts (before after : String) : UInt32 × UInt32 :=
  if before = after then (0, 0)
  else
    let beforeLines := textLines before
    let afterLines := textLines after
    if beforeLines.isEmpty then (.ofNat afterLines.length, 0)
    else if afterLines.isEmpty then (0, .ofNat beforeLines.length)
    else
      let common :=
        if beforeLines.length * afterLines.length > 20000 then coarseCommonLineCount beforeLines afterLines
        else lcsLineCount beforeLines afterLines
      (.ofNat (afterLines.length - common), .ofNat (beforeLines.length - common))

def textLineCount (text : String) : UInt32 := .ofNat (textLines text).length

/-! ### Deltas -/

structure SessionFileChangeStats where
  additions : UInt32 := 0
  deletions : UInt32 := 0
  deriving DecidableEq

/-- `FileChangeDelta`: a change of a file, with its counts. -/
structure FileChangeDelta where
  filePath : String
  stats : SessionFileChangeStats

def fileContentDelta (filePath : String) (before after : Option String) : FileChangeDelta :=
  let (additions, deletions) := match before, after with
    | some before, some after => lineChangeCounts before after
    | none, some after => (textLineCount after, 0)
    | some before, none => (0, textLineCount before)
    | none, none => (0, 0)
  { filePath, stats := { additions, deletions } }

/-- The texts in the arguments of a tool call, each if it is there. -/
structure ToolArgs where
  filePath : Option String := none
  oldString : Option String := none
  newString : Option String := none
  content : Option String := none

variable (tool : String) (args : ToolArgs)

def parseToolTargetFilePath : Option String :=
  if tool = "file_edit" ∨ tool = "file_write" then args.filePath else none

/-- The counts in `file_change_delta_from_tool_args`. -/
def statsFromToolArgs : Option SessionFileChangeStats :=
  if tool = "file_edit" then
    args.oldString.bind fun oldString => args.newString.map fun newString =>
      let (additions, deletions) := lineChangeCounts oldString newString
      { additions, deletions }
  else if tool = "file_write" then args.content.map fun content => { additions := textLineCount content }
  else none

def fileChangeDeltaFromToolArgs : Option FileChangeDelta :=
  args.filePath.bind fun filePath => (statsFromToolArgs tool args).bind fun stats =>
    if stats = {} then none else some { filePath, stats }

/-! ### The tracker -/

inductive FileReadOutcome where
  | absent
  | present (content : String)
  | unreadable

/-- The files as they are at one moment, by absolute path. -/
abbrev Disk := String → FileReadOutcome

variable (workspace : String)

def resolveWorkspaceFilePath (filePath : String) : String :=
  if isAbsolutePath filePath then filePath
  else if workspace.toList.getLast? ∈ [none, some '/'] then workspace ++ filePath
  else workspace ++ "/" ++ filePath

structure ToolFileBaseline where
  filePath : String
  absolutePath : String

structure SessionDiffTracker where
  workspace : String
  sessionFileChanges : SortedMap String SessionFileChangeStats
  toolFileChanges : SortedMap String FileChangeDelta
  toolFileBaselines : SortedMap String ToolFileBaseline
  sessionFileContentBaselines : SortedMap String (Option String)

def saturatingAdd (a b : UInt32) : UInt32 :=
    if a.toNat + b.toNat < UInt32.size then a + b else .ofNat (UInt32.size - 1)

def saturatingSub (a b : UInt32) : UInt32 := if b ≤ a then a - b else 0

/-- The counts of `adjust_session_file_change`. -/
def SessionFileChangeStats.adjust (stats change : SessionFileChangeStats) (add : Bool) : SessionFileChangeStats :=
  if add then
    { additions := saturatingAdd stats.additions change.additions
      deletions := saturatingAdd stats.deletions change.deletions }
  else
    { additions := saturatingSub stats.additions change.additions
      deletions := saturatingSub stats.deletions change.deletions }

/-- Write the counts of a file; a file with none is not kept. -/
def putStats (changes : SortedMap String SessionFileChangeStats) (filePath : String)
    (stats : SessionFileChangeStats) :
    SortedMap String SessionFileChangeStats :=
  if stats = {} then (changes.insert filePath stats).erase filePath else changes.insert filePath stats

namespace SessionDiffTracker

def new : SessionDiffTracker where
  workspace := workspace
  sessionFileChanges := .empty
  toolFileChanges := .empty
  toolFileBaselines := .empty
  sessionFileContentBaselines := .empty

variable (tracker : SessionDiffTracker) (callId : String)

def adjustSessionFileChange (delta : FileChangeDelta) (add : Bool) : SessionDiffTracker :=
  let entry := (tracker.sessionFileChanges.get? delta.filePath).getD {}
  { tracker with
    sessionFileChanges := putStats tracker.sessionFileChanges delta.filePath (entry.adjust delta.stats add) }

/-- The first half of `reconcile_tool_file_change`: take back what the call changed before. -/
def takeBack : SessionDiffTracker :=
  match tracker.toolFileChanges.get? callId with
  | some previous =>
    adjustSessionFileChange { tracker with toolFileChanges := tracker.toolFileChanges.erase callId } previous false
  | none => tracker

def reconcileToolFileChange (next : Option FileChangeDelta) : SessionDiffTracker × Option FileChangeDelta :=
  let tracker := tracker.takeBack callId
  match next.filter fun delta => delta.stats ≠ {} with
  | none => (tracker, none)
  | some delta =>
    let tracker := tracker.adjustSessionFileChange delta true
    ({ tracker with toolFileChanges := tracker.toolFileChanges.insert callId delta }, some delta)

variable (disk : Disk)

def captureToolFileBaseline (tool : String) (args : ToolArgs) : SessionDiffTracker :=
  if (tracker.toolFileBaselines.get? callId).isSome then tracker
  else
    match parseToolTargetFilePath tool args with
    | none => tracker
    | some filePath =>
      let absolutePath := resolveWorkspaceFilePath tracker.workspace filePath
      let capture (content : Option String) : SessionDiffTracker :=
        { tracker with
          sessionFileContentBaselines :=
            match tracker.sessionFileContentBaselines.get? filePath with
            | some _ => tracker.sessionFileContentBaselines
            | none => tracker.sessionFileContentBaselines.insert filePath content
          toolFileBaselines := tracker.toolFileBaselines.insert callId { filePath, absolutePath } }
      match disk absolutePath with
      | .unreadable => tracker
      | .absent => capture none
      | .present content => capture (some content)

/-- The delta between the start of the session and now, in
`reconcile_tool_file_change_from_baseline`. -/
def computedDelta (baseline : ToolFileBaseline) : Option FileChangeDelta :=
  let initialContent := tracker.sessionFileContentBaselines.get? baseline.filePath
  match disk baseline.absolutePath with
  | .unreadable => none
  | .absent => initialContent.bind fun initial =>
    if initial.isNone then none else some (fileContentDelta baseline.filePath initial none)
  | .present current => initialContent.bind fun initial =>
    if initial.isNone ∧ current = "" then none else some (fileContentDelta baseline.filePath initial (some current))

def reconcileToolFileChangeFromBaseline (fallback : Option FileChangeDelta) :
    SessionDiffTracker × Option FileChangeDelta :=
  match tracker.toolFileBaselines.get? callId with
  | none =>
    if (tracker.toolFileChanges.get? callId).isNone then tracker.reconcileToolFileChange callId fallback
    else (tracker, none)
  | some baseline =>
    let tracker := { tracker with toolFileBaselines := tracker.toolFileBaselines.erase callId }
    match (tracker.computedDelta disk baseline).or fallback with
    | some delta =>
      -- the totals of the file are set, and not added to
      ({ tracker with
          sessionFileChanges := putStats tracker.sessionFileChanges delta.filePath delta.stats
          toolFileChanges := tracker.toolFileChanges.insert callId delta },
        some delta)
    | none => tracker.reconcileToolFileChange callId none

def onToolRunning (tool : String) (args : ToolArgs) : SessionDiffTracker :=
  tracker.captureToolFileBaseline callId disk tool args

def onToolCompleted (tool : String) (args : ToolArgs) (fileChange : Option FileChangeDelta) :
    SessionDiffTracker × Option FileChangeDelta :=
  tracker.reconcileToolFileChangeFromBaseline callId disk (fileChange.or (fileChangeDeltaFromToolArgs tool args))

def onToolFailed (fileChange : Option FileChangeDelta) : SessionDiffTracker × Option FileChangeDelta :=
  reconcileToolFileChange
    { tracker with toolFileBaselines := tracker.toolFileBaselines.erase callId } callId fileChange

def applyRemoteDelta (delta : FileChangeDelta) : SessionDiffTracker :=
  (tracker.reconcileToolFileChange callId (some delta)).1

def clearPerTurnState : SessionDiffTracker := { tracker with toolFileChanges := .empty, toolFileBaselines := .empty }

end SessionDiffTracker

/-! ### The daemon and the client -/

/-- What the sinks of the daemon listen to: a call starts (`DiffComputingToolSink`), the result of a
call, which may be an error, and the end of a turn (`DiffComputingLoopSink`). -/
inductive DaemonEvent where
  | running (callId tool : String) (args : ToolArgs)
  | toolResult (callId tool : String) (args : ToolArgs) (isError : Bool)
  | loopEnd

def computeDelta (tracker : SessionDiffTracker) (disk : Disk) (callId tool : String)
    (args : ToolArgs) (isError : Bool) :
    SessionDiffTracker × Option FileChangeDelta :=
  if isError then tracker.onToolFailed callId none else tracker.onToolCompleted callId disk tool args none

/-- The daemon's tracker, and the deltas that were forwarded, in order. -/
structure Daemon where
  tracker : SessionDiffTracker
  forwarded : List (String × FileChangeDelta)

def step (d : Daemon) : Disk × DaemonEvent → Option Daemon
  | (disk, .running callId tool args) => some { d with tracker := d.tracker.onToolRunning callId disk tool args }
  | (disk, .toolResult callId tool args isError) =>
    let (tracker, delta) := computeDelta d.tracker disk callId tool args isError
    some { tracker, forwarded := d.forwarded ++ (delta.map (callId, ·)).toList }
  | (_, .loopEnd) => some { d with tracker := d.tracker.clearPerTurnState }

def start : Daemon := { tracker := .new workspace, forwarded := [] }

/-- The client's tracker, which has received the forwarded deltas in order. -/
def remote (forwarded : List (String × FileChangeDelta)) : SessionDiffTracker :=
  forwarded.foldl (fun tracker d => tracker.applyRemoteDelta d.1 d.2) (.new workspace)

end XiaoO.SessionDiff
