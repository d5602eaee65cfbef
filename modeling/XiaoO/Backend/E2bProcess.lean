import XiaoO.Base.Feed
import XiaoO.Base.Framing
import XiaoO.Base.Json
import XiaoO.Base.Text
import XiaoO.Base.Utf8

/-!
# Processes in a remote sandbox

The E2B backend starts a process by a request and reads what it does from the stream of the response
(`apps/shared/src/backend/e2b/exec.rs`). The stream is a list of frames, each with a flag byte and
the length of its payload, or one JSON message. A message has some output of the process, in base64,
or says that it ended.

## The model

From the point on where the response has come, with a status of success. The stream comes in chunks,
and then ends or breaks. The readers of JSON and of base64 are parameters. The logs are left out,
and so are fields of failures that only the logs have.

## What is proved

A stream is a list of parts: some bytes of output, the end of the process, or what makes the reading
fail. The outcome is that of its parts, in whatever chunks it came (`startProcess_eq`).

If the stream ends between two frames, or with its one message, then the outcome is a success even
if there was no end of the process (`cut_stream_succeeds`). Otherwise only a process that ended is
one, and the others are interrupted, with the output so far (`succeeds_only_if_ended`).
-/

namespace XiaoO.Backend.E2b

open XiaoO.Base List Json Json.Tree

/-! ### Failures -/

inductive E2bFailureKind where
  | dns
  | connect
  | tls
  | timeout
  | httpStatus
  | bodyInterrupted
  | protocol
  | unknown
  deriving DecidableEq

structure E2bFailure where
  kind : E2bFailureKind
  message : String
  retryable : Bool
  deriving DecidableEq

def E2bFailure.protocol (message : String) : E2bFailure := ⟨.protocol, message, false⟩

def E2bFailure.retryableProtocol (message : String) : E2bFailure := ⟨.protocol, message, true⟩

def E2bFailure.bodyInterrupted (message : String) : E2bFailure := ⟨.bodyInterrupted, message, true⟩

inductive ExecutionState where
  | notStarted
  | runningOrCompleted
  deriving DecidableEq

structure E2bExecFailure where
  failure : E2bFailure
  stdout : List UInt8
  stderr : List UInt8
  executionState : Option ExecutionState

def E2bExecFailure.interrupted (failure : E2bFailure) (stdout stderr : List UInt8) : E2bExecFailure :=
  ⟨failure, stdout, stderr, some .runningOrCompleted⟩

structure E2bExecOutput where
  stdout : List UInt8
  stderr : List UInt8
  exitCode : Option ℤ
  timedOut : Bool

/-! ### Messages -/

structure DataEvent where
  stdout : Option String := none
  stderr : Option String := none
  pty : Option String := none

structure EndEvent where
  exitCode : Option ℤ := none
  status : Option String := none
  error : Option String := none

/-- `ProcessEvent`, with its fields `data` and `end`. -/
structure ProcessEvent where
  data : Option DataEvent := none
  ended : Option EndEvent := none

structure StartResponse where
  event : Option ProcessEvent := none

/-- The functions of other crates, with the texts of their errors. -/
structure Readers where
  /-- `serde_json::from_slice::<StartResponse>`. -/
  startResponse : List UInt8 → Except String StartResponse
  /-- `serde_json::from_slice::<Value>`. -/
  value : List UInt8 → Option Json.Value
  /-- The text of a value. -/
  display : Json.Value → String
  /-- The standard engine of base64. -/
  base64 : String → Except String (List UInt8)

def connectEnvelope (payload : List UInt8) : List UInt8 :=
  let size := payload.length % 2 ^ 32
  0 :: UInt8.ofNat (size / 2 ^ 24) :: UInt8.ofNat (size / 2 ^ 16) ::
    UInt8.ofNat (size / 2 ^ 8) :: UInt8.ofNat size :: payload

variable (readers : Readers)

def decodeStreamChunk (label value : String) : Except E2bFailure (List UInt8) :=
  match readers.base64 value with
  | .ok bytes => .ok bytes
  | .error error => .error (.protocol ("failed to decode e2b process " ++ label ++ " chunk: " ++ error))

def parseStatusExitCode (status : String) : Option ℤ :=
  let status := trim status.toList
  ((stripPrefix? "exit status ".toList status).bind fun value => parseI32? (trim value)).or
    ((rsplitOnce? ' ' status).bind fun (_, tail) => parseI32? tail)

/-- `parse_end_stream_payload`, which may fail. -/
def parseEndStreamPayload (payload : List UInt8) : Option E2bFailure :=
  if payload = [] then none
  else
    match readers.value payload with
    | none => none
    | some value =>
      match (value.get? "error").filter (· ≠ .null) with
      | some error => some (.retryableProtocol ("e2b process stream ended with error: " ++ readers.display error))
      | none => none

/-! ### Collected output -/

structure StartStreamCollector where
  stdout : List UInt8 := []
  stderr : List UInt8 := []
  exitCode : Option ℤ := none
  completed : Bool := false

variable (collector : StartStreamCollector) (bytes : List UInt8)

namespace StartStreamCollector

def extendStdout : StartStreamCollector :=
  { collector with stdout := collector.stdout ++ bytes }

def extendStderr : StartStreamCollector :=
  { collector with stderr := collector.stderr ++ bytes }

/-- A text of a data event, if it is there: its label, and where it goes to. -/
structure DataChunk where
  label : String
  chunk : Option String
  extend : StartStreamCollector → List UInt8 → StartStreamCollector

def applyChunk (data : DataChunk) : StartStreamCollector × Option E2bFailure :=
  match data.chunk with
  | none => (collector, none)
  | some chunk =>
    match decodeStreamChunk readers data.label chunk with
    | .ok bytes => (data.extend collector bytes, none)
    | .error failure => (collector, some failure)

/-- `StartStreamCollector::apply`. If a chunk cannot be decoded, those before it are kept. -/
def apply (response : StartResponse) : StartStreamCollector × Option E2bFailure :=
  match response.event with
  | some { data := some data, .. } =>
    feedUntil (applyChunk readers) collector
      [⟨"stdout", data.stdout, extendStdout⟩, ⟨"stderr", data.stderr, extendStderr⟩, ⟨"pty", data.pty, extendStdout⟩]
  | some { data := none, ended := some ended } =>
    let collector := { collector with exitCode := ended.exitCode.or (parseStatusExitCode (ended.status.getD "")) }
    let collector := match ended.error.filter fun value => !isBlank value with
      | some error => collector.extendStderr (utf8Encode error.toList)
      | none => collector
    ({ collector with completed := true }, none)
  | _ => (collector, none)

def intoOutput : E2bExecOutput :=
  ⟨collector.stdout, collector.stderr, collector.exitCode, false⟩

end StartStreamCollector

/-! ### The decoder -/

inductive StreamMode where
  | framed
  | plainJson
  deriving DecidableEq

/-- `ConnectStartStreamDecoder`. -/
structure Decoder where
  mode : Option StreamMode := none
  buffer : List UInt8 := []
  collector : StartStreamCollector := {}

open Decoder

def isAsciiWhitespace (byte : UInt8) : Bool := byte ∈ [0x20, 0x09, 0x0A, 0x0C, 0x0D]

/-- The length in a header: a number of four bytes, the highest one first. -/
def payloadLength : List UInt8 → ℕ
  | [_, a, b, c, d] => ((a.toNat * 256 + b.toNat) * 256 + c.toNat) * 256 + d.toNat
  | _ => 0

/-- What `drain_frames` does with a frame. -/
def handleFrame (frame : Frame UInt8) : StartStreamCollector × Option E2bFailure :=
  let flags := frame.header.headD 0
  if flags &&& 0x02 ≠ 0 then (collector, parseEndStreamPayload readers frame.payload)
  else if flags &&& 0x01 ≠ 0 then
    (collector, some (.protocol "compressed e2b process stream frames are not supported"))
  else if frame.payload = [] then (collector, none)
  else
    match readers.startResponse frame.payload with
    | .error error => (collector, some (.protocol ("failed to decode e2b process stream event: " ++ error)))
    | .ok response => collector.apply readers response

variable (decoder : Decoder)

namespace Decoder

/-- `drain_frames`. There are no more rounds than bytes in the buffer. -/
def drainFrames : ℕ → Decoder → Decoder × Option E2bFailure
  | 0, decoder => (decoder, none)
  | fuel + 1, decoder =>
    match takeFrame? 5 payloadLength decoder.buffer with
    | none => (decoder, none)
    | some (frame, rest) =>
      match handleFrame readers decoder.collector frame with
      | (collector, none) => drainFrames fuel { decoder with buffer := rest, collector }
      | (collector, some failure) => ({ decoder with buffer := rest, collector }, some failure)

/-- The mode by what has come so far. -/
def detectMode (buffer : List UInt8) : Option StreamMode :=
  (buffer.find? fun byte => !isAsciiWhitespace byte).map fun first =>
    if first = '{'.toUInt8 then .plainJson else .framed

def push (bytes : List UInt8) : Decoder × Option E2bFailure :=
  let buffer := decoder.buffer ++ bytes
  let mode := decoder.mode.or (detectMode buffer)
  if mode = some .framed then drainFrames readers buffer.length { decoder with mode, buffer }
  else ({ decoder with mode, buffer }, none)

def finish : Decoder × Option E2bFailure :=
  match decoder.mode with
  | some .plainJson =>
    match readers.startResponse decoder.buffer with
    | .error error => (decoder, some (.protocol ("failed to decode e2b process response: " ++ error)))
    | .ok response =>
      match decoder.collector.apply readers response with
      | (collector, none) => ({ decoder with buffer := [], collector }, none)
      | (collector, some failure) => ({ decoder with collector }, some failure)
  | some .framed =>
    if decoder.buffer ≠ [] then
      (decoder, some (.bodyInterrupted (if decoder.buffer.length < 5 then "malformed e2b process stream frame header"
        else "malformed e2b process stream frame length")))
    else (decoder, none)
  | none => (decoder, some (.bodyInterrupted "empty e2b process stream"))

end Decoder

/-- How a stream stops. -/
inductive Ending where
  | complete
  | broken (failure : E2bFailure)
  deriving DecidableEq

/-- The outcome by what was collected and what failed. -/
def report : StartStreamCollector × Option E2bFailure → Except E2bExecFailure E2bExecOutput
  | (collector, none) => .ok collector.intoOutput
  | (collector, some failure) =>
    if collector.completed then .ok collector.intoOutput
    else .error (.interrupted failure collector.stdout collector.stderr)

/-- `start_process`, from the response on. -/
def startProcess (chunks : List (List UInt8)) (ending : Ending) : Except E2bExecFailure E2bExecOutput :=
  match feedUntil (push readers) {} chunks, ending with
  | (decoder, some failure), _ => report (decoder.collector, some failure)
  | (decoder, none), .broken failure => report (decoder.collector, some failure)
  | (decoder, none), .complete => report ((decoder.finish readers).1.collector, (decoder.finish readers).2)

/-! ### Parts -/

inductive StreamPart where
  | stdout (bytes : List UInt8)
  | stderr (bytes : List UInt8)
  | ended (exitCode : Option ℤ)
  | failed (failure : E2bFailure)
  deriving DecidableEq

namespace StreamPart

def add : StreamPart → StartStreamCollector × Option E2bFailure
  | stdout bytes => (collector.extendStdout bytes, none)
  | stderr bytes => (collector.extendStderr bytes, none)
  | ended exitCode => ({ collector with exitCode, completed := true }, none)
  | failed failure => (collector, some failure)

def stdoutBytes : StreamPart → List UInt8
  | stdout bytes => bytes
  | _ => []

def stderrBytes : StreamPart → List UInt8
  | stderr bytes => bytes
  | _ => []

def exitCode? : StreamPart → Option (Option ℤ)
  | ended exitCode => some exitCode
  | _ => none

def failure? : StreamPart → Option E2bFailure
  | failed failure => some failure
  | _ => none

/-- The parts before the first one that fails. -/
def applied (parts : List StreamPart) : List StreamPart := parts.takeWhile fun part => part.failure?.isNone

/-- What fails first. -/
def stop (parts : List StreamPart) : Option E2bFailure := parts.findSome? failure?

/-- The output of parts, with the exit code of the last end. -/
def collected (parts : List StreamPart) : StartStreamCollector where
  stdout := parts.flatMap stdoutBytes
  stderr := parts.flatMap stderrBytes
  exitCode := ((parts.filterMap exitCode?).getLast?).join
  completed := parts.any fun part => part.exitCode?.isSome

/-- The output of parts after what was collected before. -/
theorem feedUntil_add (ps : List StreamPart) (c : StartStreamCollector) : feedUntil add c ps =
      ({ stdout := c.stdout ++ (collected (applied ps)).stdout
         stderr := c.stderr ++ (collected (applied ps)).stderr
         exitCode := ((applied ps).filterMap exitCode?).getLast?.getD c.exitCode
         completed := c.completed || (collected (applied ps)).completed }, stop ps) := by
  induction ps generalizing c with
  | nil => simp [feedUntil, applied, collected, stop]
  | cons p ps ih =>
    cases p with
    | stdout bs =>
      have ha : add c (.stdout bs) = (c.extendStdout bs, none) := rfl
      rw [feedUntil_cons_of_ok ha, ih]
      simp [applied, collected, stop, failure?, exitCode?, stdoutBytes, stderrBytes, findSome?_cons,
        StartStreamCollector.extendStdout]
    | stderr bs =>
      have ha : add c (.stderr bs) = (c.extendStderr bs, none) := rfl
      rw [feedUntil_cons_of_ok ha, ih]
      simp [applied, collected, stop, failure?, exitCode?, stdoutBytes, stderrBytes, findSome?_cons,
        StartStreamCollector.extendStderr]
    | ended exitCode =>
      have ha : add c (.ended exitCode) = ({ c with exitCode, completed := true }, none) := rfl
      rw [feedUntil_cons_of_ok ha, ih]
      simp [applied, collected, stop, failure?, exitCode?, stdoutBytes, stderrBytes, findSome?_cons, getLast?_cons]
    | failed f => simp [feedUntil, add, applied, collected, stop, failure?, findSome?_cons]

theorem feedUntil_add_start (ps : List StreamPart) : feedUntil add {} ps = (collected (applied ps), stop ps) := by
  rw [feedUntil_add]
  rcases h : ((applied ps).filterMap exitCode?).getLast? with _ | exitCode
  · simp [collected, h]
  · simp [collected, h]

end StreamPart

/-! ### The parts of a stream -/

def chunkParts (label : String) (chunk : Option String) (part : List UInt8 → StreamPart) : List StreamPart :=
  match chunk with
  | none => []
  | some chunk =>
    match decodeStreamChunk readers label chunk with
    | .ok bytes => [part bytes]
    | .error failure => [.failed failure]

/-- The parts of a message. The text of an error of the process counts as its output. -/
def StartResponse.parts (response : StartResponse) : List StreamPart :=
  match response.event with
  | some { data := some data, .. } =>
    chunkParts readers "stdout" data.stdout .stdout ++ chunkParts readers "stderr" data.stderr .stderr ++
      chunkParts readers "pty" data.pty .stdout
  | some { data := none, ended := some ended } =>
    ((ended.error.filter fun value => !isBlank value).map fun error =>
      StreamPart.stderr (utf8Encode error.toList)).toList ++
      [.ended (ended.exitCode.or (parseStatusExitCode (ended.status.getD "")))]
  | _ => []

def frameParts (frame : Frame UInt8) : List StreamPart :=
  let flags := frame.header.headD 0
  if flags &&& 0x02 ≠ 0 then ((parseEndStreamPayload readers frame.payload).map StreamPart.failed).toList
  else if flags &&& 0x01 ≠ 0 then [.failed (.protocol "compressed e2b process stream frames are not supported")]
  else if frame.payload = [] then []
  else
    match readers.startResponse frame.payload with
    | .error error => [.failed (.protocol ("failed to decode e2b process stream event: " ++ error))]
    | .ok response => response.parts readers

/-- The parts of the frames that are there. -/
def framedParts : List StreamPart := (cut 5 payloadLength bytes).1.flatMap (frameParts readers)

/-- What comes at the end of a stream. -/
def lastParts : Ending → List StreamPart
  | .broken failure => [.failed failure]
  | .complete =>
    match detectMode bytes with
    | none => [.failed (.bodyInterrupted "empty e2b process stream")]
    | some .framed =>
      let rest := (cut 5 payloadLength bytes).2
      if rest = [] then []
      else
        [.failed (.bodyInterrupted
          (if rest.length < 5 then "malformed e2b process stream frame header"
            else "malformed e2b process stream frame length"))]
    | some .plainJson =>
      match readers.startResponse bytes with
      | .error error => [.failed (.protocol ("failed to decode e2b process response: " ++ error))]
      | .ok response => response.parts readers

/-- **The parts of a whole stream.** -/
def streamParts (ending : Ending) : List StreamPart :=
  (if detectMode bytes = some .framed then framedParts readers bytes else []) ++ lastParts readers bytes ending

/-! ### Messages are collected by their parts -/

open StreamPart

variable (collector : StartStreamCollector)

theorem applyChunk_eq {l : String} {c : Option String}
    {p : List UInt8 → StreamPart} {e : StartStreamCollector → List UInt8 → StartStreamCollector}
    (hp : ∀ collector bs, add collector (p bs) = (e collector bs, none)) :
    collector.applyChunk readers ⟨l, c, e⟩ = feedUntil add collector (chunkParts readers l c p) := by
  unfold chunkParts StartStreamCollector.applyChunk
  cases c with
  | none => rfl
  | some c =>
    simp only
    cases decodeStreamChunk readers l c with
    | ok => simp [feedUntil, hp]
    | error => rfl

theorem apply_eq (r : StartResponse) : collector.apply readers r = feedUntil add collector (r.parts readers) := by
  unfold StartStreamCollector.apply StartResponse.parts
  split
  · rename_i d _ _
    rw [append_assoc, ← append_nil (chunkParts readers "pty" _ _)]
    refine feedUntil_cons_eq_append (applyChunk_eq readers _ fun _ _ => rfl) fun collector => ?_
    refine feedUntil_cons_eq_append (applyChunk_eq readers _ fun _ _ => rfl) fun collector => ?_
    exact feedUntil_cons_eq_append (applyChunk_eq readers _ fun _ _ => rfl) fun collector => rfl
  · cases hf : Option.filter (fun v => !isBlank v) _ with
    | none => rfl
    | some => rfl
  · rfl

theorem handleFrame_eq (f : Frame UInt8) :
    handleFrame readers collector f = feedUntil add collector (frameParts readers f) := by
  unfold handleFrame frameParts
  simp only
  split
  · cases parseEndStreamPayload readers f.payload <;> rfl
  · split
    · rfl
    · split
      · rfl
      · cases readers.startResponse f.payload with
        | error => rfl
        | ok r => exact apply_eq readers collector r

/-! ### Streams are collected by their parts -/

/-- `drain_frames` collects the parts of the frames in the buffer and leaves the rest, unless it
fails. -/
theorem drainFrames_cases (fl : ℕ) (decoder : Decoder) (hfu : decoder.buffer.length ≤ fl) :
    (∃ collector, feedUntil add decoder.collector (framedParts readers decoder.buffer) = (collector, none) ∧
      decoder.drainFrames readers fl =
        ({ decoder with buffer := (cut 5 payloadLength decoder.buffer).2, collector }, none)) ∨
    ∃ buffer collector f, feedUntil add decoder.collector
      (framedParts readers decoder.buffer) = (collector, some f) ∧
        decoder.drainFrames readers fl = ({ decoder with buffer, collector }, some f) := by
  induction fl generalizing decoder with
  | zero =>
    left
    have he : decoder.buffer = [] := length_eq_zero_iff.mp (Nat.le_zero.mp hfu)
    refine ⟨decoder.collector, ?_, ?_⟩
    · rw [he]
      rfl
    · cases decoder
      cases he
      rfl
  | succ fl ih =>
    rcases ht : takeFrame? 5 payloadLength decoder.buffer with _ | ⟨frame, rest⟩
    · left
      refine ⟨decoder.collector, ?_, ?_⟩
      · rw [framedParts, cut_of_none ht]
        rfl
      · rw [drainFrames, ht, cut_of_none ht]
    · have hr := length_of_takeFrame? ht
      have hp : framedParts readers decoder.buffer = frameParts readers frame ++ framedParts readers rest := by
        rw [framedParts, cut_of_some (by decide) ht]
        rfl
      have hc : (cut 5 payloadLength decoder.buffer).2 = (cut 5 payloadLength rest).2 := by
        rw [cut_of_some (by decide) ht]
      rcases hf : handleFrame readers decoder.collector frame with ⟨collector, _ | f⟩
      · have hok := (handleFrame_eq readers decoder.collector frame).symm.trans hf
        have hd : decoder.drainFrames readers (fl + 1) =
            drainFrames readers fl { decoder with buffer := rest, collector } := by
          rw [drainFrames, ht]
          simp only [hf]
        rw [hp, feedUntil_append_of_ok hok, hd, hc]
        exact ih { decoder with buffer := rest, collector } (by simp only; omega)
      · have hfl := (handleFrame_eq readers decoder.collector frame).symm.trans hf
        right
        refine ⟨rest, collector, f, ?_, ?_⟩
        · rw [hp, feedUntil_append_of_failed hfl]
        · rw [drainFrames, ht]
          simp only [hf]

theorem detectMode_append (bs m : List UInt8) :
    detectMode (bs ++ m) = (detectMode bs).or (detectMode m) := by
  unfold detectMode
  rw [find?_append]
  cases bs.find? fun b => !isAsciiWhitespace b <;> rfl

/-- What is known of the decoder after some bytes, if nothing has failed. -/
structure Settled : Prop where
  mode : decoder.mode = detectMode bytes
  framed : decoder.mode = some .framed → decoder.buffer = (cut 5 payloadLength bytes).2 ∧
    feedUntil add {} (framedParts readers bytes) = (decoder.collector, none)
  other : decoder.mode ≠ some .framed → decoder.buffer = bytes ∧ decoder.collector = {}

/-- What is known after some bytes. -/
def Reached : Decoder × Option E2bFailure → Prop
  | (decoder, none) => Settled readers bytes decoder
  | (decoder, some failure) => detectMode bytes = some .framed ∧
    feedUntil add {} (framedParts readers bytes) = (decoder.collector, some failure)

theorem settled_start : Settled readers [] {} := ⟨rfl, nofun, fun _ => ⟨rfl, rfl⟩⟩

variable {readers}

theorem framedParts_append (bs m : List UInt8) : framedParts readers (bs ++ m) =
      framedParts readers bs ++ framedParts readers ((cut 5 payloadLength bs).2 ++ m) := by
  rw [framedParts, cut_append (by decide), flatMap_append]
  rfl

variable {bs : List UInt8} {decoder : Decoder}

section

variable (h : Settled readers bs decoder)
include h

theorem Settled.mode_append (c : List UInt8) :
    decoder.mode.or (detectMode (decoder.buffer ++ c)) = detectMode (bs ++ c) := by
  rcases hm : decoder.mode with _ | mode
  · rw [(h.other (by simp [hm])).1]
    rfl
  · rw [detectMode_append bs c, ← h.mode, hm]
    rfl

/-- The frames that come with a chunk, after those before it. -/
theorem Settled.framed_append (c : List UInt8) : feedUntil add {} (framedParts readers (bs ++ c)) =
        feedUntil add decoder.collector (framedParts readers (decoder.buffer ++ c)) ∧
      (cut 5 payloadLength (bs ++ c)).2 = (cut 5 payloadLength (decoder.buffer ++ c)).2 := by
  by_cases hm : decoder.mode = some .framed
  · obtain ⟨hb, hp⟩ := h.framed hm
    rw [framedParts_append, feedUntil_append_of_ok hp, cut_append (by decide), hb]
    exact ⟨rfl, rfl⟩
  · obtain ⟨hb, hc⟩ := h.other hm
    rw [hb, hc]
    exact ⟨rfl, rfl⟩

theorem Settled.push (chunk : List UInt8) : Reached readers (bs ++ chunk) (decoder.push readers chunk) := by
  have hm := h.mode_append chunk
  obtain ⟨hp, hct⟩ := h.framed_append chunk
  unfold Decoder.push
  simp only [hm]
  split
  · rename_i hf
    rcases drainFrames_cases readers _
      { decoder with mode := detectMode (bs ++ chunk), buffer := decoder.buffer ++ chunk }
      le_rfl with ⟨collector, hfd, hd⟩ | ⟨buffer, collector, failure, hfd, hd⟩
    · rw [hd]
      exact ⟨rfl, fun _ => ⟨hct.symm, hp.trans hfd⟩, fun ho => absurd hf ho⟩
    · rw [hd]
      exact ⟨hf, hp.trans hfd⟩
  · rename_i ho
    have hb : decoder.mode ≠ some .framed := by
      intro hf
      rw [hf] at hm
      exact ho hm.symm
    obtain ⟨hbf, hc⟩ := h.other hb
    exact ⟨rfl, fun hf => absurd hf ho, fun _ => ⟨by rw [hbf], hc⟩⟩

omit h in
/-- A failure is not changed by what comes after it. -/
theorem Reached.append {f : E2bFailure} (h : Reached readers bs (decoder, some f)) (m : List UInt8) :
    Reached readers (bs ++ m) (decoder, some f) := by
  obtain ⟨hm, hp⟩ := h
  refine ⟨?_, ?_⟩
  · rw [detectMode_append, hm]
    rfl
  · rw [framedParts_append, feedUntil_append_of_failed hp]

theorem Settled.pushes (cs : List (List UInt8)) :
    Reached readers (bs ++ cs.flatten) (feedUntil (Decoder.push readers) decoder cs) := by
  induction cs generalizing bs decoder with
  | nil =>
    rw [flatten_nil, append_nil]
    exact h
  | cons c cs ih =>
    have hp := h.push c
    rw [flatten_cons, ← append_assoc]
    rcases hr : decoder.push readers c with ⟨next, _ | failure⟩
    · rw [hr] at hp
      rw [feedUntil_cons_of_ok hr]
      exact ih hp
    · rw [hr] at hp
      rw [feedUntil_cons_of_failed hr]
      exact hp.append _

theorem Settled.add_last (last : List StreamPart) :
    feedUntil add {} ((if detectMode bs = some .framed then framedParts readers bs else []) ++ last) =
      feedUntil add decoder.collector last := by
  rw [← h.mode]
  split
  · rename_i hf
    rw [feedUntil_append_of_ok (h.framed hf).2]
  · rename_i ho
    rw [nil_append, (h.other ho).2]

/-- `finish` collects what comes at the end. -/
theorem Settled.finish : ((decoder.finish readers).1.collector, (decoder.finish readers).2) =
      feedUntil add decoder.collector (lastParts readers bs .complete) := by
  unfold Decoder.finish lastParts
  rw [← h.mode]
  rcases hm : decoder.mode with _ | _ | _
  · rfl
  · rw [(h.framed hm).1]
    by_cases hr : (cut 5 payloadLength bs).2 = []
    · rw [if_pos hr, if_neg (not_not.mpr hr)]
      rfl
    · rw [if_neg hr, if_pos hr]
      rfl
  · rw [(h.other (by simp [hm])).1]
    cases readers.startResponse bs with
    | error => rfl
    | ok r =>
      simp only
      rw [← apply_eq]
      rcases decoder.collector.apply readers r with ⟨collector, _ | f⟩ <;> rfl

end

/-- **The outcome is that of the parts**, in whatever chunks the stream comes. -/
theorem startProcess_eq (cs : List (List UInt8)) (e : Ending) : startProcess readers cs e =
      report (collected (applied (streamParts readers cs.flatten e)), stop (streamParts readers cs.flatten e)) := by
  rw [← feedUntil_add_start]
  have hr := (settled_start readers).pushes cs
  rw [nil_append] at hr
  unfold startProcess streamParts
  rcases hc : feedUntil (Decoder.push readers) {} cs with ⟨decoder, _ | failure⟩
  · rw [hc] at hr
    rw [Settled.add_last hr]
    cases e with
    | complete =>
      simp only
      rw [Settled.finish hr]
    | broken => rfl
  · rw [hc] at hr
    obtain ⟨hm, hp⟩ := hr
    rw [if_pos hm, feedUntil_append_of_failed hp]

/-! ### What a success means -/

def outputOf : Except E2bExecFailure E2bExecOutput → List UInt8 × List UInt8
  | .ok output => (output.stdout, output.stderr)
  | .error failure => (failure.stdout, failure.stderr)

theorem outputOf_report (f : Option E2bFailure) :
    outputOf (report (collector, f)) = (collector.stdout, collector.stderr) := by
  cases f with
  | none => rfl
  | some =>
    simp only [report]
    split <;> rfl

theorem report_eq_ok_iff (f : Option E2bFailure) :
    (∃ o, report (collector, f) = .ok o) ↔ collector.completed = true ∨ f = none := by
  cases f with
  | none => simp [report]
  | some =>
    unfold report
    by_cases hc : collector.completed = true
    · simp [hc]
    · simp [hc]

theorem of_report_eq_error {collector : StartStreamCollector} {f : Option E2bFailure} {error : E2bExecFailure}
    (h : report (collector, f) = .error error) :
    ∃ c, f = some c ∧ error = .interrupted c collector.stdout collector.stderr := by
  cases f with
  | none => contradiction
  | some f =>
    unfold report at h
    simp only at h
    split at h
    · contradiction
    · cases h
      exact ⟨f, rfl, rfl⟩

/-- That the process ended is among the parts that are applied. -/
def Ended (parts : List StreamPart) : Prop := ∃ exitCode, StreamPart.ended exitCode ∈ applied parts

theorem completed_iff {parts : List StreamPart} : (collected (applied parts)).completed = true ↔ Ended parts := by
  unfold collected Ended
  simp only [any_eq_true]
  constructor
  · rintro ⟨p, hp, hs⟩
    cases p with
    | ended e => exact ⟨e, hp⟩
    | stdout | stderr | failed => contradiction
  · rintro ⟨e, hp⟩
    exact ⟨_, hp, rfl⟩

/-- **A remote command succeeds only if it ended**, or if its stream stops without a failure. The
outcome is the same for all chunks of a stream, its output is that of the parts that are applied, in
their order, and if it is not a success, then it is an interrupted execution with the output so
far. -/
theorem succeeds_only_if_ended (readers : Readers) (chunks : List (List UInt8)) (ending : Ending) :
    (∀ chunks' : List (List UInt8), chunks'.flatten = chunks.flatten →
        startProcess readers chunks' ending = startProcess readers chunks ending) ∧
      outputOf (startProcess readers chunks ending) =
        ((applied (streamParts readers chunks.flatten ending)).flatMap stdoutBytes,
          (applied (streamParts readers chunks.flatten ending)).flatMap stderrBytes) ∧
      ((∃ output, startProcess readers chunks ending = .ok output) ↔
        Ended (streamParts readers chunks.flatten ending) ∨
          stop (streamParts readers chunks.flatten ending) = none) ∧
      ∀ error, startProcess readers chunks ending = .error error →
        ∃ failure, stop (streamParts readers chunks.flatten ending) = some failure ∧
          error = .interrupted failure ((applied (streamParts readers chunks.flatten ending)).flatMap stdoutBytes)
            ((applied (streamParts readers chunks.flatten ending)).flatMap stderrBytes) := by
  refine ⟨?_, ?_, ?_, ?_⟩
  · intro chunks' hc
    rw [startProcess_eq, startProcess_eq, hc]
  · rw [startProcess_eq, outputOf_report]
    rfl
  · rw [startProcess_eq, report_eq_ok_iff, completed_iff]
  · intro error he
    rw [startProcess_eq] at he
    exact of_report_eq_error he

def outputMessage : List UInt8 := utf8Encode "\x7b\"event\":\x7b\"data\":\x7b\"stdout\":\"aGk=\"\x7d\x7d\x7d".toList

/-- What is read from it. -/
def outputReaders : Readers where
  startResponse bytes :=
    if bytes = outputMessage then .ok { event := some { data := some { stdout := some "aGk=" } } }
    else .error "expected value"
  value _ := none
  display _ := ""
  base64 s := if s = "aGk=" then .ok (utf8Encode "hi".toList) else .error "Invalid symbol"

/-- **A stream that is cut between two frames is a success**, though nothing was said of the end of
the process. -/
theorem cut_stream_succeeds :
    startProcess outputReaders [connectEnvelope outputMessage] .complete =
      .ok ⟨utf8Encode "hi".toList, [], none, false⟩ ∧
      ¬ Ended (streamParts outputReaders (connectEnvelope outputMessage) .complete) := by
  have hp : streamParts outputReaders (connectEnvelope outputMessage) .complete =
      [.stdout (utf8Encode "hi".toList)] := by
    decide +kernel
  refine ⟨?_, ?_⟩
  · rfl
  · rw [← completed_iff, hp]
    decide

end XiaoO.Backend.E2b
