import XiaoO.Base.Json
import XiaoO.Hook.HookPoints

/-!
# Tool calls with hooks

`ToolCallImpl::execute` (`tool/src/framework/call/call_impl.rs`): the pre-hookers of a tool call may
deny it, change its input and add to its `extra`; then the executor is invoked, and after it the
post-hookers or the error-hookers.

## The model

A hooker answers with anything, which may depend on what it is given. What has happened is logged:
what each hooker was given, and the call that the executor was given. Other kinds of output than
those of the three tool hooks are one case. Left out are traces, tool events and the lifecycle
records, whose `begin` does not fail.

## What is proved

The executor is invoked exactly if all enabled pre-hookers of the point, one after the other in the
order of their ids, answer with `Allow` or `Transform` (`pre_hooks_fail_closed`): what a chain of
hookers does is compared with `answersOf`, which asks all of them. The entries of `extra` are not
the payloads as they are given: an object is stamped with the id of its hooker (`extra_is_stamped`).

What the error-hookers answer is listed in the result and changes nothing else
(`failed_unless_recovered`): a call that a hooker recovers is returned as failed
(`recovered_call_fails`).
-/

namespace XiaoO.Tool

open XiaoO.Base XiaoO.Hook List

structure FinalToolCall where
  callId : String
  toolName : String
  input : Json.Value
  extra : Option Json.Value := none
  deriving DecidableEq

inductive RawToolOutcome where
  | success (output : String)
  | error (message : String)
  deriving DecidableEq

inductive ToolExecutorOutput where
  | completed (rawOutcome : RawToolOutcome)
  | suspended (suspendToken : String)

inductive ToolExecutionError where
  | notFound (toolName : String)
  | executionFailed (message : String)
  | timeout (timeoutMs : ℕ)
  | permissionDenied (message : String)
  deriving DecidableEq

def ToolExecutionError.display : ToolExecutionError → String
  | .notFound toolName => "tool not found: " ++ toolName
  | .executionFailed message => "execution failed: " ++ message
  | .timeout timeoutMs => "timeout after " ++ toString timeoutMs ++ "ms"
  | .permissionDenied message => "permission denied: " ++ message

inductive PreHookResult where
  | allow (extra : Option Json.Value)
  | deny (reason : String)
  | transform (modifiedInput : Json.Value) (extra : Option Json.Value)
  deriving DecidableEq

inductive PostHookResult where
  | accept
  | transform (modifiedOutput : String)
  deriving DecidableEq

inductive ErrorHookResult where
  | propagate
  | recover (output : String)
  deriving DecidableEq

/-- `HookInvokeInput`, of the tool hooks. -/
inductive HookInvokeInput where
  | pre (call : FinalToolCall)
  | post (call : FinalToolCall) (outcome : RawToolOutcome)
  | error (call : FinalToolCall) (error : ToolExecutionError)

inductive HookInvokePrimary where
  | pre (result : PreHookResult)
  | post (result : PostHookResult)
  | error (result : ErrorHookResult)
  | other

/-- What a hooker does: its answer, or the text of an error. -/
abbrev Invoke := HookInvokeInput → Except String HookInvokePrimary

/-- `ToolExecutor::invoke`. -/
abbrev Executor := FinalToolCall → Except ToolExecutionError ToolExecutorOutput

inductive ToolExecutionResult where
  | denied (finalCall : FinalToolCall) (preHookResults : List PreHookResult)
      (errorHookResults : List ErrorHookResult)
      (error : Option ToolExecutionError)
  | completed (finalCall : FinalToolCall) (rawOutcome : RawToolOutcome) (preHookResults : List PreHookResult)
      (postHookResults : List PostHookResult)
  | suspended (finalCall : FinalToolCall) (preHookResults : List PreHookResult) (suspendToken : String)
  | failed (finalCall : FinalToolCall) (preHookResults : List PreHookResult)
      (errorHookResults : List ErrorHookResult)
      (executionError : ToolExecutionError)
  deriving DecidableEq

/-- What happens in a tool call. -/
inductive Event where
  | invoked (hookerId : String) (input : HookInvokeInput)
  | executed (call : FinalToolCall)

/-! ### Hook sequences -/

/-- An entry of `extra`: nothing for `None` and `null`, and an object is stamped with the id of the
hooker. -/
def stampedExtra? (hookerId : String) : Option Json.Value → Option Json.Value
  | none | some .null => none
  | some (.object entries) => some (.object (.insert "hooker_id" (.string hookerId) entries))
  | some entry => some entry

/-- Append to the entries of `extra`, if it is an array. -/
def appendExtra (extra : Option Json.Value) (entry : Json.Value) : Option Json.Value :=
  match extra with
  | some (.array entries) => some (.array (.ofList (entries.toList ++ [entry])))
  | _ => some (.array (.ofList [entry]))

def accumulateExtra (finalCall : FinalToolCall) (hookerId : String) (extra : Option Json.Value) : FinalToolCall :=
  match stampedExtra? hookerId extra with
  | none => finalCall
  | some entry => { finalCall with extra := appendExtra finalCall.extra entry }

def hookerVisibleCall (finalCall : FinalToolCall) : FinalToolCall := { finalCall with extra := none }

/-- What a sequence of hookers leaves: its results, the state it has changed, and what it did. -/
structure Sequence (ρ σ : Type) where
  results : List ρ
  state : σ
  events : List Event

/-- A result and an event before those of a sequence. -/
def Sequence.cons {ρ σ : Type} (result : ρ) (event : Event) (sequence : Sequence ρ σ) : Sequence ρ σ :=
  { sequence with results := result :: sequence.results, events := event :: sequence.events }

/-- The loop of `run_pre_hook_sequence`. -/
def runPreHookers : List (Hooker Invoke) → FinalToolCall → Sequence PreHookResult FinalToolCall
  | [], call => ⟨[], call, []⟩
  | hooker :: hookers, call =>
    let event := Event.invoked hooker.id (.pre (hookerVisibleCall call))
    match hooker.invoke (.pre (hookerVisibleCall call)) with
    | .error error =>
      ⟨[.deny ("pre-hooker '" ++ hooker.id ++ "' failed, tool call denied (fail-closed): " ++ error)], call, [event]⟩
    | .ok (.pre (.allow extra)) =>
      (runPreHookers hookers (accumulateExtra call hooker.id extra)).cons (.allow none) event
    | .ok (.pre (.deny reason)) => ⟨[.deny reason], call, [event]⟩
    | .ok (.pre (.transform modifiedInput extra)) =>
      (runPreHookers hookers (accumulateExtra { call with input := modifiedInput } hooker.id extra)).cons
        (.transform modifiedInput none) event
    | .ok _ =>
      ⟨[.deny ("pre-hooker '" ++ hooker.id ++ "' returned non-pre output, tool call denied (fail-closed)")], call, [event]⟩

/-- The loop of `run_post_hook_sequence`. -/
def runPostHookers (call : FinalToolCall) : List (Hooker Invoke) → RawToolOutcome →
    Sequence PostHookResult RawToolOutcome
  | [], outcome => ⟨[], outcome, []⟩
  | hooker :: hookers, outcome =>
    let event := Event.invoked hooker.id (.post (hookerVisibleCall call) outcome)
    match hooker.invoke (.post (hookerVisibleCall call) outcome) with
    | .ok (.post .accept) => (runPostHookers call hookers outcome).cons .accept event
    | .ok (.post (.transform modifiedOutput)) =>
      (runPostHookers call hookers (.success modifiedOutput)).cons (.transform modifiedOutput) event
    | _ =>
      let rest := runPostHookers call hookers outcome
      { rest with events := event :: rest.events }

/-- The loop of `run_error_hook_sequence`. -/
def runErrorHookers (call : FinalToolCall) (error : ToolExecutionError) : List (Hooker Invoke) →
    Sequence ErrorHookResult Unit
  | [] => ⟨[], (), []⟩
  | hooker :: hookers =>
    let event := Event.invoked hooker.id (.error (hookerVisibleCall call) error)
    match hooker.invoke (.error (hookerVisibleCall call) error) with
    | .ok (.error result) => (runErrorHookers call error hookers).cons result event
    | _ =>
      let rest := runErrorHookers call error hookers
      { rest with events := event :: rest.events }

variable (registry : HookerRegistry Invoke) (agentId : String) (call : FinalToolCall)

/-- What the three sequences begin with: the enabled hookers of the stage, if the point has its
category. -/
def hookersOfStage (stage : Hook.Stage) : Except ToolExecutionError (List (Hooker Invoke)) :=
  let hookPoint := toolHookPoint agentId call.toolName stage
  let hookers := registry.enabledHookersFor hookPoint
  if hookers.isEmpty then .ok []
  else
    match resolveHookPointCategory hookPoint with
    | .error error =>
      .error (.executionFailed ("failed to resolve " ++ stage.text ++ "-hook category for tool call '" ++ call.callId ++
        "' (hook_point='" ++ hookPoint ++ "'): invalid config: " ++ error))
    | .ok category =>
      if category ≠ stage.toolCategory then
        .error (.executionFailed (stage.text ++ "-hook sequence expected " ++ stage.toolCategory.debug ++
          " category but got " ++ category.debug ++ " for hook point " ++ hookPoint))
      else .ok hookers

def runPreHookSequence : Except ToolExecutionError (Sequence PreHookResult FinalToolCall) :=
  (hookersOfStage registry agentId call .pre).map (runPreHookers · call)

/-- `run_post_hook_sequence`, after the executor has completed. -/
def runPostHookSequence (outcome : RawToolOutcome) :
    Except ToolExecutionError (Sequence PostHookResult RawToolOutcome) :=
  (hookersOfStage registry agentId call .post).map (runPostHookers call · outcome)

def runErrorHookSequence (error : ToolExecutionError) : Except ToolExecutionError (Sequence ErrorHookResult Unit) :=
  (hookersOfStage registry agentId call .error).map (runErrorHookers call error)

/-- `collect_error_hook_results_after_begin`: a failure of the sequence is only logged. -/
def collectErrorHookResults (error : ToolExecutionError) : List ErrorHookResult × List Event :=
  match runErrorHookSequence registry agentId call error with
  | .ok sequence => (sequence.results, sequence.events)
  | .error _ => ([], [])

/-! ### The call -/

def PreHookResult.isDeny : PreHookResult → Bool
  | .deny _ => true
  | _ => false

def PreHookResult.denial? : PreHookResult → Option ToolExecutionError
  | .deny reason => some (.permissionDenied reason)
  | _ => none

/-- What is left of `execute` when the pre-hookers have let the call pass. -/
def executeAllowed (executor : Executor) (call : FinalToolCall)
    (preHookResults : List PreHookResult) : ToolExecutionResult × List Event :=
  match executor call with
  | .ok (.suspended suspendToken) => (.suspended call preHookResults suspendToken, [.executed call])
  | .error error =>
    let (errorHookResults, events) := collectErrorHookResults registry agentId call error
    (.failed call preHookResults errorHookResults error, .executed call :: events)
  | .ok (.completed rawOutcome) =>
    match runPostHookSequence registry agentId call rawOutcome with
    | .ok sequence =>
      (.completed call sequence.state preHookResults sequence.results, .executed call :: sequence.events)
    | .error error =>
      let (_, events) := collectErrorHookResults registry agentId call error
      (.completed call rawOutcome preHookResults [], .executed call :: events)

/-- `ToolCallImpl::execute`: its result, and what happened. -/
def execute (executor : Executor) (finalCall : FinalToolCall) : ToolExecutionResult × List Event :=
  -- a failed phase is a denial
  let sequence := match runPreHookSequence registry agentId finalCall with
    | .ok sequence => sequence
    | .error error =>
      ⟨[.deny ("pre-hook phase failed, tool call denied (fail-closed): " ++ error.display)], finalCall, []⟩
  if sequence.results.any PreHookResult.isDeny then
    (.denied sequence.state sequence.results [] (sequence.results.findSome? PreHookResult.denial?), sequence.events)
  else
    let (result, events) := executeAllowed registry agentId executor sequence.state sequence.results
    (result, sequence.events ++ events)

/-! ### What the pre-hookers answer -/

/-- What a hooker that lets a call pass changes. -/
structure Passed where
  modifiedInput : Option Json.Value
  extra : Option Json.Value

/-- What was answered, if it is `Allow` or `Transform`. -/
def passed? : Except String HookInvokePrimary → Option Passed
  | .ok (.pre (.allow extra)) => some ⟨none, extra⟩
  | .ok (.pre (.transform modifiedInput extra)) => some ⟨some modifiedInput, extra⟩
  | _ => none

/-- A hooker, the call that it is shown and what it answers. -/
structure Answer where
  hookerId : String
  seen : FinalToolCall
  output : Except String HookInvokePrimary

open Answer

variable (answer : Answer)

namespace Answer

def passes : Bool := (passed? answer.output).isSome

def modifiedInput? : Option Json.Value := (passed? answer.output).bind Passed.modifiedInput

/-- The entry of `extra` that it leads to. -/
def stamped? : Option Json.Value :=
  (passed? answer.output).bind fun passed => stampedExtra? answer.hookerId passed.extra

def event : Event := .invoked answer.hookerId (.pre answer.seen)

end Answer

/-- The answers of all hookers, each asked with the input that the one before it has left. -/
def answersOf : List (Hooker Invoke) → FinalToolCall → List Answer
  | [], _ => []
  | hooker :: hookers, seen =>
    let answer : Answer := ⟨hooker.id, seen, hooker.invoke (.pre seen)⟩
    answer :: answersOf hookers { seen with input := answer.modifiedInput?.getD seen.input }

/-- The answers up to the first that does not let the call pass. -/
def asked : List Answer → List Answer
  | [] => []
  | answer :: answers => answer :: if answer.passes then asked answers else []

/-- The last modified input, and the given one if there is none. -/
def lastInput (input : Json.Value) (answers : List Answer) : Json.Value :=
  (answers.filterMap modifiedInput?).getLast?.getD input

/-- The entries of `extra`, if it is an array. -/
def extraItems : Option Json.Value → List Json.Value
  | some (.array items) => items.toList
  | _ => []

/-- `extra` with entries appended; it stays as it is if there are none. -/
def withEntries (extra : Option Json.Value) : List Json.Value → Option Json.Value
  | [] => extra
  | entry :: entries => some (.array (.ofList (extraItems extra ++ entry :: entries)))

def callAfter (answers : List Answer) : FinalToolCall :=
  { call with
    input := lastInput call.input answers
    extra := withEntries call.extra (answers.filterMap stamped?) }

theorem withEntries_append (e : Option Json.Value) (f s : List Json.Value) :
    withEntries (withEntries e f) s = withEntries e (f ++ s) := by
  cases f with
  | nil => rfl
  | cons =>
    cases s with
    | nil => rw [append_nil]; rfl
    | cons => simp [withEntries, extraItems]

variable (registry : HookerRegistry Invoke) (call : FinalToolCall) (a : String) (answers : List Answer)
  (e : Executor)

theorem accumulateExtra_eq (hookerId : String) (extra : Option Json.Value) : accumulateExtra call hookerId extra =
      { call with extra := withEntries call.extra (stampedExtra? hookerId extra).toList } := by
  unfold accumulateExtra
  cases stampedExtra? hookerId extra with
  | none => rfl
  | some en =>
    have ha : appendExtra call.extra en = withEntries call.extra [en] := by
      unfold appendExtra withEntries extraItems
      split <;> rfl
    simp [ha]

theorem lastInput_cons (i : Json.Value) (an : Answer) (answers : List Answer) :
    lastInput i (an :: answers) = lastInput (an.modifiedInput?.getD i) answers := by
  unfold lastInput
  rw [filterMap_cons]
  cases an.modifiedInput? with
  | none => rfl
  | some => simp [getLast?_cons]

theorem callAfter_cons (an : Answer) (answers : List Answer) :
    callAfter call (an :: answers) = callAfter (callAfter call [an]) answers := by
  have he : (an :: answers).filterMap stamped? =
      [an].filterMap stamped? ++ answers.filterMap stamped? := by
    rw [← filterMap_append]
    rfl
  have hi : lastInput call.input [an] = an.modifiedInput?.getD call.input := by
    rw [lastInput_cons]
    rfl
  unfold callAfter
  rw [he, ← withEntries_append, lastInput_cons, hi]

/-! ### One hooker, and all of them -/

variable (error : ToolExecutionError) (hooker : Hooker Invoke)

@[simp] theorem hookerVisibleCall_callAfter : hookerVisibleCall (callAfter call answers) =
      { hookerVisibleCall call with input := lastInput call.input answers } := rfl

/-- What the first of the hookers is asked and answers. -/
def firstAnswer (call : FinalToolCall) : Answer :=
  ⟨hooker.id, hookerVisibleCall call, hooker.invoke (.pre (hookerVisibleCall call))⟩

variable (hookers : List (Hooker Invoke))

theorem answersOf_cons (call : FinalToolCall) : answersOf (hooker :: hookers) (hookerVisibleCall call) =
      firstAnswer hooker call :: answersOf hookers
        (hookerVisibleCall (callAfter call [firstAnswer hooker call])) := by
  rw [hookerVisibleCall_callAfter, lastInput_cons]
  rfl

/-- A hooker that lets the call pass: the others go on with what it leaves. -/
theorem runPreHookers_of_passes {hooker : Hooker Invoke} {call : FinalToolCall} (hookers : List (Hooker Invoke))
    (h : (firstAnswer hooker call).passes = true) :
    ∃ r : PreHookResult, r.isDeny = false ∧ runPreHookers (hooker :: hookers) call =
        (runPreHookers hookers (callAfter call [firstAnswer hooker call])).cons r
          (firstAnswer hooker call).event := by
  obtain ⟨ps, hp⟩ := Option.isSome_iff_exists.mp h
  have ha : callAfter call [firstAnswer hooker call] =
      accumulateExtra { call with input := ps.modifiedInput.getD call.input } hooker.id ps.extra := by
    rw [accumulateExtra_eq]
    cases he : stampedExtra? (firstAnswer hooker call).hookerId ps.extra <;>
      simp_all [callAfter, lastInput, modifiedInput?, stamped?, firstAnswer]
  cases ho : hooker.invoke (.pre (hookerVisibleCall call)) with rw [firstAnswer, ho] at hp
  | error => cases hp
  | ok p =>
    rw [ha, runPreHookers, ho]
    cases p with
    | pre r =>
      cases r with cases hp
      | allow => exact ⟨.allow none, rfl, rfl⟩
      | transform modifiedInput => exact ⟨.transform modifiedInput none, rfl, rfl⟩
    | post | error | other => cases hp

/-- A hooker that does not, whatever the reason: the call is denied, and the others are not
asked. -/
theorem runPreHookers_of_not_passes {hooker : Hooker Invoke} {call : FinalToolCall} (hookers : List (Hooker Invoke))
    (h : (firstAnswer hooker call).passes = false) :
    ∃ r, runPreHookers (hooker :: hookers) call = ⟨[.deny r], call, [(firstAnswer hooker call).event]⟩ := by
  cases ho : hooker.invoke (.pre (hookerVisibleCall call)) with
  | error =>
    rw [runPreHookers, ho]
    exact ⟨_, rfl⟩
  | ok p =>
    cases p with
    | pre rs =>
      cases rs with
      | allow | transform => simp [firstAnswer, passes, ho, passed?] at h
      | deny =>
        rw [runPreHookers, ho]
        exact ⟨_, rfl⟩
    | post | error | other =>
      rw [runPreHookers, ho]
      exact ⟨_, rfl⟩

/-- All hookers: they are asked until one does not let the call pass, and the call is then
denied. -/
theorem runPreHookers_spec (call : FinalToolCall) :
    (runPreHookers hookers call).events = (asked (answersOf hookers (hookerVisibleCall call))).map event ∧
      (runPreHookers hookers call).results.any PreHookResult.isDeny =
        !(answersOf hookers (hookerVisibleCall call)).all passes ∧
      ((answersOf hookers (hookerVisibleCall call)).all passes = true →
        (runPreHookers hookers call).state = callAfter call (answersOf hookers (hookerVisibleCall call))) := by
  induction hookers generalizing call with
  | nil => exact ⟨rfl, rfl, fun _ => rfl⟩
  | cons hooker hookers ih =>
    rw [answersOf_cons]
    cases hp : (firstAnswer hooker call).passes with
    | true =>
      obtain ⟨rs, hr, hrn⟩ := runPreHookers_of_passes hookers hp
      obtain ⟨he, hd, hs⟩ := ih (callAfter call [firstAnswer hooker call])
      rw [hrn]
      refine ⟨?_, ?_, ?_⟩
      · simp [Sequence.cons, asked, hp, he]
      · simp only [Sequence.cons, any_cons, all_cons, hr, hp, Bool.false_or, Bool.true_and, hd]
      · intro ha
        rw [all_cons, hp, Bool.true_and] at ha
        exact (hs ha).trans (callAfter_cons ..).symm
    | false =>
      obtain ⟨r, hrn⟩ := runPreHookers_of_not_passes hookers hp
      rw [hrn]
      refine ⟨?_, ?_, ?_⟩
      · simp [asked, hp]
      · simp [hp, PreHookResult.isDeny]
      · simp [hp]

/-- What each hooker is shown: the input that those before it leave, and no `extra`. -/
theorem seen_of_answersOf {hookers : List (Hooker Invoke)} {call : FinalToolCall} {before af : List Answer}
    {an : Answer} (h : answersOf hookers (hookerVisibleCall call) = before ++ an :: af) :
    an.seen = { call with input := lastInput call.input before, extra := none } := by
  induction hookers generalizing call before with
  | nil => simp [answersOf] at h
  | cons hooker hookers ih =>
    rw [answersOf_cons] at h
    cases before with
    | nil =>
      rw [nil_append, cons.injEq] at h
      rw [← h.1]
      rfl
    | cons =>
      rw [cons_append, cons.injEq] at h
      obtain ⟨rfl, hr⟩ := h
      rw [ih hr, lastInput_cons]
      simp [callAfter, lastInput]

/-! ### The whole call -/

/-- The point of a tool has the category of its stage, so that a sequence never fails. -/
theorem hookersOfStage_eq (call : FinalToolCall) (s : Hook.Stage) : hookersOfStage registry a call s =
      .ok (registry.enabledHookersFor (toolHookPoint a call.toolName s)) := by
  simp only [hookersOfStage, resolve_toolHookPoint]
  cases registry.enabledHookersFor (toolHookPoint a call.toolName s) with
  | nil => rfl
  | cons => simp

def Event.executed? : Event → Option FinalToolCall
  | .executed call => some call
  | .invoked _ _ => none

/-- The pre-hooker that is invoked, and the call that it is shown. -/
def Event.preInvoked? : Event → Option (String × FinalToolCall)
  | .invoked hookerId (.pre call) => some (hookerId, call)
  | _ => none

/-- An event of the hookers after the executor. -/
def Event.IsLate (event : Event) : Prop := event.executed? = none ∧ event.preInvoked? = none

theorem isLate_of_runPostHookers (o : RawToolOutcome) :
    ∀ ev ∈ (runPostHookers call hookers o).events, ev.IsLate := by
  induction hookers generalizing o with
  | nil => simp [runPostHookers]
  | cons hooker hookers ih =>
    rw [runPostHookers]
    split <;> exact forall_mem_cons.mpr ⟨⟨rfl, rfl⟩, ih _⟩

theorem isLate_of_runErrorHookers : ∀ ev ∈ (runErrorHookers call error hookers).events, ev.IsLate := by
  induction hookers with
  | nil => simp [runErrorHookers]
  | cons hooker hookers ih =>
    rw [runErrorHookers]
    split <;> exact forall_mem_cons.mpr ⟨⟨rfl, rfl⟩, ih⟩

theorem executeAllowed_events (call : FinalToolCall) (rs : List PreHookResult) :
    ∃ l : List Event, (executeAllowed registry a e call rs).2 = .executed call :: l ∧ ∀ ev ∈ l, ev.IsLate := by
  unfold executeAllowed collectErrorHookResults runErrorHookSequence runPostHookSequence
  simp only [hookersOfStage_eq, Except.map]
  cases e call with
  | error => exact ⟨_, rfl, isLate_of_runErrorHookers _ _ _⟩
  | ok o =>
    cases o with
    | completed => exact ⟨_, rfl, isLate_of_runPostHookers _ _ _⟩
    | suspended => exact ⟨[], rfl, forall_mem_nil _⟩

/-- What is left of a call, when its pre-hookers have been asked. -/
theorem execute_eq (f : FinalToolCall) : execute registry a e f =
      let sequence := runPreHookers (registry.enabledHookersFor (toolHookPoint a f.toolName .pre)) f
      if sequence.results.any PreHookResult.isDeny then
        (.denied sequence.state sequence.results []
          (sequence.results.findSome? PreHookResult.denial?), sequence.events)
      else
        let allowed := executeAllowed registry a e sequence.state sequence.results
        (allowed.1, sequence.events ++ allowed.2) := by
  simp only [execute, runPreHookSequence, hookersOfStage_eq, Except.map]

def ToolExecutionResult.isDenied : ToolExecutionResult → Bool
  | .denied _ _ _ _ => true
  | _ => false

theorem isDenied_executeAllowed (call : FinalToolCall) (rs : List PreHookResult) :
    (executeAllowed registry a e call rs).1.isDenied = false := by
  unfold executeAllowed
  split
  · rfl
  · rfl
  · split <;> rfl

theorem executed_map_event : (answers.map event).filterMap Event.executed? = [] := by
  refine filterMap_eq_nil_iff.mpr fun event he => ?_
  obtain ⟨an, -, rfl⟩ := mem_map.mp he
  rfl

theorem preInvoked_map_event :
    (answers.map event).filterMap Event.preInvoked? = answers.map fun an => (an.hookerId, an.seen) := by
  rw [filterMap_map, ← filterMap_eq_map]
  rfl

/-- What happens in a call: the pre-hookers are asked, the executor is invoked if all let the call
pass, and those after it are other hookers. -/
theorem execute_spec (f : FinalToolCall) (answers : List Answer)
    (ha : answers = answersOf (registry.enabledHookersFor (toolHookPoint a f.toolName .pre)) (hookerVisibleCall f)) :
    (execute registry a e f).1.isDenied = !answers.all passes ∧ ∃ l : List Event, (∀ ev ∈ l, ev.IsLate) ∧
        (execute registry a e f).2 = (asked answers).map event ++
          if answers.all passes then .executed (callAfter f answers) :: l else [] := by
  subst ha
  obtain ⟨he, hd, hs⟩ := runPreHookers_spec
    (registry.enabledHookersFor (toolHookPoint a f.toolName .pre)) f
  rw [execute_eq]
  simp only [hd, he]
  cases hal : (answersOf (registry.enabledHookersFor (toolHookPoint a f.toolName .pre))
      (hookerVisibleCall f)).all passes with
  | false => exact ⟨rfl, [], forall_mem_nil _, by simp⟩
  | true =>
    rw [hs hal]
    obtain ⟨l, hl, hIsLate⟩ := executeAllowed_events registry a e
      (callAfter f (answersOf (registry.enabledHookersFor (toolHookPoint a f.toolName .pre)) (hookerVisibleCall f)))
      (runPreHookers (registry.enabledHookersFor (toolHookPoint a f.toolName .pre)) f).results
    exact ⟨isDenied_executeAllowed .., l, hIsLate, by simp [hl]⟩

/-- **Pre-hookers fail closed.** The hookers that count are those that are enabled and match the
point, in the order of their ids. They are asked up to the first that does not let the call pass.
The executor is invoked, once, exactly if all do, with the last modified input and with an entry of
`extra` for each payload that is not null; else the call is denied. Each hooker is shown the input
that those before it leave, and no `extra`. A payload that is an object gets the id of its
hooker. -/
theorem pre_hooks_fail_closed (registry : HookerRegistry Invoke) (agentId : String) (executor : Executor)
    (finalCall : FinalToolCall) : let hookPoint := toolHookPoint agentId finalCall.toolName .pre
    let hookers := registry.enabledHookersFor hookPoint
    let answers := answersOf hookers (hookerVisibleCall finalCall)
    let outcome := execute registry agentId executor finalCall
    (∀ hooker, hooker ∈ hookers ↔
      hooker ∈ registry.hookers ∧ hookPointMatches hooker.hookPoint hookPoint ∧ registry.isEnabled hooker.id) ∧
    hookers.Pairwise (fun left right => left.id ≤ right.id) ∧
    outcome.2.filterMap Event.preInvoked? = (asked answers).map (fun an => (an.hookerId, an.seen)) ∧
    outcome.2.filterMap Event.executed? = (if answers.all passes then [callAfter finalCall answers] else []) ∧
    outcome.1.isDenied = !answers.all passes ∧
    (∀ before an af, answers = before ++ an :: af →
      an.seen = { finalCall with input := lastInput finalCall.input before, extra := none }) ∧
    ∀ hookerId es, ∃ s : Json.Tree .entries, stampedExtra? hookerId (some (.object es)) = some (.object s) ∧
        ∀ key, s.lookup key = if key = "hooker_id" then some (.string hookerId) else es.lookup key := by
  intro hookPoint hookers answers outcome
  obtain ⟨hd, l, hl, hev⟩ := execute_spec registry agentId executor finalCall answers rfl
  refine ⟨?_, ?_, ?_, ?_, hd, fun _ _ _ => seen_of_answersOf, fun hookerId es => ?_⟩
  · intro hooker
    simp only [hookers, HookerRegistry.enabledHookersFor, HookerRegistry.listForHookPoint, mem_insertionSort,
      mem_filter, and_assoc]
  · exact pairwise_insertionSort _ _
  · have hn : l.filterMap Event.preInvoked? = [] :=
      filterMap_eq_nil_iff.mpr fun ev he => (hl ev he).2
    rw [hev, filterMap_append, preInvoked_map_event]
    split
    · rw [filterMap_cons_none rfl, hn, append_nil]
    · rw [filterMap_nil, append_nil]
  · have hn : l.filterMap Event.executed? = [] :=
      filterMap_eq_nil_iff.mpr fun ev he => (hl ev he).1
    rw [hev, filterMap_append, executed_map_event]
    split
    · have hex : (Event.executed (callAfter finalCall answers)).executed? = some (callAfter finalCall answers) := rfl
      rw [filterMap_cons_some hex, hn, nil_append]
    · rfl
  · exact ⟨_, rfl, fun key => Json.Tree.lookup_insert "hooker_id" key (.string hookerId) es⟩

/-- **The payloads are not passed on as they are**: the only hooker allows the call with an object,
and the executor is given the object with the id of the hooker in it. -/
theorem extra_is_stamped : let payload : Json.Value := .object (.entry "risk" (.string "low") .noEntries)
    let registry : HookerRegistry Invoke :=
      ⟨[⟨"audit", "*.Tool.*.pre", fun _ => .ok (.pre (.allow (some payload)))⟩], ["audit"]⟩
    let call : FinalToolCall := ⟨"call-1", "bash", .null, none⟩
    let given := (execute registry "main" (fun _ => .ok (.completed (.success "done")))
      call).2.filterMap Event.executed?
    given.map FinalToolCall.extra =
        [some (.array (.item (.object
          (.entry "hooker_id" (.string "audit") (.entry "risk" (.string "low") .noEntries))) .noItems))] ∧
      given.map FinalToolCall.extra ≠ [some (.array (.item payload .noItems))] := by
  decide +kernel

/-! ### Error-hookers -/

/-- What an error-hooker answers to a failure; other answers and errors are passed over. -/
def errorAnswer? : Option ErrorHookResult :=
  match hooker.invoke (.error (hookerVisibleCall call) error) with
  | .ok (.error result) => some result
  | _ => none

def ErrorHookResult.recovered? : ErrorHookResult → Option String
  | .recover output => some output
  | .propagate => none

/-- The result that the answers ask for: the first output to recover with, and else the failure. -/
def recoveredResult (preHookResults : List PreHookResult) (error : ToolExecutionError)
    (results : List ErrorHookResult) :
    ToolExecutionResult :=
  match results.findSome? ErrorHookResult.recovered? with
  | some output => .completed call (.success output) preHookResults []
  | none => .failed call preHookResults results error

theorem runErrorHookers_results :
    (runErrorHookers call error hookers).results = hookers.filterMap (errorAnswer? call error) := by
  induction hookers with
  | nil => rfl
  | cons hooker hookers ih =>
    rw [runErrorHookers, filterMap_cons, errorAnswer?]
    split
    · exact congrArg _ ih
    · exact ih

/-- **The error-hookers are asked, and their answers change nothing**: a call whose executor fails
is returned as failed, with the answers beside the error. This is what they ask for exactly if none
of them recovers. -/
theorem failed_unless_recovered (registry : HookerRegistry Invoke) (agentId : String) (executor : Executor)
    (finalCall : FinalToolCall) (error : ToolExecutionError) :
    let pre := runPreHookers (registry.enabledHookersFor (toolHookPoint agentId finalCall.toolName .pre)) finalCall
    let results := (registry.enabledHookersFor (toolHookPoint agentId pre.state.toolName .error)).filterMap
      (errorAnswer? pre.state error)
    pre.results.any PreHookResult.isDeny = false → executor pre.state = .error error →
      (execute registry agentId executor finalCall).1 = .failed pre.state pre.results results error ∧
      ((execute registry agentId executor finalCall).1 = recoveredResult pre.state pre.results error results ↔
        results.findSome? ErrorHookResult.recovered? = none) := by
  intro pre results hd he
  have hf : (execute registry agentId executor finalCall).1 = .failed pre.state pre.results results error := by
    rw [execute_eq, if_neg (by simp [pre, hd])]
    simp only [executeAllowed, pre, he, collectErrorHookResults, runErrorHookSequence, hookersOfStage_eq, Except.map,
      runErrorHookers_results]
    rfl
  refine ⟨hf, ?_⟩
  rw [hf]
  unfold recoveredResult
  cases results.findSome? ErrorHookResult.recovered? <;> simp

/-- A hooker that has an answer to every failure. -/
def errorHooker (result : ErrorHookResult) : HookerRegistry Invoke :=
  ⟨[⟨"fallback", "*.Tool.*.error", fun _ => .ok (.error result)⟩], ["fallback"]⟩

theorem failed_unless_recovered_propagate :
    (execute (errorHooker .propagate) "main" (fun _ => .error (.timeout 5)) ⟨"call-1", "bash", .null, none⟩).1 =
      recoveredResult ⟨"call-1", "bash", .null, none⟩ [] (.timeout 5) [.propagate] :=
  (failed_unless_recovered (errorHooker .propagate) "main" (fun _ => .error (.timeout 5))
    ⟨"call-1", "bash", .null, none⟩
    (.timeout 5) (by decide +kernel) rfl).2.mpr (by decide +kernel)

/-- **A hooker recovers, and the call fails**: the result is not the completed one that the hooker
asks for. -/
theorem recovered_call_fails :
    (execute (errorHooker (.recover "cached")) "main" (fun _ => .error (.timeout 5))
      ⟨"call-1", "bash", .null, none⟩).1 =
        .failed ⟨"call-1", "bash", .null, none⟩ [] [.recover "cached"] (.timeout 5) ∧
      recoveredResult ⟨"call-1", "bash", .null, none⟩ [] (.timeout 5) [.recover "cached"] =
        .completed ⟨"call-1", "bash", .null, none⟩ (.success "cached") [] [] := by
  decide +kernel

end XiaoO.Tool
