import XiaoO.Base.Runs
import XiaoO.Base.Json
import XiaoO.Base.Text

/-!
# What is written to an LSP server

`LspServerInstance` (`lsp/src/instance.rs`) opens files and sends requests through an `LspClient`
(`lsp/src/client.rs`). A request is written by its caller, who then waits for the answer. A
notification is written by a task of its own, which `notify` spawns: the task asks for the lock of
the server's stdin when it gets to run.

## The model

The caller makes one call after the other. `open_file` starts the server first, where it does not
run: the process is spawned, `initialize` is answered, and `initialized` is notified. The lock is
given to those who ask for it in the order in which they ask, and who holds it writes a whole
message. A message is issued when `request` or `notify` is called; the tasks of those that have not
asked for the lock yet may do so in any order. Versions are of 32 bits and wrap around, as in a
release build. Left out are the waits for diagnostics, writes that fail, and `shutdown`.

## What is proved

Messages are written in the order of the calls, and the versions of each file are 1, 2 and so on,
beginning with the one that opens it, if a task asks for the lock only when all issued before it
have asked, and no version wraps around (`written_in_call_order`). Nothing in the source sees to
that: a change may be written before the file is opened (`change_before_open`).
-/

namespace XiaoO.Lsp

open XiaoO.Base List Option

inductive Message where
  /-- The method `initialize`. -/
  | start (id : ℕ) (rootUri : String)
  | initialized
  | didOpen (uri languageId : String) (version : ℤ) (text : String)
  | didChange (uri : String) (version : ℤ) (text : String)
  | request (id : ℕ) (method : String) (params : Json.Value)
  deriving DecidableEq

inductive State where
  | stopped
  | running
  | failed (message : String)
  deriving DecidableEq

inductive Caller where
  | idle
  /-- In `spawn_process`, with the file that is to be opened. -/
  | starting (path text : String)
  /-- It waits for the answer to `initialize`, the message with the number. -/
  | initializing (number : ℕ) (path text : String)
  /-- It waits for the answer to a request. -/
  | requesting (number : ℕ)
  deriving DecidableEq

/-- What of `ServerConfig` is used here, and the root. -/
structure ServerConfig where
  id : String
  languageId : String
  rootUri : String

/-- A message with its number in the order of the calls. -/
abbrev Issued := ℕ × Message

/-- `LspServerInstance`, with its client and the tasks of the client. -/
structure Server where
  state : State := .stopped
  crashCount : ℕ := 0
  openFiles : String → Option ℤ := fun _ => none
  nextId : ℕ := 1
  caller : Caller := .idle
  /-- All messages of the client, in the order of the calls. -/
  issued : List Issued := []
  /-- Those whose task or caller has not asked for the lock. -/
  tasks : List Issued := []
  /-- Those that have; the first one holds the lock. -/
  line : List Issued := []
  written : List Issued := []

def maxCrashes : ℕ := 3

def pathToUri (path : String) : String :=
  if ['/'].isPrefixOf path.toList then "file://" ++ path else "file:///" ++ replaceChar '\\' "/" path

/-- An `i32`, where more than its greatest value wraps around. -/
def wrapI32 (n : ℤ) : ℤ := (n + 2 ^ 31) % 2 ^ 32 - 2 ^ 31

variable (server : Server)

namespace Server

/-- A message is handed to its task, or to the caller. -/
def issue (message : Message) : Server :=
  { server with
    issued := server.issued ++ [(server.issued.length, message)]
    tasks := server.tasks ++ [(server.issued.length, message)] }

/-- What `open_file` does when the server runs. -/
def openFile (config : ServerConfig) (server : Server) (path text : String) : Server :=
  let uri := pathToUri path
  match server.openFiles uri with
  | some version =>
    let version := wrapI32 (version + 1)
    issue { server with openFiles := Function.update server.openFiles uri (some version) }
      (.didChange uri version text)
  | none =>
    issue { server with openFiles := Function.update server.openFiles uri (some 1) }
      (.didOpen uri config.languageId 1 text)

/-- `request`, up to its first wait. -/
def request (message : ℕ → Message) (caller : ℕ → Caller) : Server :=
  { server.issue (message server.nextId) with
    nextId := (server.nextId + 1) % 2 ^ 64
    caller := caller server.issued.length }

/-- A new client. -/
def connect : Server :=
  { server with nextId := 1, issued := [], tasks := [], line := [], written := [] }

/-- A start that has failed. -/
def crash : Server := { server with crashCount := server.crashCount + 1, caller := .idle }

def hasWritten (number : ℕ) : Bool := number ∈ server.written.map Prod.fst

end Server

/-- What happens: calls of the caller, the ends of its waits, a task or a caller that asks for the
lock, and a write. -/
inductive Label where
  | openFile (path text : String)
  | request (method : String) (params : Json.Value)
  | spawned (ok : Bool)
  | answered (ok : Bool)
  /-- The one at this place of those that have not asked. -/
  | ask (place : ℕ)
  | write

variable (config : ServerConfig)

def step (server : Server) : Label → Option Server
  | .openFile path text =>
    if server.caller ≠ .idle then none
    else
      match server.state with
      | .running => some (server.openFile config path text)
      | .failed _ => some server
      | .stopped =>
        if server.crashCount ≥ maxCrashes then
          some
            { server with state := .failed ("server '" ++ config.id ++ "' crashed " ++ toString server.crashCount ++
            " times, giving up") }
        else some { server with caller := .starting path text }
  | .request method params =>
    if server.caller = .idle ∧ server.state = .running then
      some (server.request (fun id => .request id method params) .requesting)
    else none
  | .spawned ok =>
    match server.caller with
    | .starting path text =>
      some (if ok then server.connect.request (fun id => .start id config.rootUri) (.initializing · path text)
        else server.crash)
    | _ => none
  | .answered ok =>
    match server.caller with
    | .initializing number path text =>
      if server.hasWritten number then
        some (if ok then
            ({ server with state := .running, caller := .idle }.issue .initialized).openFile config path text
          else server.crash)
      else none
    | .requesting number => if server.hasWritten number then some { server with caller := .idle } else none
    | _ => none
  | .ask place =>
    (server.tasks[place]?).map fun task =>
      { server with tasks := server.tasks.eraseIdx place, line := server.line ++ [task] }
  | .write =>
    match server.line with
    | [] => none
    | message :: line => some { server with line, written := server.written ++ [message] }

/-! ### Order -/

/-- Only the first of those that have not asked for the lock asks for it, and no version wraps
around. -/
def Orderly : Label → Prop
  | .ask place => place = 0
  | .openFile path _ => ∀ version ∈ server.openFiles (pathToUri path), version < 2 ^ 31 - 1
  | _ => True

instance : DecidableRel Orderly := fun server label =>
  match label with
  | .ask place => inferInstanceAs (Decidable (place = 0))
  | .openFile path _ =>
    decidable_of_iff ((server.openFiles (pathToUri path)).all fun version => decide (version < 2 ^ 31 - 1))
      (by simp only [Orderly, Option.all_eq_true, decide_eq_true_eq, Option.mem_def])
  | .request _ _ | .spawned _ | .answered _ | .write => isTrue trivial

variable (uri : String)

/-- The version of a file that a message brings, and if it opens the file. -/
def Message.version? : Message → Option (Bool × ℤ)
  | .didOpen uri' _ version _ => if uri' = uri then some (true, version) else none
  | .didChange uri' version _ => if uri' = uri then some (false, version) else none
  | _ => none

/-- What the messages of a list say of a file. -/
def versionsOf (messages : List Issued) : List (Bool × ℤ) := messages.filterMap fun issued => issued.2.version? uri

/-- The file is opened with version 1, and then changed to 2 and so on. -/
def versions (count : ℕ) : List (Bool × ℤ) := (List.range count).map fun i : ℕ => (decide (i = 0), (i : ℤ) + 1)

/-- What is issued for a file, and the version that is kept for it. -/
def Tracked (issued : List Issued) (openFiles : String → Option ℤ) : Prop :=
  ∀ uri, ∃ count : ℕ, count < 2 ^ 31 ∧ versionsOf uri issued = versions count ∧
    openFiles uri = if count = 0 then none else some (count : ℤ)

def Caller.isStarting : Caller → Prop
  | .starting _ _ | .initializing _ _ _ => True
  | _ => False

/-- The messages are written in the order of the calls, and then follow those that wait for the
lock, and those that have not asked for it. -/
structure Ordered : Prop where
  split : server.issued = server.written ++ server.line ++ server.tasks
  tracked : Tracked server.issued server.openFiles
  unopened : server.state ≠ .running → ∀ uri, server.openFiles uri = none
  starting : server.caller.isStarting → server.state = .stopped

theorem wrapI32_eq_self {n : ℤ} (hl : 0 ≤ n) (hh : n < 2 ^ 31) : wrapI32 n = n := by
  unfold wrapI32
  omega

theorem versions_succ (c : ℕ) : versions (c + 1) = versions c ++ [(decide (c = 0), (c : ℤ) + 1)] := by
  simp [versions, range_succ]

theorem versionsOf_append (f second : List Issued) :
    versionsOf uri (f ++ second) = versionsOf uri f ++ versionsOf uri second := filterMap_append

variable {m : Message} {openFiles : String → Option ℤ} {server : Server}

theorem Tracked.other {i : List Issued} {n : ℕ} (h : Tracked i openFiles) (ho : ∀ u, m.version? u = none) :
    Tracked (i ++ [(n, m)]) openFiles := by
  intro u
  obtain ⟨c, hc, hv, hop⟩ := h u
  refine ⟨c, hc, ?_, hop⟩
  rw [versionsOf_append, hv]
  simp [versionsOf, ho]

theorem Tracked.next {i : List Issued} {n : ℕ} {u : String}
    (h : Tracked i openFiles) (c : ℕ) (hc : c + 1 < 2 ^ 31) (hv : versionsOf u i = versions c)
    (hm : ∀ u', m.version? u' = if u = u' then some (decide (c = 0), (c : ℤ) + 1) else none) :
    Tracked (i ++ [(n, m)]) (Function.update openFiles u (some ((c : ℤ) + 1))) := by
  intro u'
  by_cases hu : u = u'
  · subst hu
    refine ⟨c + 1, hc, ?_, ?_⟩
    · rw [versionsOf_append, hv, versions_succ]
      simp [versionsOf, hm]
    · simp
  · obtain ⟨c', hc', hv', ho'⟩ := h u'
    refine ⟨c', hc', ?_, ?_⟩
    · rw [versionsOf_append, hv']
      simp [versionsOf, hm, hu]
    · rw [Function.update_of_ne (Ne.symm hu), ho']

theorem tracked_nil (h : ∀ u, openFiles u = none) : Tracked [] openFiles :=
  fun u => ⟨0, by decide, rfl, h u⟩

theorem Server.split_issue (h : server.issued = server.written ++ server.line ++ server.tasks) :
    (server.issue m).issued = (server.issue m).written ++ (server.issue m).line ++ (server.issue m).tasks := by
  simp only [Server.issue, h, append_assoc]

section

variable (h : Ordered server)
include h

/-- `open_file`, when the server runs. -/
theorem Ordered.openFile (hr : server.state = .running) (path text : String)
    (hvr : ∀ version ∈ server.openFiles (pathToUri path), version < 2 ^ 31 - 1) :
    Ordered (server.openFile config path text) := by
  obtain ⟨count, hc, hv, ho⟩ := h.tracked (pathToUri path)
  cases hf : server.openFiles (pathToUri path) with
  | none =>
    have hz : count = 0 := by
      by_contra hne
      simp [hf, hne] at ho
    subst hz
    simp only [Server.openFile, hf]
    refine ⟨Server.split_issue h.split, h.tracked.next 0 (by decide) hv fun uri' => ?_,
      fun hs => absurd hr hs, h.starting⟩
    simp [Message.version?]
  | some version =>
    have hve : count ≠ 0 ∧ version = count := by
      by_cases hne : count = 0
      · simp [hf, hne] at ho
      · simp only [hf, hne, if_false, some.injEq] at ho
        exact ⟨hne, ho⟩
    obtain ⟨hne, rfl⟩ := hve
    have hb := hvr count hf
    have hw : wrapI32 ((count : ℤ) + 1) = count + 1 := wrapI32_eq_self (by omega) (by omega)
    simp only [Server.openFile, hf, hw]
    refine ⟨Server.split_issue h.split, h.tracked.next count (by omega) hv fun uri' => ?_,
      fun hs => absurd hr hs, h.starting⟩
    simp [Message.version?, hne]

/-- `request`: of a method, or of `initialize` by a caller who starts the server. -/
theorem Ordered.request {ms : ℕ → Message} {c : ℕ → Caller} (ho : ∀ id u, (ms id).version? u = none)
    (hc : ∀ n, (c n).isStarting → server.state = .stopped) : Ordered (server.request ms c) where
  split := Server.split_issue h.split
  tracked := h.tracked.other (ho server.nextId)
  unopened := h.unopened
  starting := hc _

theorem Ordered.connect (hs : server.state = .stopped) : Ordered server.connect where
  split := rfl
  tracked := tracked_nil (h.unopened (by rw [hs]; decide))
  unopened := h.unopened
  starting := h.starting

theorem Ordered.crash : Ordered server.crash where
  split := h.split
  tracked := h.tracked
  unopened := h.unopened
  starting := False.elim

/-- The answer to `initialize`: no file is open, so that the one that is to be opened is opened. -/
theorem Ordered.started (hs : server.caller.isStarting) (p t : String) :
    Ordered (({ server with state := .running, caller := .idle }.issue .initialized).openFile config p t) := by
  have hn : ∀ u, server.openFiles u = none := h.unopened (by rw [h.starting hs]; decide)
  have hi : Ordered ({ server with state := .running, caller := .idle }.issue .initialized) :=
    ⟨Server.split_issue h.split, h.tracked.other fun _ => rfl, fun hst => absurd rfl hst, False.elim⟩
  refine hi.openFile config rfl p t fun v hv => ?_
  rw [Server.issue, hn] at hv
  contradiction

theorem Ordered.step {next : Server} {l : Label} (ho : Orderly server l)
    (hs : Lsp.step config server l = some next) : Ordered next := by
  cases l with simp only [Lsp.step] at hs
  | openFile p t =>
    split at hs
    · contradiction
    · rename_i hi
      have hc : ¬server.caller.isStarting := by
        rw [not_not.mp hi]
        exact id
      split at hs
      · rename_i hr
        cases hs
        exact h.openFile config hr p t ho
      · cases hs
        exact h
      · rename_i hst
        have hnn := h.unopened (by rw [hst]; decide)
        split at hs
        · cases hs
          exact ⟨h.split, h.tracked, fun _ => hnn, fun hsr => absurd hsr hc⟩
        · cases hs
          exact ⟨h.split, h.tracked, h.unopened, fun _ => hst⟩
  | request =>
    simp only [ite_none_right_eq_some, some.injEq] at hs
    obtain ⟨-, rfl⟩ := hs
    exact h.request (fun _ _ => rfl) fun _ => False.elim
  | spawned ok =>
    split at hs
    · rename_i p t hc
      have hst : server.state = .stopped := h.starting (by rw [hc]; trivial)
      cases hs
      cases ok with
      | true =>
        have hot : ∀ (id : ℕ) (uri : String), (Message.start id config.rootUri).version? uri = none := fun _ _ => rfl
        rw [if_pos rfl]
        exact (h.connect hst).request hot fun _ _ => hst
      | false => exact h.crash
    · contradiction
  | answered ok =>
    split at hs
    · rename_i n p t hc
      rw [ite_none_right_eq_some] at hs
      obtain ⟨-, hn⟩ := hs
      cases hn
      cases ok with
      | true => exact h.started config (by rw [hc]; trivial) p t
      | false => exact h.crash
    · rw [ite_none_right_eq_some] at hs
      obtain ⟨-, hn⟩ := hs
      cases hn
      exact ⟨h.split, h.tracked, h.unopened, False.elim⟩
    · contradiction
  | ask pl =>
    simp only [map_eq_some_iff] at hs
    obtain ⟨ts, hts, rfl⟩ := hs
    obtain rfl : pl = 0 := ho
    obtain ⟨r, ht⟩ := head?_eq_some_iff.mp (head?_eq_getElem? ▸ hts)
    refine ⟨?_, h.tracked, h.unopened, h.starting⟩
    simp [h.split, ht]
  | write =>
    split at hs
    · contradiction
    · rename_i m ln hl
      cases hs
      refine ⟨?_, h.tracked, h.unopened, h.starting⟩
      simp [h.split, hl]

end

theorem ordered_start : Ordered {} where
  split := rfl
  tracked := tracked_nil fun _ => rfl
  unopened := fun _ _ => rfl
  starting := False.elim

/-- A beginning of the versions is the versions up to a number. -/
theorem eq_versions_of_begin {l : List (Bool × ℤ)} {count : ℕ} (h : l <+: versions count) :
    l = versions l.length := by
  have hl : l.length ≤ count := by
    simpa [versions] using h.length_le
  have ht := prefix_iff_eq_take.mp h
  rwa [versions, ← map_take, take_range, min_eq_left hl] at ht

/-- **Messages are written in the order of the calls**, and the server is told that a file is opened
before it is told of changes, with the versions 1, 2 and so on, in every run in which those that are
issued first ask for the lock first and no version wraps around. -/
theorem written_in_call_order {server : Server} (h : RunUnder (step config) Orderly {} server) :
    server.written <+: server.issued ∧ ∀ uri, ∃ count, versionsOf uri server.written = versions count := by
  have ho : Ordered server :=
    h.invariant ordered_start fun hs hor hst => hs.step config hor hst
  have hb : server.written <+: server.issued := by
    rw [ho.split, append_assoc]
    exact prefix_append _ _
  refine ⟨hb, fun uri => ?_⟩
  obtain ⟨count, -, hv, -⟩ := ho.tracked uri
  have hw : versionsOf uri server.written <+: versions count := by
    rw [← hv]
    exact hb.filterMap _
  exact ⟨_, eq_versions_of_begin hw⟩

/-- A server that is started to open a file. -/
def startWith (path text : String) : List Label :=
  [.openFile path text, .spawned true, .ask 0, .write, .answered true]

def rust : ServerConfig := ⟨"rust-analyzer", "rust", "file:///w"⟩

theorem written_in_call_order_two_changes : ∃ server, RunUnder (step rust) Orderly {} server ∧
      versionsOf "file:///w/a.rs" server.written = [(true, 1), (false, 2), (false, 3)] ∧
        server.written <+: server.issued :=
  (exists_run_of_exec _ _ _ _
    ((startWith "/w/a.rs" "a").append [.openFile "/w/a.rs" "b", .ask 0, .openFile "/w/a.rs" "c",
      .ask 0, .write, .write, .ask 0, .ask 0, .write, .write]) (by decide +kernel)).imp
    fun server ⟨hr, hv⟩ => ⟨hr, hv, (written_in_call_order rust hr).1⟩

/-- **A change is written before the file is opened**: the task of the second call asks for the lock
first. -/
theorem change_before_open : ∃ server, RunUnder (step rust) Always {} server ∧
      versionsOf "file:///w/a.rs" server.written = [(false, 2), (true, 1)] ∧ ¬server.written <+: server.issued := by
  exact exists_run_of_exec _ _ _ _
    ((startWith "/w/a.rs" "a").append [.openFile "/w/a.rs" "b", .ask 2, .ask 1, .write, .write])
    (by decide +kernel)

end XiaoO.Lsp
