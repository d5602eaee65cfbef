import XiaoO.Base.Runs
import XiaoO.Base.Serde
import XiaoO.Base.Text
import XiaoO.Base.Utf8

/-!
# Which messages answer a request

The clients of LSP servers (`lsp/src/client.rs`) and of MCP servers over stdio and SSE
(`mcp/src/transport`) keep a map of pending requests by their ids. A task reads what the server
sends and completes the pending request whose id a message has. The ids of a server's own requests
are chosen by the server, and may be those of pending requests.

## The model

A message is what the reader is given: the body of an LSP message, a line of stdout or the text of
an SSE event; how bytes are cut into these is left out. It is read as the source reads it: an LSP
message is any JSON value, and an MCP message is the first of `JsonRpcResponse` and
`JsonRpcNotification` that it can be read as. A client adds requests and takes them back at any time
(after a timeout, say). How `serde_json` reads a text is a parameter: it gives a value that has all
entries of the text. So is `Url::join`. Left out are the warnings.

## What is proved

No reader asks if a message has a `method`, so a server's own request completes the client's request
with its id, and the caller gets `null` or an error (`server_request_answers`). Requests are
completed by responses only, if every message that has the id of a pending request has a `result` or
an `error` and no `method` (`only_responses_answer`). Every request is accounted for once
(`accounted_of_run`).
-/

namespace XiaoO.JsonRpc

open XiaoO.Base Option Json Json.Tree

/-! ### MCP messages -/

inductive Id where
  | num (n : ℕ)
  | str (s : String)
  deriving DecidableEq

def Id.asU64 : Id → Option ℕ
  | .num n => some n
  | .str s => parseU64? s.toList

variable (v : Json.Value)

def readId : Option Id := (v.asU64.map Id.num).or (v.asStr.map Id.str)

structure JsonRpcError where
  code : ℤ
  message : String
  data : Option Json.Value

def readError : Option JsonRpcError := do
  match ← Json.readFields ["code", "message", "data"] 2 v with
  | [code, message, data] =>
    let code ← code.bind asI64
    let message ← message.bind asStr
    let data ← Json.optionalField some data
    some { code, message, data }
  | _ => none

structure JsonRpcResponse where
  jsonrpc : String
  id : Id
  result : Option Json.Value
  error : Option JsonRpcError

def readResponse : Option JsonRpcResponse := do
  match ← Json.readFields ["jsonrpc", "id", "result", "error"] 4 v with
  | [jsonrpc, id, result, error] =>
    let jsonrpc ← jsonrpc.bind asStr
    let id ← id.bind readId
    let result ← Json.optionalField some result
    let error ← Json.optionalField readError error
    some { jsonrpc, id, result, error }
  | _ => none

structure JsonRpcNotification where
  jsonrpc : String
  method : String
  params : Option Json.Value

def readNotification : Option JsonRpcNotification := do
  match ← Json.readFields ["jsonrpc", "method", "params"] 3 v with
  | [jsonrpc, method, params] =>
    let jsonrpc ← jsonrpc.bind asStr
    let method ← method.bind asStr
    let params ← Json.optionalField some params
    some { jsonrpc, method, params }
  | _ => none

/-- `InboundMessage`: the first variant that can be read. -/
inductive InboundMessage where
  | response (response : JsonRpcResponse)
  | notification (notification : JsonRpcNotification)

def readInboundMessage : Option InboundMessage :=
  ((readResponse v).map .response).or ((readNotification v).map .notification)

/-! ### SSE events -/

/-- The fields of an event that `handle_sse_event` takes. -/
structure SseEvent where
  eventType : List Char := []
  data : List Char := []

def SseEvent.line (event : SseEvent) (line : List Char) : SseEvent :=
  match stripPrefix? "event:".toList line with
  | some rest => { event with eventType := trim rest }
  | none =>
    match stripPrefix? "data:".toList line with
    | some rest => { event with data := (if event.data = [] then [] else event.data ++ ['\n']) ++ trim rest }
    | none => event

def readSseEvent (raw : String) : SseEvent := (textLines raw).foldl (fun event line => event.line line.toList) {}

/-- `resolve_url`, where `join` is nothing if the base cannot be parsed or joined. -/
def resolveUrl (join : String → String → Option String) (base endpoint : String) : String :=
  if "http://".toList.isPrefixOf endpoint.toList ∨ "https://".toList.isPrefixOf endpoint.toList then endpoint
  else (join base endpoint).getD endpoint

/-! ### Clients -/

/-- What a reader is given. -/
inductive Received where
  | lsp (body : List UInt8)
  | stdio (line : String)
  | sse (raw : String)
  deriving DecidableEq

/-- The ids of the pending requests, those that were completed with what completed them, the
notifications that were passed on, and where requests are sent to. -/
structure Client where
  pending : List ℕ := []
  completed : List (ℕ × Received) := []
  notified : List (String × Json.Value) := []
  postUrl : String := ""

variable (parse : List Char → Option Json.Value) (client : Client) (message : Received)

namespace Client

/-- `pending.remove`, and `send` if there was a request. -/
def complete (id : ℕ) (message : Received) : Client :=
  if id ∈ client.pending then
    { client with pending := client.pending.filter (· ≠ id), completed := (id, message) :: client.completed }
  else client

/-- One round of the LSP client's `reader_loop`. -/
def receiveLsp (body : List UInt8) : Client :=
  match if ValidUtf8 body then parse (fromUtf8Lossy body) else none with
  | none => client
  | some msg =>
    match (msg.get? "id").bind asU64 with
    | some id => client.complete id (.lsp body)
    | none =>
      match (msg.get? "method").bind asStr with
      | some method => { client with notified := (method, (msg.get "params")) :: client.notified }
      | none => client

/-- What both MCP readers do with a message. -/
def dispatch : Option InboundMessage → Client
  | some (.response response) =>
    match response.id.asU64 with
    | some id => client.complete id message
    | none => client
  | some (.notification _) => client
  | none => client

/-- One round of the stdio `reader_loop`. -/
def receiveStdio (line : String) : Client :=
  if isBlank line then client
  else client.dispatch (.stdio line) ((parse line.toList).bind readInboundMessage)

/-- `handle_sse_event`. -/
def receiveSse (join : String → String → Option String) (baseUrl : String) (client : Client)
    (raw : String) : Client :=
  let event := readSseEvent raw
  if event.eventType = "endpoint".toList then
    let newUrl := trim event.data
    if newUrl = [] then client else { client with postUrl := resolveUrl join baseUrl (String.ofList newUrl) }
  else if trim event.data = [] then client
  else client.dispatch (.sse raw) ((parse (trim event.data)).bind readInboundMessage)

end Client

/-- What happens at a client: a request is added to the map, or taken out again, and a message is
received. -/
inductive Label where
  | request (id : ℕ)
  | forget (id : ℕ)
  | receive (message : Received)

variable (join : String → String → Option String) (baseUrl : String)

def receive (client : Client) : Received → Client
  | .lsp body => client.receiveLsp parse body
  | .stdio line => client.receiveStdio parse line
  | .sse raw => client.receiveSse parse join baseUrl raw

def step (client : Client) : Label → Option Client
  | .request id => some { client with pending := client.pending.insert id }
  | .forget id => some { client with pending := client.pending.filter (· ≠ id) }
  | .receive message => some (receive parse join baseUrl client message)

/-! ### What the caller gets -/

/-- What LSP's `request` returns for a message, with the code and the message of an error. -/
def lspAnswer (resp : Json.Value) : Except (ℤ × String) Json.Value :=
  match resp.get? "error" with
  | some err =>
    .error (((err.get? "code").bind asI64).getD (-1),
      ((err.get? "message").bind asStr).getD "unknown error")
  | none => .ok (resp.get "result")

/-- The errors of `send_request` for a response. -/
inductive McpError where
  | serverError (code : ℤ) (message : String)
  | protocol (message : String)
  deriving DecidableEq

/-- What MCP's `send_request` returns for a response. -/
def mcpAnswer (resp : JsonRpcResponse) : Except McpError Json.Value :=
  match resp.error with
  | some err => .error (.serverError err.code err.message)
  | none =>
    match resp.result with
    | some result => .ok result
    | none => .error (.protocol "empty result")

/-! ### Responses -/

def responseId? : Json.Value → Option Id
  | .array items => (items.toList[1]?).bind readId
  | v => (v.get? "id").bind readId

namespace Received

def value? : Received → Option Json.Value
  | lsp body => if ValidUtf8 body then parse (fromUtf8Lossy body) else none
  | stdio line => parse line.toList
  | sse raw => parse (trim (readSseEvent raw).data)

/-- The id that a reader takes from a value. An MCP reader also takes one that is a string with the
number, and the second item of an array. -/
def idOf (v : Json.Value) : Option ℕ :=
  match message with
  | lsp _ => (v.get? "id").bind asU64
  | _ => (responseId? v).bind Id.asU64

end Received

/-- It has a `result` or an `error`, and no `method`. -/
def IsResponse : Prop :=
  ((v.get? "result").isSome ∨ (v.get? "error").isSome) ∧ v.get? "method" = none
  deriving Decidable

/-- The message is a response with the id. -/
def Answers (id : ℕ) : Prop :=
  ∃ v, message.value? parse = some v ∧ message.idOf v = some id ∧ IsResponse v

instance (id : ℕ) : Decidable (Answers parse message id) :=
  decidable_of_iff ((message.value? parse).any fun v => message.idOf v = some id ∧ IsResponse v)
    (by simp [Answers, Option.any_eq_true])

/-- A message that has the id of a pending request is a response. -/
def IdsApart : Label → Prop
  | .receive message => ∀ v ∈ message.value? parse, ∀ id ∈ message.idOf v, id ∈ client.pending → IsResponse v
  | _ => True

instance : DecidableRel (IdsApart parse) := fun client label =>
  match label with
  | .request _ => isTrue trivial
  | .forget _ => isTrue trivial
  | .receive message =>
    decidable_of_iff ((message.value? parse).all fun v => (message.idOf v).all fun id =>
        decide (id ∈ client.pending → IsResponse v))
      (by simp only [IdsApart, Option.all_eq_true, decide_eq_true_eq, Option.mem_def])

/-! ### What a message does -/

variable {v : Json.Value} {client : Client} {message : Received}

/-- The id of a response that can be read. -/
theorem responseId?_of_readResponse {r : JsonRpcResponse} (h : readResponse v = some r) :
    responseId? v = some r.id := by
  simp only [readResponse, bind_eq_bind, bind_eq_some_iff] at h
  obtain ⟨fs, hf, hr⟩ := h
  split at hr
  · rename_i j id rs error
    simp only [bind_eq_some_iff, some.injEq] at hr
    obtain ⟨_, -, _, ⟨iv, rfl, hid⟩, _, -, _, -, rfl⟩ := hr
    cases v with
    | object =>
      rw [responseId?, lookup_of_readFields (i := 1) hf rfl rfl]
      · exact hid
      · simp
    | array =>
      rw [responseId?, item_of_readFields (i := 1) hf rfl]
      exact hid
    | _ => simp [readFields] at hf
  · contradiction

/-- A message completes the pending request whose id it has. -/
def Completes (client next : Client) (message : Received) : Prop :=
  ∃ id ∈ client.pending, (∃ v, message.value? parse = some v ∧ message.idOf v = some id) ∧
    next.pending = client.pending.filter (· ≠ id) ∧ next.completed = (id, message) :: client.completed

/-- It changes nothing in the map. -/
def Spares (client next : Client) : Prop := next.pending = client.pending ∧ next.completed = client.completed

variable {parse} in
theorem completes_or_spares_complete {id : ℕ} (hv : message.value? parse = some v) (hid : message.idOf v = some id) :
    Completes parse client (client.complete id message) message ∨ Spares client (client.complete id message) := by
  unfold Client.complete
  split
  · exact .inl ⟨id, ‹_›, ⟨v, hv, hid⟩, rfl, rfl⟩
  · exact .inr ⟨rfl, rfl⟩

theorem completes_or_spares_lsp (client : Client) (b : List UInt8) :
    Completes parse client (client.receiveLsp parse b) (.lsp b) ∨ Spares client (client.receiveLsp parse b) := by
  unfold Client.receiveLsp
  split
  · exact .inr ⟨rfl, rfl⟩
  · rename_i m hm
    split
    · rename_i id hid
      exact completes_or_spares_complete hm hid
    · split
      · exact .inr ⟨rfl, rfl⟩
      · exact .inr ⟨rfl, rfl⟩

variable {parse} in
theorem completes_or_spares_dispatch (hv : message.value? parse = some v)
    (hi : message.idOf v = (responseId? v).bind Id.asU64) :
    Completes parse client (client.dispatch message (readInboundMessage v)) message ∨
      Spares client (client.dispatch message (readInboundMessage v)) := by
  unfold readInboundMessage
  cases hr : readResponse v with
  | some =>
    simp only [map_some, some_or, Client.dispatch]
    split
    · rename_i id hid
      refine completes_or_spares_complete hv ?_
      rw [hi, responseId?_of_readResponse hr]
      exact hid
    · exact .inr ⟨rfl, rfl⟩
  | none =>
    cases readNotification v with
    | some | none => exact .inr ⟨rfl, rfl⟩

/-- What a received message does to the map of pending requests, whichever the reader. -/
theorem completes_or_spares (client : Client) (message : Received) :
    Completes parse client (receive parse join baseUrl client message) message ∨
      Spares client (receive parse join baseUrl client message) := by
  cases message with
  | lsp b => exact completes_or_spares_lsp parse client b
  | stdio l =>
    rw [receive, Client.receiveStdio]
    split
    · exact .inr ⟨rfl, rfl⟩
    · cases hv : parse l.toList with
      | none => exact .inr ⟨rfl, rfl⟩
      | some => exact completes_or_spares_dispatch hv rfl
  | sse r =>
    simp only [receive, Client.receiveSse]
    split
    · split
      · exact .inr ⟨rfl, rfl⟩
      · exact .inr ⟨rfl, rfl⟩
    · split
      · exact .inr ⟨rfl, rfl⟩
      · cases hv : parse (trim (readSseEvent r).data) with
        | none => exact .inr ⟨rfl, rfl⟩
        | some => exact completes_or_spares_dispatch hv rfl

/-- Where ids are kept apart, a message that completes a request is a response with its id. -/
theorem Completes.answers {next : Client} (h : Completes parse client next message)
    (ha : IdsApart parse client (.receive message)) :
    ∃ id ∈ client.pending, Answers parse message id ∧ next.pending = client.pending.filter (· ≠ id) ∧
      next.completed = (id, message) :: client.completed := by
  obtain ⟨id, hm, ⟨v, hv, hid⟩, hp, hc⟩ := h
  exact ⟨id, hm, ⟨v, hv, hid, ha v hv id hid hm⟩, hp, hc⟩

/-- One step: what is completed in it is completed by a response. -/
theorem answered_step {s next : Client} {l : Label}
    (hcl : ∀ e ∈ client.completed, e ∈ s.completed ∨ Answers parse e.2 e.1)
    (hap : IdsApart parse client l) (hs : step parse join baseUrl client l = some next) :
    ∀ e ∈ next.completed, e ∈ s.completed ∨ Answers parse e.2 e.1 := by
  cases l with
  | request | forget =>
    cases hs
    exact hcl
  | receive message =>
    cases hs
    obtain hcm | ⟨-, hc⟩ := completes_or_spares parse join baseUrl client message
    · obtain ⟨id, -, ha, -, hc⟩ := hcm.answers parse hap
      rw [hc]
      exact List.forall_mem_cons.mpr ⟨.inr ha, hcl⟩
    · rw [hc]
      exact hcl

/-- **Only responses answer requests**, if every message that has the id of a pending request has a
`result` or an `error` and no `method`: all requests that are completed in a run are completed by
responses with their ids, and a message completes one of the pending requests so, or it leaves the
map as it is. -/
theorem only_responses_answer {start client : Client}
    (h : RunUnder (step parse join baseUrl) (IdsApart parse) start client) :
    (∀ entry ∈ client.completed, entry ∈ start.completed ∨ Answers parse entry.2 entry.1) ∧
      ∀ message next, IdsApart parse client (.receive message) →
        step parse join baseUrl client (.receive message) = some next →
        (∃ id ∈ client.pending, Answers parse message id ∧ next.pending = client.pending.filter (· ≠ id) ∧
          next.completed = (id, message) :: client.completed) ∨
        next.pending = client.pending ∧ next.completed = client.completed := by
  constructor
  · exact h.invariant (fun _ he => .inl he) fun hcl ha hs => answered_step parse join baseUrl hcl ha hs
  · intro message next ha hs
    cases hs
    obtain hc | hsp := completes_or_spares parse join baseUrl client message
    · exact .inl (hc.answers parse ha)
    · exact .inr hsp

/-- Some messages, with what is read from them. -/
def messages : List (String × Json.Value) :=
  [("\x7b\"jsonrpc\":\"2.0\",\"id\":5,\"method\":\"ping\"\x7d",
      record [("jsonrpc", .string "2.0"), ("id", .number (.posInt 5)), ("method", .string "ping")]),
    ("\x7b\"jsonrpc\":\"2.0\",\"id\":1,\"result\":true\x7d",
      record [("jsonrpc", .string "2.0"), ("id", .number (.posInt 1)), ("result", .bool true)]),
    ("\x7b\"jsonrpc\":\"2.0\",\"id\":\"2\",\"result\":\x7b\x7d\x7d",
      record [("jsonrpc", .string "2.0"), ("id", .string "2"), ("result", record [])]),
    ("\x7b\"jsonrpc\":\"2.0\",\"id\":1,\"method\":\"ping\"\x7d",
      record [("jsonrpc", .string "2.0"), ("id", .number (.posInt 1)), ("method", .string "ping")])]

/-- How they are read. -/
def parseMessage : List Char → Option Json.Value := (Json.Codec.ofTable messages).fromStr

theorem only_responses_answer_stdio :
    ∃ client : Client, RunUnder (step parseMessage (fun _ _ => none) "") (IdsApart parseMessage) {} client ∧
      client.completed.map Prod.fst = [2, 1] ∧
      ∀ entry ∈ client.completed, entry ∈ ({} : Client).completed ∨ Answers parseMessage entry.2 entry.1 :=
  (exists_run_of_exec _ _ _ _ [.request 1, .request 2,
      .receive (.stdio "\x7b\"jsonrpc\":\"2.0\",\"id\":5,\"method\":\"ping\"\x7d"),
      .receive (.stdio "\x7b\"jsonrpc\":\"2.0\",\"id\":1,\"result\":true\x7d"),
      .receive (.sse "data: \x7b\"jsonrpc\":\"2.0\",\"id\":\"2\",\"result\":\x7b\x7d\x7d")] (by decide +kernel)).imp
    fun client ⟨hr, hc⟩ => ⟨hr, hc, (only_responses_answer parseMessage (fun _ _ => none) "" hr).1⟩

/-- A request that a server makes with an id of its own, which is also that of a client's
request. -/
def serverRequest : String := "\x7b\"jsonrpc\":\"2.0\",\"id\":1,\"method\":\"ping\"\x7d"

/-- **A server's request answers a client's request** with the same id, whichever the reader, though
it is not a response. Where it is an LSP server's, the caller is told that the result is `null`, and
else that the result is empty. -/
theorem server_request_answers :
    (∀ message ∈ [Received.lsp (utf8Encode serverRequest.toList), .stdio serverRequest,
      .sse ("data: " ++ serverRequest)],
      ¬Answers parseMessage message 1 ∧
        ∃ client : Client, RunUnder (step parseMessage (fun _ _ => none) "") Always {} client ∧
          client.pending = [] ∧ client.completed = [(1, message)]) ∧
    (parseMessage serverRequest.toList).map lspAnswer = some (.ok .null) ∧
    ((parseMessage serverRequest.toList).bind readResponse).map
      mcpAnswer = some (.error (.protocol "empty result")) := by
  refine ⟨?_, by decide +kernel, by decide +kernel⟩
  intro message hm
  have ha : ¬Answers parseMessage message 1 := by
    revert message
    decide +kernel
  have he : (exec (step parseMessage (fun _ _ => none) "") Always [.request 1, .receive message] {}).any
      (fun client => decide (client.pending = [] ∧ client.completed = [(1, message)])) = true := by
    revert message
    decide +kernel
  exact ⟨ha, exists_run_of_exec _ _ _ _ _ he⟩

/-! ### Ids from a counter -/

/-- A client, its `next_id`, the ids that calls took but did not add yet, and those that were taken
back. -/
structure Caller where
  nextId : ℕ := 1
  taken : List ℕ := []
  forgotten : List ℕ := []
  client : Client := {}

/-- A call takes an id, or something happens at the client. A request has an id that was taken. -/
def callStep (s : Caller) : Option Label → Option Caller
  | none => some { s with nextId := (s.nextId + 1) % 2 ^ 64, taken := s.nextId :: s.taken }
  | some label => do
    let client ← step parse join baseUrl s.client label
    match label with
    | .request id => if id ∈ s.taken then some { s with taken := s.taken.erase id, client } else none
    | .forget id => some { s with forgotten := s.client.pending.filter (· = id) ++ s.forgotten, client }
    | .receive _ => some { s with client }

/-- The counter does not wrap around. -/
def IdsLeft (s : Caller) : Option Label → Prop
  | none => s.nextId + 1 < 2 ^ 64
  | some _ => True

instance : DecidableRel IdsLeft := fun s label =>
  match label with
  | none => inferInstanceAs (Decidable (s.nextId + 1 < 2 ^ 64))
  | some _ => isTrue trivial

/-- Taken, forgotten, pending and completed. -/
def Caller.ids (s : Caller) : List ℕ :=
  s.taken ++ (s.forgotten ++ (s.client.pending ++ s.client.completed.map Prod.fst))

/-- They are those that were given out, each once. -/
def Caller.Accounted (s : Caller) : Prop := (0 :: s.ids).Perm (List.range s.nextId)

theorem Caller.Accounted.step {s t : Caller} {label : Option Label} (h : s.Accounted) (hl : IdsLeft s label)
    (hs : callStep parse join baseUrl s label = some t) : t.Accounted := by
  unfold Accounted ids at h ⊢
  match label with
  | none =>
    cases hs
    rw [Nat.mod_eq_of_lt hl, List.range_succ]
    grind
  | some (.request id) =>
    dsimp only [callStep, JsonRpc.step, bind_some] at hs
    split at hs <;> cases hs
    have hn := h.symm.nodup List.nodup_range
    have hp := List.perm_cons_erase ‹id ∈ s.taken›
    rw [List.insert_of_not_mem (by grind)]
    grind
  | some (.forget id) =>
    cases hs
    have hp := List.filter_append_perm (· = id) s.client.pending
    grind
  | some (.receive message) =>
    cases hs
    obtain ⟨id, hm, -, hp, hc⟩ | ⟨hp, hc⟩ := completes_or_spares parse join baseUrl s.client message
    · -- the id moves from the pending ones to the completed ones
      have hn := h.symm.nodup List.nodup_range
      have he := List.perm_cons_erase hm
      rw [List.Nodup.erase_eq_filter (by grind)] at he
      rw [hp, hc]
      grind
    · rwa [hp, hc]

/-- **Every request is accounted for once**, in whatever order things happen, until the counter
wraps around: none is completed twice or after it was taken back, none takes the place of another in
the map, and none is lost. -/
theorem accounted_of_run {s : Caller} (h : RunUnder (callStep parse join baseUrl) IdsLeft {} s) : s.Accounted :=
  h.invariant (.refl _) fun hi hl hs => hi.step parse join baseUrl hl hs

theorem accounted_of_run_swapped : ∃ s : Caller, RunUnder (callStep parseMessage (fun _ _ => none) "") IdsLeft {} s ∧
    s.ids = [3, 2, 1] ∧ s.Accounted :=
  (exists_run_of_exec _ _ _ _ [none, none, some (.request 2), some (.request 1), none, some (.forget 2),
    some (.receive (.stdio serverRequest))] (by decide +kernel)).imp fun _ ⟨hr, hs⟩ =>
      ⟨hr, hs, accounted_of_run _ _ _ hr⟩

end XiaoO.JsonRpc
