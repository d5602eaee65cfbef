import XiaoO.LlmClient.OpenAiStream

/-!
# What the caller has seen of an answer

A streamed request is tried again at two levels. `LlmProviderWrapper::complete_stream_with_retry`
makes up to six attempts and passes on a chunk with `reset` before each but the first, so that the
caller drops what it has shown. Inside one attempt, `run_with_url_fallback` goes through the
candidate URLs until one works, and passes on nothing in between.

## The model

An attempt comes with what the cached endpoint does, if there is one, and else with the candidate
URLs and what each of them does; attempts need not be alike. How errors and URLs are shortened
before they are reported is a parameter.

## What is proved

If no candidate sends text or reasoning and then a line that makes the fallback go on to the next
one, then the deltas after the last reset are the answer (`streamed_text_is_answer`): a candidate
that is given up for another reason either ends the attempt or has sent nothing. Otherwise the
answer of the next candidate comes behind what the first had sent
(`streamed_text_of_two_candidates`).
-/

namespace XiaoO.LlmClient

open XiaoO.Base List

/-! ### The candidate URLs -/

/-- The provider, with what is done to errors and URLs before they are reported. -/
structure Client where
  json : Json
  /-- `ErrorRedactor::url`. -/
  redactUrl : String → String
  /-- `ErrorRedactor::error`. -/
  redactError : LlmError → LlmError
  /-- `ErrorRedactor::url`, of a redactor for that URL alone. -/
  displayUrl : String → String

structure UrlAttemptRecord where
  index : ℕ
  url : String
  error : String

variable (json : Json) (client : Client)

def buildUrlFallbackErrorMessage (attempts : List UrlAttemptRecord) : String :=
  attempts.foldl (fun message attempt => message ++ "  #" ++ toString (attempt.index + 1) ++ ": " ++
      client.displayUrl attempt.url ++ " → " ++ attempt.error ++ "\n")
    ("All " ++ toString attempts.length ++ " endpoint URL candidates failed:\n")

/-- The error with which a transport failure ends the attempt; other errors do not end it. -/
def transportFailure? (url : String) : LlmError → Option LlmError
  | .httpError message => some (.httpError (message ++ " | endpoint: " ++ client.redactUrl url))
  | .timeout => some .timeout
  | .streamError message => some (.streamError message)
  | .ioError message => some (.ioError message)
  | _ => none

/-- The error of an attempt that ends with this candidate. -/
def fallbackError (attempts : List UrlAttemptRecord) (hasMoreCandidates : Bool) (error : LlmError) : LlmError :=
  if isConfigurationError client.json.bodyMessage error then error
  else if !hasMoreCandidates && isHttpUnauthorizedError error then error
  else if !shouldTryNextCandidate client.json.bodyMessage error then error
  else .apiError (buildUrlFallbackErrorMessage client attempts)

/-- The loop of `run_with_url_fallback` over the candidates, with what each of them does. -/
def tryCandidates (client : Client) : List UrlAttemptRecord → List (String × Response) → Streamed LlmResponse
  | attempts, [] => { chunks := [], result := .error (.apiError (buildUrlFallbackErrorMessage client attempts)) }
  | attempts, (url, endpoint) :: rest =>
    let tried := tryStreamEndpoint client.json endpoint
    match tried.result with
    | .ok response => { chunks := tried.chunks, result := .ok response }
    | .error error =>
      match transportFailure? client url error with
      | some failure => { chunks := tried.chunks, result := .error failure }
      | none =>
        let attempts := attempts ++ [{ index := attempts.length, url := url, error := error.display }]
        if !rest.isEmpty && shouldTryNextCandidate client.json.bodyMessage error then
          -- nothing tells the caller that the chunks so far are void
          let next := tryCandidates client attempts rest
          { chunks := tried.chunks ++ next.chunks, result := next.result }
        else { chunks := tried.chunks, result := .error (fallbackError client attempts (!rest.isEmpty) error) }

/-- What the endpoints do in one attempt. -/
structure Attempt where
  /-- What the cached endpoint does, if one is cached. -/
  cached : Option Response
  candidates : List (String × Response)

/-- `run_with_url_fallback` of a streaming call. -/
def completeStream (attempt : Attempt) : Streamed LlmResponse :=
  let streamed :=
    match attempt.cached with
    | some endpoint => tryStreamEndpoint client.json endpoint
    | none => tryCandidates client [] attempt.candidates
  { streamed with result := streamed.result.mapError client.redactError }

/-! ### Attempts -/

def maxStreamRetries : ℕ := 3

def maxStreamRateLimitRetries : ℕ := 5

/-- `effective_max_retries` of a streaming call. -/
def effectiveMaxRetries : LlmError → ℕ
  | .rateLimited _ _ => max maxStreamRetries maxStreamRateLimitRetries
  | _ => maxStreamRetries

/-- The error with which the request ends after a failed attempt, if it is not tried again. -/
def giveUp? (attempt : ℕ) (error : LlmError) : Option LlmError :=
  if !isRetryable error then some error
  else if attempt ≥ effectiveMaxRetries error then some (.retryExhausted (attempt + 1) error.display)
  else none

/-- The chunk that announces another attempt. -/
def resetChunk : StreamChunk where
  reset := true
  deltaText := none
  deltaReasoning := none
  deltaToolCall := none

/-- `run_with_budget` of a streaming call from an attempt on, with the number of attempts that may
follow it. -/
def runAttempts (client : Client) (attempts : ℕ → Attempt) (left attempt : ℕ) : Streamed LlmResponse :=
  let tried := completeStream client (attempts attempt)
  let chunks := (if attempt > 0 then [resetChunk] else []) ++ tried.chunks
  match tried.result with
  | .ok response => { chunks, result := .ok response }
  | .error error =>
    match giveUp? attempt error with
    | some failure => { chunks, result := .error failure }
    | none =>
      match left with
      -- does not come up, as no error allows for more attempts than `maxStreamRateLimitRetries`
      | 0 => { chunks, result := .error error }
      | left + 1 =>
        let next := runAttempts client attempts left (attempt + 1)
        { chunks := chunks ++ next.chunks, result := next.result }

def completeStreamWithRetry (attempts : ℕ → Attempt) : Streamed LlmResponse :=
  runAttempts client attempts maxStreamRateLimitRetries 0

/-! ### Quiet candidates -/

/-- The line carries text or reasoning. -/
def ParsedChunk.carriesText (parsed : ParsedChunk) : Bool :=
    parsed.content.getD "" ≠ "" || parsed.reasoning.getD "" ≠ ""

/-- The error makes the fallback go on to the next candidate. -/
def movesOn : LlmError → Bool
  | .httpError _ | .timeout | .streamError _ | .ioError _ => false
  | error => shouldTryNextCandidate json.bodyMessage error

/-- Once a line has carried text or reasoning, or if one has before, there comes a line with an
error that makes the fallback go on to the next candidate. -/
def breaksAfterText (json : Json) : Bool → List (List Char) → Bool
  | _, [] => false
  | seen, line :: lines =>
    match parseOpenaiFamilyStreamLine json line with
    | .error error => seen && movesOn json error
    | .ok none => breaksAfterText json seen lines
    | .ok (some parsed) => breaksAfterText json (seen || parsed.carriesText) lines

/-- A candidate that, once it has sent text, sends no line that makes the fallback go on. -/
def Response.Quiet : Response → Prop
  | .refused _ => True
  | .stream pieces _ => breaksAfterText json false (bodyLines pieces) = false

/-- If no endpoint is cached, every candidate but the last is quiet. -/
def Attempt.Quiet (json : Json) (attempt : Attempt) : Prop :=
  attempt.cached = none → ∀ candidate ∈ attempt.candidates.dropLast, candidate.2.Quiet json

instance (endpoint : Response) : Decidable (endpoint.Quiet json) := by
  cases endpoint <;> (delta Response.Quiet; infer_instance)

instance (attempt : Attempt) : Decidable (attempt.Quiet json) := by
  delta Attempt.Quiet
  infer_instance

/-! ### A candidate that is given up -/

variable {json : Json} {client : Client} {part : Part} {error : LlmError} {response : LlmResponse}

/-- The chunks add nothing to the answer. -/
def Silent (chunks : List StreamChunk) : Prop := ∀ chunk ∈ chunks, ∀ part : Part, (part.delta chunk).getD "" = ""

variable {chunks : List StreamChunk} {received : Received}

theorem joined_of_silent (h : Silent chunks) (start : String) : joined part start chunks = start := by
  induction chunks generalizing start with
  | nil => rfl
  | cons c chunks ih =>
    obtain ⟨hch, hc⟩ := forall_mem_cons.mp h
    rw [joined, foldl_cons, hch part, String.append_empty]
    exact ih hc start

theorem delta_of_joined_eq_empty {s : String} (h : joined part s chunks = "") :
    s = "" ∧ ∀ c ∈ chunks, (part.delta c).getD "" = "" := by
  induction chunks generalizing s with
  | nil => exact ⟨h, forall_mem_nil _⟩
  | cons c chunks ih =>
    obtain ⟨hs, hc⟩ := ih h
    obtain ⟨hs, hch⟩ := String.append_eq_empty_iff.mp hs
    exact ⟨hs, forall_mem_cons.mpr ⟨hch, hc⟩⟩

theorem processLine_error {l : List Char} (h : (processLine json received l).result = .error error) :
    parseOpenaiFamilyStreamLine json l = .error error ∧ (processLine json received l).chunks = [] := by
  rw [processLine] at h ⊢
  split_ifs at h ⊢
  split at h <;> cases h
  next hp => exact ⟨hp, rfl⟩

theorem processLine_ok {r' : Received} {l : List Char} (h : (processLine json received l).result = .ok r') :
    parseOpenaiFamilyStreamLine json l = .ok none ∧ (processLine json received l).chunks = [] ∨
      ∃ p, parseOpenaiFamilyStreamLine json l = .ok (some p) ∧
        (processLine json received l).chunks ⊆ [parsedChunkToStreamChunk json p] := by
  rw [processLine] at h ⊢
  split_ifs at h ⊢ with he
  · rw [isEmpty_iff.mp he]
    exact .inr ⟨{}, rfl, nil_subset _⟩
  · split at h <;> cases h
    · next hp => exact .inl ⟨hp, rfl⟩
    · next p hp => exact .inr ⟨p, hp, List.Subset.refl _⟩

/-- After text, an error that makes the fallback go on is one that is asked not to be there. -/
theorem breaksAfterText_of_error {ls : List (List Char)} (hm : movesOn json error = true)
    (h : (processLines json received ls).result = .error error) : breaksAfterText json true ls = true := by
  induction ls generalizing received with
  | nil => cases h
  | cons l ls ih =>
    rw [breaksAfterText]
    rcases Streamed.andThen_error h with ⟨hl, -⟩ | ⟨next, hl, hln, -⟩
    · rw [(processLine_error hl).1]
      exact hm
    · rcases processLine_ok hl with ⟨hp, -⟩ | ⟨p, hp, -⟩
      · rw [hp]
        exact ih hln
      · rw [hp]
        exact ih hln

theorem processLines_silent {ls : List (List Char)} (hm : movesOn json error = true)
    (hq : breaksAfterText json false ls = false) (h : (processLines json received ls).result = .error error) :
    Silent (processLines json received ls).chunks := by
  induction ls generalizing received with
  | nil => cases h
  | cons l ls ih =>
    rw [breaksAfterText] at hq
    rw [processLines] at h ⊢
    rcases Streamed.andThen_error h with ⟨hln, hch⟩ | ⟨next, hln, hl, hch⟩
    · rw [hch, (processLine_error hln).2]
      exact forall_mem_nil _
    · rw [hch]
      rcases processLine_ok hln with ⟨hp, hn⟩ | ⟨p, hp, hs⟩
      · rw [hp] at hq
        rw [hn, nil_append]
        exact ih hq hl
      · rw [hp] at hq
        cases hc : p.carriesText with dsimp only at hq
        | true =>
          rw [hc, Bool.or_true, breaksAfterText_of_error hm hl] at hq
          cases hq
        | false =>
          rw [hc, Bool.or_false] at hq
          refine forall_mem_append.mpr ⟨fun c hcn part => ?_, ih hq hl⟩
          rw [mem_singleton.mp (hs hcn)]
          rw [ParsedChunk.carriesText, Bool.or_eq_false_iff, decide_eq_false_iff_not, decide_eq_false_iff_not,
            not_not, not_not] at hc
          cases part with
          | text => exact hc.1
          | reasoning => exact hc.2

/-- **A candidate that is given up has sent nothing**, if it is quiet. -/
theorem tryStreamEndpoint_silent {e : Response} (hq : e.Quiet json) (hm : movesOn json error = true)
    (h : (tryStreamEndpoint json e).result = .error error) : Silent (tryStreamEndpoint json e).chunks := by
  cases e with
  | refused => exact forall_mem_nil _
  | stream ps en =>
    rw [tryStreamEndpoint] at h ⊢
    rcases Streamed.andThen_error h with ⟨hb, hc⟩ | ⟨received, hb, he, hc⟩
    · rw [hc]
      rw [processPieces_eq] at hb ⊢
      exact processLines_silent hm hq hb
    · cases en with
      | ended =>
        rw [hc, append_nil]
        rw [processPieces_eq] at hb ⊢
        intro c hch part
        -- a body that ends is given up only if nothing has been received
        have hem : part.full received = "" := by
          rw [finish] at he
          split_ifs at he with hn
          cases part with
          | text => exact String.isEmpty_iff.mp hn.1
          | reasoning => exact String.isEmpty_iff.mp hn.2.1
        have hj : joined part (part.full {}) _ = part.full received := processLines_received hb
        exact (delta_of_joined_eq_empty (hj.trans hem)).2 c hch
      | timedOut | broken =>
        cases he
        cases hm

theorem movesOn_of_next {u : String} (ht : transportFailure? client u error = none)
    (hn : shouldTryNextCandidate client.json.bodyMessage error = true) : movesOn client.json error = true := by
  cases error <;> first | exact hn | cases ht

theorem tryCandidates_ok {ats : List UrlAttemptRecord} {cs : List (String × Response)}
    (hq : ∀ c ∈ cs.dropLast, c.2.Quiet client.json) (h : (tryCandidates client ats cs).result = .ok response) :
    joined part "" (tryCandidates client ats cs).chunks = (part.answer response).getD "" := by
  induction cs generalizing ats with
  | nil => cases h
  | cons c r ih =>
    obtain ⟨u, e⟩ := c
    rw [tryCandidates] at h ⊢
    split at h
    · next hok =>
      cases h
      exact tryStreamEndpoint_ok hok
    · next error he =>
      split at h
      · cases h
      · next ht =>
        split_ifs at h ⊢ with hn
        rw [Bool.and_eq_true, Bool.not_eq_true'] at hn
        have hr : r ≠ [] := fun hnl => by simp [hnl] at hn
        rw [dropLast_cons_of_ne_nil hr] at hq
        obtain ⟨hf, hl⟩ := forall_mem_cons.mp hq
        have hs : Silent (tryStreamEndpoint client.json e).chunks :=
          tryStreamEndpoint_silent hf (movesOn_of_next ht hn.2) he
        rw [joined_append, joined_of_silent hs]
        exact ih hl h

/-! ### Resets -/

def afterLastReset (chunks : List StreamChunk) : List StreamChunk :=
  chunks.foldl (fun shown chunk => if chunk.reset then [] else shown ++ [chunk]) []

theorem afterLastReset_cons_reset (chunks : List StreamChunk) :
    afterLastReset (resetChunk :: chunks) = afterLastReset chunks := rfl

theorem afterLastReset_append_reset (chunks chunks' : List StreamChunk) :
    afterLastReset (chunks ++ resetChunk :: chunks') = afterLastReset chunks' := by
  rw [afterLastReset, foldl_append, foldl_cons]
  rfl

theorem afterLastReset_of_forall (h : ∀ c ∈ chunks, c.reset = false) : afterLastReset chunks = chunks := by
  have hs (s : List StreamChunk) : chunks.foldl (fun s c => if c.reset then [] else s ++ [c]) s = s ++ chunks := by
    induction chunks generalizing s with
    | nil => exact (append_nil s).symm
    | cons c chunks ih =>
      obtain ⟨hch, hc⟩ := forall_mem_cons.mp h
      rw [foldl_cons, hch, ih hc]
      simp
  exact hs []

theorem processLine_reset (received : Received) (l : List Char) :
    ∀ c ∈ (processLine json received l).chunks, c.reset = false := by
  rw [processLine]
  split_ifs
  · exact forall_mem_nil _
  · split
    · exact forall_mem_nil _
    · exact forall_mem_nil _
    · exact forall_mem_singleton.mpr rfl

theorem processLines_reset (received : Received) (ls : List (List Char)) :
    ∀ c ∈ (processLines json received ls).chunks, c.reset = false := by
  induction ls generalizing received with
  | nil => exact forall_mem_nil _
  | cons l ls ih => exact Streamed.forall_mem_andThen (processLine_reset received l) ih

theorem tryStreamEndpoint_reset (e : Response) : ∀ c ∈ (tryStreamEndpoint json e).chunks, c.reset = false := by
  cases e with
  | refused => exact forall_mem_nil _
  | stream ps en =>
    refine Streamed.forall_mem_andThen ?_ fun received => ?_
    · rw [processPieces_eq]
      exact processLines_reset _ _
    · cases en <;> exact forall_mem_nil _

theorem tryCandidates_reset (ats : List UrlAttemptRecord) (cs : List (String × Response)) :
    ∀ ch ∈ (tryCandidates client ats cs).chunks, ch.reset = false := by
  induction cs generalizing ats with
  | nil => exact forall_mem_nil _
  | cons c r ih =>
    obtain ⟨u, e⟩ := c
    have hf := @tryStreamEndpoint_reset client.json e
    rw [tryCandidates]
    split
    · exact hf
    · split
      · exact hf
      · split_ifs
        · exact forall_mem_append.mpr ⟨hf, ih _⟩
        · exact hf

theorem completeStream_reset (a : Attempt) : ∀ c ∈ (completeStream client a).chunks, c.reset = false := by
  rw [completeStream]
  split
  · exact tryStreamEndpoint_reset _
  · exact tryCandidates_reset _ _

/-! ### Attempts one after the other -/

theorem completeStream_ok {a : Attempt} (hq : a.Quiet client.json)
    (h : (completeStream client a).result = .ok response) :
    joined part "" (completeStream client a).chunks = (part.answer response).getD "" := by
  have hr {result : Except LlmError LlmResponse} (h : result.mapError client.redactError = .ok response) :
      result = .ok response := by
    cases result with
    | ok => exact h
    | error => cases h
  rw [completeStream] at h ⊢
  split
  · next e hc =>
    rw [hc] at h
    exact tryStreamEndpoint_ok (hr h)
  · next hc =>
    rw [hc] at h
    exact tryCandidates_ok (hq hc) (hr h)

/-- Every attempt but the first begins with a reset. -/
theorem runAttempts_reset (ats : ℕ → Attempt) (left a : ℕ) :
    ∃ chunks, (runAttempts client ats left (a + 1)).chunks = resetChunk :: chunks := by
  rw [runAttempts.eq_def]
  dsimp only
  split
  · exact ⟨_, rfl⟩
  · split
    · exact ⟨_, rfl⟩
    · split
      · exact ⟨_, rfl⟩
      · exact ⟨_, rfl⟩

theorem afterLastReset_attempt (a : ℕ) (t : Attempt) :
    afterLastReset ((if a > 0 then [resetChunk] else []) ++ (completeStream client t).chunks) =
      (completeStream client t).chunks := by
  split_ifs
  · rw [singleton_append, afterLastReset_cons_reset, afterLastReset_of_forall (completeStream_reset t)]
  · rw [nil_append, afterLastReset_of_forall (completeStream_reset t)]

/-- The attempt that succeeds is this one or a later one. -/
theorem runAttempts_cases {ats : ℕ → Attempt} {left a : ℕ}
    (h : (runAttempts client ats left a).result = .ok response) :
    (completeStream client (ats a)).result = .ok response ∧ (runAttempts client ats left a).chunks =
          (if a > 0 then [resetChunk] else []) ++ (completeStream client (ats a)).chunks ∨
      ∃ l' e, left = l' + 1 ∧ (runAttempts client ats l' (a + 1)).result = .ok response ∧
        (runAttempts client ats left a).chunks = e ++ (runAttempts client ats l' (a + 1)).chunks := by
  rw [runAttempts.eq_def] at h ⊢
  dsimp only at h ⊢
  split at h
  · next hok =>
    cases h
    exact .inl ⟨hok, rfl⟩
  · split at h
    · cases h
    · split at h
      · cases h
      · next l' => exact .inr ⟨l', _, rfl, h, rfl⟩

theorem runAttempts_ok {ats : ℕ → Attempt} (hq : ∀ n, (ats n).Quiet client.json) {left a : ℕ}
    (h : (runAttempts client ats left a).result = .ok response) :
    joined part "" (afterLastReset (runAttempts client ats left a).chunks) = (part.answer response).getD "" := by
  induction left using Nat.strongRecOn generalizing a with
  | _ left ih =>
    rcases runAttempts_cases h with ⟨hok, hc⟩ | ⟨l', e, rfl, hl, hc⟩
    · rw [hc, afterLastReset_attempt]
      exact completeStream_ok (hq a) hok
    · have hr := ih l' (Nat.lt_succ_self l') hl
      obtain ⟨chunks, hn⟩ := runAttempts_reset ats l' a
      rw [hn] at hr hc
      rw [hc, afterLastReset_append_reset]
      rwa [afterLastReset_cons_reset] at hr

/-- **The streamed text is the answer**: if no candidate that sends text or reasoning then sends a
line that makes the fallback go on to the next one, and the request succeeds, the deltas since the
last reset are the text and the reasoning of the answer. -/
theorem streamed_text_is_answer {attempts : ℕ → Attempt} (hquiet : ∀ n, (attempts n).Quiet client.json)
    (h : (completeStreamWithRetry client attempts).result = .ok response) :
    joined .text "" (afterLastReset (completeStreamWithRetry client attempts).chunks) = response.text.getD "" ∧
      joined .reasoning "" (afterLastReset (completeStreamWithRetry client attempts).chunks) =
        response.reasoningContent.getD "" :=
  ⟨runAttempts_ok hquiet h, runAttempts_ok hquiet h⟩

/-- The data of a chunk with some text. -/
def deltaJson (content : String) : List Char :=
  ["\x7b\"id\":\"\",", "\"object\":\"\",", "\"created\":0,", "\"model\":\"\",", "\"choices\":[", "\x7b\"index\":0,",
    "\"delta\":\x7b", "\"content\":\"", content, "\"\x7d\x7d]\x7d"].flatMap String.toList

def dataLine (data : List Char) : List UInt8 := utf8Encode ("data: ".toList ++ data ++ ['\n'])

/-- A client whose reader of JSON knows the chunks with the texts `Hel` and `Hello`. -/
def exampleClient : Client where
  json := {
    streamError := fun _ => none
    chunk := fun data =>
      match ["Hel", "Hello"].find? fun content => deltaJson content = data with
      | some content =>
        .ok {
          choices := [{ content := some content, reasoning := none, toolCalls := none, finishReason := none }]
          usage := none
          kvTransferParams := none }
      | none => .error "EOF while parsing an object at line 1 column 1"
    bodyMessage := fun _ => none
    deltaInput := fun _ => none
    toolArguments := fun arguments => arguments }
  redactUrl url := url
  redactError error := error
  displayUrl url := url

/-- An attempt in which the first candidate is not there. -/
def secondCandidate (endpoint : Response) : Attempt where
  cached := none
  candidates := [("http://h", .refused (.apiError "HTTP 404 Not Found: no response body")),
    ("http://h/v1", endpoint)]

/-- The body breaks off, and then there is another attempt. -/
def brokenThenWhole : ℕ → Attempt
  | 0 => secondCandidate (.stream [dataLine (deltaJson "Hel")] (.broken "connection reset"))
  | _ => secondCandidate (.stream [dataLine (deltaJson "Hello")] .ended)

theorem streamed_text_is_answer_retry :
    ∃ response, (completeStreamWithRetry exampleClient brokenThenWhole).result = .ok response ∧
      response.text = some "Hello" ∧
      joined .text "" (afterLastReset (completeStreamWithRetry exampleClient brokenThenWhole).chunks) =
        response.text.getD "" ∧
      joined .reasoning "" (afterLastReset (completeStreamWithRetry exampleClient brokenThenWhole).chunks) =
        response.reasoningContent.getD "" := by
  have hq (n : ℕ) : (brokenThenWhole n).Quiet exampleClient.json := by
    intro _
    cases n <;> exact forall_mem_singleton.mpr trivial
  have ht : (completeStreamWithRetry exampleClient brokenThenWhole).result.toOption.map LlmResponse.text =
      some (some "Hello") := by
    decide +kernel
  cases hr : (completeStreamWithRetry exampleClient brokenThenWhole).result with rw [hr] at ht
  | error => cases ht
  | ok response => exact ⟨response, rfl, Option.some.inj ht, streamed_text_is_answer hq hr⟩

/-- The first candidate sends some text and then a line that cannot be parsed. -/
def malformedThenWhole : Attempt where
  cached := none
  candidates :=
    [("http://h", .stream [dataLine (deltaJson "Hel"), dataLine ['\x7b']] .ended),
      ("http://h/v1", .stream [dataLine (deltaJson "Hello")] .ended)]

/-- **Text of two candidates**: the answer is that of the second candidate, but nobody was told to
drop the text of the first. -/
theorem streamed_text_of_two_candidates :
    (completeStreamWithRetry exampleClient fun _ => malformedThenWhole).result.toOption.map LlmResponse.text =
        some (some "Hello") ∧
      joined .text "" (afterLastReset (completeStreamWithRetry exampleClient fun _ => malformedThenWhole).chunks) =
        "HelHello" := by
  constructor
  · decide +kernel
  · decide +kernel

end XiaoO.LlmClient
