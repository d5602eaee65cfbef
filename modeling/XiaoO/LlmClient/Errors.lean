import XiaoO.Base.Occurrences
import XiaoO.Base.Text

/-!
# Errors of a model request

`LlmError`, and how `url_fallback.rs` and `request_policy.rs` sort the errors: those for which the
next candidate URL is tried, those that mean a wrong configuration, and those for which the whole
request is tried again. The sorting of an `ApiError` reads the text of its message. What is read of
a JSON body in such a message is a parameter.
-/

namespace XiaoO.LlmClient

open XiaoO.Base

inductive LlmError where
  | requestFailed (message : String)
  | httpError (message : String)
  | apiError (message : String)
  | parseError (message : String)
  | rateLimited (retryAfterMs : ℕ) (message : String)
  | authError (message : String)
  | modelNotFound (model : String)
  | providerNotFound (message : String)
  | configError (message : String)
  | contextLengthExceeded (message : String)
  | streamError (message : String)
  | ioError (message : String)
  | timeout
  | retryExhausted (attempts : ℕ) (message : String)
  | cancelled
  deriving DecidableEq

namespace LlmError

/-- `to_string`. -/
def display : LlmError → String
  | requestFailed message => "request failed: " ++ message
  | httpError message => "HTTP error: " ++ message
  | apiError message => "API error: " ++ message
  | parseError message => "parse error: " ++ message
  | rateLimited retryAfterMs message => "rate limited (retry after " ++ toString retryAfterMs ++ "ms): " ++ message
  | authError message => "authentication error: " ++ message
  | modelNotFound model => "model not found: " ++ model
  | providerNotFound message => "provider not found: " ++ message
  | configError message => "configuration error: " ++ message
  | contextLengthExceeded message => "context length exceeded: " ++ message
  | streamError message => "stream error: " ++ message
  | ioError message => "IO error: " ++ message
  | timeout => "timeout"
  | retryExhausted attempts message => "LLM request failed after " ++ toString attempts ++ " attempts: " ++ message
  | cancelled => "cancelled"

end LlmError

/-! ### Sorting -/

/-- `str::contains`. -/
def mentions (message part : String) : Bool := (before? part.toList message.toList).isSome

/-- `str::parse::<u16>`. -/
def parseU16 (s : List Char) : Option ℕ :=
  let digits := if s.head? = some '+' then s.tail else s
  if digits.isEmpty ∨ digits.any (fun c => !c.isDigit) then none
  else
    let value := digits.foldl (fun n c => n * 10 + (c.toNat - '0'.toNat)) 0
    if value < 2 ^ 16 then some value else none

def httpStatusCode (message : String) : Option ℕ :=
  ((stripPrefix? "HTTP ".toList message.toList).bind firstWord?).bind parseU16

def urlPathErrorKeywords : List String := ["url error"]

variable (bodyMessage : List Char → Option String)

/-- `is_url_path_error_response`, with the `message` or the `error.message` of a JSON text. -/
def isUrlPathErrorResponse (message : String) : Bool :=
  if httpStatusCode message ≠ some 400 then false
  else
    match (message.toList.dropWhile (· ≠ '\x7b')) with
    | [] => false
    | body =>
      match bodyMessage body with
      | none => false
      | some errorMessage =>
        let normalized := String.ofList ((trim errorMessage.toList).map Char.toLower)
        urlPathErrorKeywords.any fun keyword => mentions normalized keyword

def isHttpUnauthorizedError : LlmError → Bool
  | .apiError message => httpStatusCode message = some 401
  | _ => false

def isEndpointPathError : LlmError → Bool
  | .httpError message =>
    mentions message "Connection failed" || mentions message "timeout" || mentions message "refused" ||
      mentions message "connect"
  | .apiError message =>
    isHttpUnauthorizedError (.apiError message) || httpStatusCode message = some 404 ||
      httpStatusCode message = some 405 || mentions message "Not Found" || mentions message "endpoint not found" ||
      mentions message "route not found" || mentions message "unexpected content type" ||
      mentions message "empty stream response" || isUrlPathErrorResponse bodyMessage message
  | .streamError _ | .parseError _ | .timeout | .requestFailed _ | .ioError _ => true
  | _ => false

def shouldTryNextCandidate (error : LlmError) : Bool :=
  isEndpointPathError bodyMessage error

def isConfigurationError : LlmError → Bool
  | .apiError message =>
    if isEndpointPathError bodyMessage (.apiError message) then false
    else
      httpStatusCode message = some 400 || httpStatusCode message = some 403 || mentions message "Bad Request" ||
        mentions message "Invalid" || mentions message "invalid_request_error"
  | .authError _ | .modelNotFound _ | .rateLimited _ _ | .contextLengthExceeded _ => true
  | _ => false

def isRetryableNetworkError : LlmError → Bool
  | .timeout | .ioError _ | .streamError _ | .parseError _ => true
  | .apiError message =>
    httpStatusCode message = some 502 || httpStatusCode message = some 503 || httpStatusCode message = some 504 ||
      mentions message "Bad Gateway" || mentions message "Service Unavailable" || mentions message
        "Gateway Timeout" ||
      mentions message "timeout" || mentions message "network" || mentions message "connection"
  | _ => false

def isRetryable : LlmError → Bool
  | .timeout | .httpError _ | .ioError _ | .streamError _ | .rateLimited _ _ => true
  | .apiError message => isRetryableNetworkError (.apiError message)
  | _ => false

end XiaoO.LlmClient
