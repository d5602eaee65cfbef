import XiaoO.Base.IpAddress
import XiaoO.Base.Text
import XiaoO.Base.Utf8

/-!
# Where `webfetch` connects to

`WebFetchExecutor::fetch_content` (`tool/src/impl/builtin/webfetch`) fetches a page and follows
redirects itself. Before each request it checks the URL, resolves the host, and refuses addresses
for which `is_ip_blocked` says so; the HTTP client is then pinned to the addresses that were
checked.

## The model

The rest of the world may answer anything, and differently in each round: the resolver, the server,
and the reading of the body. The parsers of URLs and addresses, and the converters of HTML, are
parameters. A request is logged with the addresses that the client is pinned to. Left out are the
headers of the request, and `invoke`, which checks its input before.

## What is proved

There are at most 11 requests, and they are made to no address that is blocked. Blocked are all IPv4
addresses that are internal, and of the IPv6 addresses all but these: multicast, documentation, and
those that embed an internal IPv4 address as IPv4-compatible ones or by NAT64. So an address that is
connected to is internal exactly if it is one of these (`requests_spare_internal`), and they are
connected to (`embedded_loopback_is_fetched`).
-/

namespace XiaoO.Tool.WebFetch

open XiaoO.Base XiaoO.Base.Ip

/-! ### Addresses -/

/-- `is_ip_blocked`, of an IPv4 address. -/
def isV4Blocked (v4 : V4) : Bool :=
  v4.IsLoopback || v4.IsPrivate || v4.IsLinkLocal || (v4.octet 0 = 100 && (64 ≤ v4.octet 1 && v4.octet 1 ≤ 127)) ||
    (v4.IsBroadcast || v4.IsMulticast || v4.IsDocumentation) || v4.IsUnspecified

def isIpBlocked : IpAddr → Bool
  | .v4 v4 => isV4Blocked v4
  | .v6 v6 =>
    v6.IsLoopback || v6.segment 0 &&& 0xfe00 = 0xfc00 || v6.segment 0 &&& 0xffc0 = 0xfe80 || v6.IsUnspecified ||
      match v6.toV4Mapped? with
      | some v4 => isV4Blocked v4
      | none => false

/-- A `SocketAddr`. -/
structure SocketAddr where
  ip : IpAddr
  port : ℕ
  deriving DecidableEq

/-! ### The world -/

inductive WebFetchFormat where
  | text
  | markdown
  | html
  deriving DecidableEq

def WebFetchFormat.display : WebFetchFormat → String
  | .text => "text"
  | .markdown => "markdown"
  | .html => "html"

structure WebFetchInput where
  url : String
  format : WebFetchFormat
  timeout : Option ℕ

structure WebFetchOutput where
  content : String
  url : String
  contentType : String
  format : String

/-- A response. A header that is not a text is one that is there and cannot be read. -/
structure Response where
  status : ℕ
  location : Option (Option String)
  contentLength : Option ℕ
  contentType : Option String
  body : Except String (List UInt8)

/-- URLs, as the `url` crate has them. -/
structure UrlCrate (υ : Type) where
  parse : String → Except String υ
  asStr : υ → String
  scheme : υ → String
  hostStr : υ → Option String
  portOrKnownDefault : υ → Option ℕ
  join : υ → String → Except String υ

/-- Everything that `fetch_content` calls, in the round with a number. -/
structure World (υ : Type) extends UrlCrate υ where
  parseIp : String → Option IpAddr
  displayIp : IpAddr → String
  defaultTimeoutMs : ℕ
  maxTimeoutMs : ℕ
  lookupHost : ℕ → String → ℕ → Except String (List SocketAddr)
  buildClient : ℕ → ℕ → Except String Unit
  send : ℕ → υ → List SocketAddr → Except String Response
  extractTextFromHtml : String → String
  convertHtmlToMarkdown : String → String

variable {υ : Type} (world : World υ)

/-! ### Checks -/

def extractHost (url : List Char) : List Char :=
  let afterScheme := ((stripPrefix? "http://".toList url).or (stripPrefix? "https://".toList url)).getD url
  let hostPort := afterScheme.takeWhile fun c => c ≠ '/' ∧ c ≠ '?' ∧ c ≠ '#'
  let hostPort := match rsplitOnce? '@' hostPort with
    | some (_, rest) => rest
    | none => hostPort
  match rsplitOnce? ':' hostPort with
  | some (host, _) =>
    if ['['].isPrefixOf hostPort then
      match splitOnce? ']' hostPort with
      | some (host, _) => host ++ [']']
      | none => hostPort
    else host
  | none => hostPort

def isBracket (c : Char) : Bool := c = '[' || c = ']'

def parseHostAsIp (host : List Char) : Option IpAddr :=
  world.parseIp (String.ofList ((host.dropWhile isBracket).reverse.dropWhile isBracket).reverse)

inductive ErrorCode where
  | urlEmpty
  | urlInvalidScheme
  | urlBlockedIp
  deriving DecidableEq

/-- `ValidationResult`: nothing is wrong, or a message with its code. -/
abbrev ValidationResult := Except (String × ErrorCode) Unit

def validateUrlHostNotBlockedIp (url : String) : ValidationResult :=
  match parseHostAsIp world (extractHost url.toList) with
  | some ip =>
    if isIpBlocked ip then
      .error ("URL resolves to a blocked internal IP address: " ++ world.displayIp ip ++
        " (loopback/private/link-local addresses are not allowed)", .urlBlockedIp)
    else .ok ()
  | none => .ok ()

def validateUrlString (url : String) : ValidationResult :=
  if isBlank url then .error ("URL cannot be empty", .urlEmpty)
  else
    match world.parse url with
    | .error error => .error ("URL is invalid: " ++ error, .urlInvalidScheme)
    | .ok parsed =>
      if (world.scheme parsed ≠ "http" ∧ world.scheme parsed ≠ "https") ∨ world.hostStr parsed = none then
        .error ("URL must use HTTP or HTTPS and include a host, got: " ++ url, .urlInvalidScheme)
      else validateUrlHostNotBlockedIp world url

def validateResolvedAddrs (addrs : List SocketAddr) : ValidationResult :=
  match addrs.find? fun addr => isIpBlocked addr.ip with
  | some addr =>
    .error ("URL resolved to a blocked internal IP address: " ++ world.displayIp addr.ip ++
      " (SSRF protection: loopback/private/link-local addresses are not allowed)", .urlBlockedIp)
  | none => .ok ()

/-! ### Requests -/

/-- A request that is made, and the addresses that its client is pinned to. -/
structure Request (υ : Type) where
  url : υ
  addrs : List SocketAddr
  deriving DecidableEq

/-- What is done up to a request: the addresses for a URL. -/
def resolve (timeoutMs round : ℕ) (url : υ) : Except String (List SocketAddr) := do
  (validateUrlString world (world.asStr url)).mapError Prod.fst
  let some host := world.hostStr url | throw ("URL has no host: " ++ world.asStr url)
  let some port := world.portOrKnownDefault url | throw ("URL has no usable port: " ++ world.asStr url)
  let addrs ← (world.lookupHost round host port).mapError fun error =>
    "DNS resolution failed for '" ++ host ++ "': " ++ error
  if addrs = [] then throw ("DNS resolution returned no addresses for '" ++ host ++ "'")
  (validateResolvedAddrs world addrs).mapError Prod.fst
  world.buildClient round timeoutMs
  return addrs

def isRedirection (status : ℕ) : Bool := 300 ≤ status ∧ status < 400

def isSuccess (status : ℕ) : Bool := 200 ≤ status ∧ status < 300

def redirectTarget (url : υ) (response : Response) : Except String υ :=
  match response.location with
  | none => .error "redirect response is missing Location header"
  | some none => .error "redirect Location header is not valid UTF-8"
  | some (some location) =>
    (world.join url location).mapError fun error => "invalid redirect target `" ++ location ++ "`: " ++ error

/-- What a loop leaves: the last URL with its response, or an error, and the requests that were
made. -/
structure Fetched (υ α : Type) where
  result : Except String α
  requests : List (Request υ)

def maxRedirects : ℕ := 10

/-- The loop of `fetch_content`, which has so many redirects left. -/
def fetchLoop (timeoutMs : ℕ) : ℕ → υ → Fetched υ (υ × Response)
  | redirectsLeft, url =>
    let round := maxRedirects - redirectsLeft
    match resolve world timeoutMs round url with
    | .error error => ⟨.error error, []⟩
    | .ok addrs =>
      let request : Request υ := ⟨url, addrs⟩
      match world.send round url addrs with
      | .error error => ⟨.error error, [request]⟩
      | .ok response =>
        if !isRedirection response.status then ⟨.ok (url, response), [request]⟩
        else
          match redirectsLeft with
          | 0 => ⟨.error "too many redirects (maximum 10)", [request]⟩
          | redirectsLeft + 1 =>
            match redirectTarget world url response with
            | .error error => ⟨.error error, [request]⟩
            | .ok target =>
              let rest := fetchLoop timeoutMs redirectsLeft target
              { rest with requests := request :: rest.requests }

def maxResponseBytes : ℕ := 5 * 1024 * 1024

/-- What `fetch_content` makes of the last response. -/
def readResponse (format : WebFetchFormat) (url : υ) (response : Response) : Except String WebFetchOutput := do
  if !isSuccess response.status then throw ("Request failed with status code: " ++ toString response.status)
  if let some contentLength := response.contentLength then
    if contentLength > maxResponseBytes then
      throw ("Response too large: content-length " ++ toString
        contentLength ++ "B exceeds " ++ toString maxResponseBytes ++
        "B limit")
  let contentType := response.contentType.getD ""
  let bytes ← response.body.mapError fun error => "Failed to read response body: " ++ error
  if bytes.length > maxResponseBytes then
    throw ("Response too large: " ++ toString bytes.length ++ "B exceeds " ++ toString maxResponseBytes ++ "B limit")
  let raw := String.ofList (fromUtf8Lossy bytes)
  let isHtml := (before? "text/html".toList contentType.toList).isSome
  let content := match format with
    | .html => raw
    | .text => if isHtml then world.extractTextFromHtml raw else raw
    | .markdown => if isHtml then world.convertHtmlToMarkdown raw else "```\n" ++ raw ++ "\n```"
  return { content, url := world.asStr url, contentType, format := format.display }

/-- `fetch_content`: its result, and the requests that it made. -/
def fetchContent (input : WebFetchInput) : Fetched υ WebFetchOutput :=
  let timeoutMs := min (input.timeout.getD world.defaultTimeoutMs) world.maxTimeoutMs
  match world.parse input.url with
  | .error error => ⟨.error ("invalid URL " ++ input.url ++ ": " ++ error), []⟩
  | .ok url =>
    let fetched := fetchLoop world timeoutMs maxRedirects url
    { fetched with
      result := fetched.result.bind fun (url, response) => readResponse world input.format url response }

/-! ### Which addresses are blocked -/

/-- The internal addresses that are not blocked. -/
def Missed : IpAddr → Prop
  | .v4 _ => False
  | .v6 a => a.IsMulticast ∨ a.IsDocumentation ∨ (a.IsCompatible ∨ a.IsNat64) ∧ a.lowV4.IsInternal

instance : DecidablePred Missed := fun ip =>
  match ip with
  | .v4 _ => isFalse id
  | .v6 _ => inferInstanceAs (Decidable (_ ∨ _))

theorem isV4Blocked_iff (v4 : V4) : isV4Blocked v4 = true ↔ v4.IsInternal := by
  simp only [isV4Blocked, V4.IsInternal, Bool.or_eq_true, Bool.and_eq_true, decide_eq_true_eq,
    V4.octets_iff_isShared]
  tauto

theorem isIpBlocked_v6_iff (v6 : V6) : isIpBlocked (.v6 v6) = true ↔
      v6.IsLoopback ∨ v6.IsUniqueLocal ∨ v6.IsLinkLocal ∨ v6.IsUnspecified ∨ v6.IsMapped ∧ v6.lowV4.IsInternal := by
  have hm : (match v6.toV4Mapped? with
      | some v4 => isV4Blocked v4
      | none => false) = true ↔ v6.IsMapped ∧ v6.lowV4.IsInternal := by
    unfold V6.toV4Mapped?
    by_cases h : v6.IsMapped
    · simp [h, isV4Blocked_iff]
    · simp [h]
  simp only [isIpBlocked, Bool.or_eq_true, decide_eq_true_eq, V6.masked_iff_isUniqueLocal,
    V6.masked_iff_isLinkLocal, hm]
  tauto

/-- An address that is blocked is internal, and one that is not is internal only if it is missed. -/
theorem isInternal_iff (ip : IpAddr) : ip.IsInternal ↔ isIpBlocked ip = true ∨ Missed ip := by
  cases ip with
  | v4 =>
    simp only [IpAddr.IsInternal, isIpBlocked, isV4Blocked_iff, Missed, or_false]
  | v6 =>
    simp only [IpAddr.IsInternal, isIpBlocked_v6_iff, Missed, V6.IsInternal, V6.Embeds]
    tauto

/-! ### Requests -/

theorem not_blocked_of_validateResolvedAddrs {ad : List SocketAddr} (h : validateResolvedAddrs world ad = .ok ()) :
    ∀ a ∈ ad, isIpBlocked a.ip = false := by
  unfold validateResolvedAddrs at h
  split at h
  · contradiction
  · rename_i hn
    intro a ha
    simpa using List.find?_eq_none.mp hn a ha

theorem ok_of_mapError {α β γ : Type} {f : β → γ} {x : Except β α} {a : α}
    (h : x.mapError f = .ok a) : x = .ok a := by
  cases x with
  | error => contradiction
  | ok => exact congrArg Except.ok (Except.ok.inj h)

/-- A request is made to addresses that have been checked. -/
theorem not_blocked_of_resolve {ts r : ℕ} {u : υ} {ad : List SocketAddr}
    (h : resolve world ts r u = .ok ad) : ∀ a ∈ ad, isIpBlocked a.ip = false := by
  simp only [resolve, bind, Except.bind] at h
  split at h
  · contradiction
  · split at h
    · split at h
      · split at h
        · contradiction
        · split at h
          · contradiction
          · split at h
            · contradiction
            · rename_i hc
              split at h
              · contradiction
              · cases h
                exact not_blocked_of_validateResolvedAddrs world (ok_of_mapError hc)
      · contradiction
    · contradiction

/-- One round: no request is made, or one to addresses that have been checked, after which the loop
may go on if it has redirects left. -/
theorem fetchLoop_cases (ts r : ℕ) (u : υ) : (fetchLoop world ts r u).requests = [] ∨
      ∃ ad, resolve world ts (maxRedirects - r) u = .ok ad ∧ ((fetchLoop world ts r u).requests = [⟨u, ad⟩] ∨
          ∃ left t, r = left + 1 ∧ (fetchLoop world ts r u).requests =
              ⟨u, ad⟩ :: (fetchLoop world ts left t).requests) := by
  rw [fetchLoop.eq_def]
  simp only
  split
  · exact .inl rfl
  · rename_i ad hr
    refine .inr ⟨ad, hr, ?_⟩
    split
    · exact .inl rfl
    · split
      · exact .inl rfl
      · split
        · exact .inl rfl
        · split
          · exact .inl rfl
          · exact .inr ⟨_, _, rfl, rfl⟩

/-- The loop makes at most one request more than it has redirects left, and none to a blocked
address. -/
theorem fetchLoop_spec (ts r : ℕ) (u : υ) : (fetchLoop world ts r u).requests.length ≤ r + 1 ∧
      ∀ rq ∈ (fetchLoop world ts r u).requests, ∀ a ∈ rq.addrs, isIpBlocked a.ip = false := by
  induction r using Nat.strong_induction_on generalizing u with
  | _ r ih =>
    obtain hn | ⟨addrs, hr, ho | ⟨left, t, hlf, hm⟩⟩ :=
      fetchLoop_cases world ts r u
    · simp [hn]
    · rw [ho]
      exact ⟨by simp, List.forall_mem_singleton.mpr (not_blocked_of_resolve world hr)⟩
    · obtain ⟨hl, hc⟩ := ih left (by omega) t
      rw [hm, List.length_cons]
      exact ⟨by omega, List.forall_mem_cons.mpr ⟨not_blocked_of_resolve world hr, hc⟩⟩

/-- **Where `webfetch` connects to**: it makes at most 11 requests, to addresses that are not
blocked; and such an address is internal exactly if it is an IPv6 address for multicast or
documentation, or one that embeds an internal IPv4 address as an IPv4-compatible address or by
NAT64. -/
theorem requests_spare_internal (input : WebFetchInput) : (fetchContent world input).requests.length ≤ 11 ∧
      ∀ request ∈ (fetchContent world input).requests, ∀ addr ∈ request.addrs,
        isIpBlocked addr.ip = false ∧ (addr.ip.IsInternal ↔ Missed addr.ip) := by
  unfold fetchContent
  cases world.parse input.url with
  | error => simp
  | ok u =>
    obtain ⟨hl, hc⟩ := fetchLoop_spec world _ maxRedirects u
    refine ⟨hl, fun request hrq addr ha => ?_⟩
    have hnt := hc request hrq addr ha
    refine ⟨hnt, ?_⟩
    rw [isInternal_iff, hnt]
    simp

/-- A world with one page, whose host has an address. -/
def onePage (ip : IpAddr) : World String where
  parse := .ok
  asStr := id
  scheme _ := "http"
  hostStr _ := some "a.example"
  portOrKnownDefault _ := some 80
  join _ location := .ok location
  parseIp _ := none
  displayIp _ := ""
  defaultTimeoutMs := 30000
  maxTimeoutMs := 120000
  lookupHost _ _ port := .ok [⟨ip, port⟩]
  buildClient _ _ := .ok ()
  send _ _ _ := .ok ⟨200, none, none, none, .ok []⟩
  extractTextFromHtml := id
  convertHtmlToMarkdown := id

/-- **Internal addresses are connected to**: that of NAT64 and the IPv4-compatible one of the
loopback address 127.0.0.1, one of all nodes of the link, and one of the documentation. -/
theorem embedded_loopback_is_fetched :
    [IpAddr.v6 (0x0064ff9b <<< 96 ||| 0x7f000001), .v6 0x7f000001, .v6 (0xff02 <<< 112 ||| 1),
      .v6 (0x20010db8 <<< 96 ||| 1)].Forall fun ip => ip.IsInternal ∧
        (fetchContent (onePage ip)
          ⟨"http://a.example/", .html, none⟩).requests = [⟨"http://a.example/", [⟨ip, 80⟩]⟩] := by
  decide +kernel

end XiaoO.Tool.WebFetch
