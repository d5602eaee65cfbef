import Mathlib.Data.Bool.AllAny
import XiaoO.Base.Search
import XiaoO.Base.Utf8
import XiaoO.LlmClient.Errors

/-!
# Errors without credentials

`error/redaction.rs`: an `ErrorRedactor` knows the credentials of a request, each in several
spellings, and the spellings of its URL. Of an error's message, what is a URL of the request is
shown without user information, query values and fragment; in the rest every credential is replaced.

## The model

Texts are lists of characters, and places in them count characters. What is used of `url`, `regex`
and `serde_json` is a parameter (`Libraries`); of an expression of literal alternatives only that it
finds the first place where one of them is. The compiled expressions, which `OnceLock` keeps, are
left out: they are dropped with each new spelling.

## What is proved

The key stands in a message only where it meets a URL of the request as it is shown
(`key_only_in_request_urls`). It may stand there: host, path and the names of the query are shown as
they are (`key_in_shown_url`). The loops end by themselves, before their bounds (`textFrom_succ`,
`nextFrom_succ`, `diagnosticFrom_succ`).
-/

namespace XiaoO.LlmClient

open XiaoO.Base Option
open List hiding utf8Encode

/-- What is used of other crates. -/
structure Libraries where
  /-- `Url::parse`: the text of the URL, and its text when user name and password have been taken
  out. -/
  parseUrl : List Char → Option (List Char × List Char)
  /-- `serde_json::to_string`, of a text. -/
  jsonString : List Char → List Char
  /-- Whether `Regex::new` takes these alternatives. -/
  compiles : List (List Char) → Bool
  /-- `find_at`, for alternatives that were taken: where the match starts, and what it is. -/
  findAt : List (List Char) → List Char → ℕ → Option (ℕ × List Char)
  /-- There is something between the quotes. -/
  length_jsonString : ∀ t, t ≠ [] → 2 < (jsonString t).length
  findAt_some : ∀ needles text search start found,
    findAt needles text search = some (start, found) → FirstAt needles text search start found
  findAt_none : ∀ needles text search, findAt needles text search = none →
    ∀ needle ∈ needles, needle ≠ [] → ∀ i, search ≤ i → ¬OccursAt needle text i

def redacted : List Char := "[REDACTED]".toList

def invalidUrl : List Char := "[invalid URL]".toList

/-! ### Spellings -/

variable (lib : Libraries)

def jsonSpelling (text : List Char) : List Char := ((lib.jsonString text).drop 1).dropLast

def percentSpelling (bytes : List UInt8) (upper : Bool) : List Char :=
  let hex := (if upper then "0123456789ABCDEF" else "0123456789abcdef").toList
  bytes.flatMap fun byte =>
    let c := Char.ofNat byte.toNat
    if c.isAlphanum ∨ c ∈ ['-', '_', '.', '~'] then [c]
    else ['%', hex.getD (byte.toNat / 16) '0', hex.getD (byte.toNat % 16) '0']

/-- `to_digit(16)`. -/
def hexValue (byte : UInt8) : Option ℕ :=
  let i := ("0123456789abcdef".toList).idxOf (Char.ofNat byte.toNat).toLower
  if i < 16 then some i else none

def hexByte (hi lo : UInt8) : Option UInt8 := do some (UInt8.ofNat ((← hexValue hi) * 16 + (← hexValue lo)))

/-- `decode_url_value`, of the bytes of the text. -/
def decodeUrlBytes : List UInt8 → List UInt8
  | byte :: hi :: lo :: rest =>
    match if byte = 37 then hexByte hi lo else none with
    | some decoded => decoded :: decodeUrlBytes rest
    | none => byte :: decodeUrlBytes (hi :: lo :: rest)
  | bytes => bytes

def decodeUrlValue (text : List Char) : List UInt8 := decodeUrlBytes (utf8Encode text)

/-- The spellings of a credential, each with whether it is matched only where no escape is open. -/
def spellingsOf (bytes : List UInt8) : List (List Char × Bool) :=
  let lossy := fromUtf8Lossy bytes
  let json := jsonSpelling lib lossy
  (lossy, false) :: (json, json.head? = some '\\') ::
    [bytes, utf8Encode lossy].flatMap fun value =>
      [(percentSpelling value false, false), (percentSpelling value true, false)]

/-- A spelling that is known already is guarded only if it is so both times. -/
def addSpelling : List (List Char × Bool) → List Char × Bool → List (List Char × Bool)
  | [], new => [new]
  | known :: spellings, new =>
    if known.1 = new.1 then (known.1, known.2 && new.2) :: spellings else known :: addSpelling spellings new

/-- A spelling of a URL, with the URL and whether it is the JSON spelling. -/
def addUrlSpelling (urls : List (List Char × List Char × Bool)) (new : List Char × List Char × Bool) :
    List (List Char × List Char × Bool) :=
  if urls.any fun known => known.1 = new.1 then urls else urls ++ [new]

/-! ### URLs -/

variable (url : List Char)

def authorityBounds : Option (ℕ × ℕ) := do
  let start ←
    if "//".toList.isPrefixOf url then some 2
    else do
      let scheme ← before? "://".toList url
      let first ← scheme.head?
      if first.isAlpha ∧ scheme.all (fun c => c.isAlphanum || c ∈ ['+', '-', '.']) then
        some (scheme.length + 3) else none
  let stop := start + ((url.drop start).takeWhile fun c => c ∉ ['/', '?', '#', '\\']).length
  if start = stop then none else some (start, stop)

/-- The edits for the values of a query that starts at a place. -/
def pairEdits : ℕ → List (List Char) → List (ℕ × ℕ × List Char)
  | _, [] => []
  | start, pair :: pairs =>
    match splitOnce? '=' pair with
    | some (name, _) =>
      (start + name.length + 1, start + pair.length, redacted) :: pairEdits (start + pair.length + 1) pairs
    | none => pairEdits (start + pair.length + 1) pairs

def urlEdits : Option (List (ℕ × ℕ × List Char)) := do
  let (start, stop) ← authorityBounds url
  let userinfo :=
    match rsplitOnce? '@' ((url.take stop).drop start) with
    | some (userinfo, _) => [(start, start + userinfo.length + 1, [])]
    | none => []
  let fragment := stop + ((url.drop stop).takeWhile (· ≠ '#')).length
  let query :=
    match splitOnce? '?' ((url.take fragment).drop stop) with
    | some (path, query) => pairEdits (stop + path.length + 1) (query.splitOn '&')
    | none => []
  some (userinfo ++ query ++ if fragment < url.length then [(fragment + 1, url.length, redacted)] else [])

/-- `replace_ranges`, from a place on. -/
def replaceRanges (text : List Char) : ℕ → List (ℕ × ℕ × List Char) → Option (List Char)
  | cursor, [] => if cursor ≤ text.length then some (text.drop cursor) else none
  | cursor, (start, stop, replacement) :: edits =>
    if start < cursor ∨ stop < start ∨ text.length < stop then none
    else (replaceRanges text stop edits).map fun rest => (text.take start).drop cursor ++ replacement ++ rest

def requestUrlDisplay (known : List Char) (encoded : Bool) : List Char :=
  let display := ((urlEdits known).bind (replaceRanges known 0)).getD invalidUrl
  if encoded then jsonSpelling lib display else display

def urlPassword : Option (List Char) := do
  let (start, stop) ← authorityBounds url
  let (userinfo, _) ← rsplitOnce? '@' ((url.take stop).drop start)
  let (_, password) ← splitOnce? ':' userinfo
  some password

def spaces (text : List Char) : List Char := text.map fun c => if c = '+' then ' ' else c

/-- The value of a query parameter whose name tells of a credential. -/
def credentialValue (pair : List Char) : Option (List UInt8) := do
  let (name, value) ← splitOnce? '=' pair
  let name := (fromUtf8Lossy (decodeUrlValue (spaces name))).map Char.toLower
  if ["key", "token", "secret", "password", "passwd", "auth", "sig", "credential"].any fun part =>
      (before? part.toList name).isSome then
    some (decodeUrlValue (spaces value))
  else none

/-- The values of such parameters in a URL. -/
def urlCredentials : List (List UInt8) :=
  match splitOnce? '?' (url.takeWhile (· ≠ '#')) with
  | some (_, query) => (query.splitOn '&').filterMap credentialValue
  | none => []

/-! ### The redactor -/

theorem jsonSpelling_ne_nil {t : List Char} (h : t ≠ []) : jsonSpelling lib t ≠ [] := by
  have hl := lib.length_jsonString t h
  apply ne_nil_of_length_pos
  rw [jsonSpelling, length_dropLast, length_drop]
  omega

theorem percentSpelling_ne_nil {bs : List UInt8} (h : bs ≠ []) (u : Bool) : percentSpelling bs u ≠ [] := by
  obtain ⟨b, r, rfl⟩ := exists_cons_of_ne_nil h
  simp only [percentSpelling, flatMap_cons]
  split_ifs <;> simp

theorem spellingsOf_ne_nil {bs : List UInt8} (h : bs ≠ []) : ∀ s ∈ spellingsOf lib bs, s.1 ≠ [] := by
  have hl : fromUtf8Lossy bs ≠ [] := fromUtf8Lossy_ne_nil h
  have he : utf8Encode (fromUtf8Lossy bs) ≠ [] := utf8Encode_ne_nil hl
  simp [spellingsOf, hl, jsonSpelling_ne_nil, percentSpelling_ne_nil, h, he]

theorem addSpelling_ne_nil {ss : List (List Char × Bool)} {n : List Char × Bool}
    (h : ∀ s ∈ ss, s.1 ≠ []) (hn : n.1 ≠ []) : ∀ s ∈ addSpelling ss n, s.1 ≠ [] := by
  induction ss with
  | nil => simpa [addSpelling] using hn
  | cons k ss ih =>
    obtain ⟨hk, hr⟩ := forall_mem_cons.mp h
    rw [addSpelling]
    split_ifs
    · exact forall_mem_cons.mpr ⟨hk, hr⟩
    · exact forall_mem_cons.mpr ⟨hk, ih hr⟩

theorem foldl_addSpelling_ne_nil {ss n : List (List Char × Bool)} (h : ∀ s ∈ ss, s.1 ≠ [])
    (hn : ∀ s ∈ n, s.1 ≠ []) : ∀ s ∈ n.foldl addSpelling ss, s.1 ≠ [] := by
  induction n generalizing ss with
  | nil => exact h
  | cons s n ih =>
    obtain ⟨hs, hr⟩ := forall_mem_cons.mp hn
    exact ih (addSpelling_ne_nil h hs) hr

theorem mem_addUrlSpelling {us : List (List Char × List Char × Bool)} {new u : List Char × List Char × Bool}
    (h : u ∈ addUrlSpelling us new) : u ∈ us ∨ u = new := by
  unfold addUrlSpelling at h
  split_ifs at h
  · exact .inl h
  · simpa using h

structure ErrorRedactor where
  spellings : List (List Char × Bool)
  urls : List (List Char × List Char × Bool)
  spellings_ne_nil : ∀ s ∈ spellings, s.1 ≠ []
  urls_ne_nil : ∀ u ∈ urls, u.1 ≠ []

open ErrorRedactor

variable (redactor : ErrorRedactor)

namespace ErrorRedactor

def add (bytes : List UInt8) : ErrorRedactor :=
  if h : bytes = [] then redactor
  else
    { redactor with
      spellings := (spellingsOf lib bytes).foldl addSpelling redactor.spellings
      spellings_ne_nil := foldl_addSpelling_ne_nil redactor.spellings_ne_nil (spellingsOf_ne_nil lib h) }

def rememberUrl (url : List Char) : ErrorRedactor :=
  if h : url = [] then redactor
  else
    { redactor with
      urls := addUrlSpelling (addUrlSpelling redactor.urls (url, url, false)) (jsonSpelling lib url, url, true)
      urls_ne_nil := by
        intro u hu
        rcases mem_addUrlSpelling hu with hu | rfl
        · rcases mem_addUrlSpelling hu with hu | rfl
          · exact redactor.urls_ne_nil u hu
          · exact h
        · exact jsonSpelling_ne_nil lib h }

def addUrl (url : List Char) : ErrorRedactor :=
  let redactor := redactor.rememberUrl lib url
  let redactor :=
    match lib.parseUrl url with
    | some (whole, bare) => (redactor.rememberUrl lib whole).rememberUrl lib bare
    | none => redactor
  let redactor :=
    match urlPassword url with
    | some password => redactor.add lib (decodeUrlValue password)
    | none => redactor
  (urlCredentials url).foldl (add lib) redactor

/-- `default`. -/
def empty : ErrorRedactor where
  spellings := []
  urls := []
  spellings_ne_nil := by simp
  urls_ne_nil := by simp

def new (apiKey : List Char) : ErrorRedactor := (empty.add lib (utf8Encode apiKey)).addUrl lib url

def isAuthHeader (name : String) : Bool :=
  name ∈ ["x-api-key", "authorization", "proxy-authorization", "cookie", "set-cookie"]

def header (redactor : ErrorRedactor) (header : String × List UInt8) : ErrorRedactor :=
  if isAuthHeader header.1 then
    let redactor := redactor.add lib header.2
    let bearer := utf8Encode "Bearer ".toList
    if bearer.isPrefixOf header.2 then redactor.add lib (header.2.drop bearer.length) else redactor
  else redactor

def headers (redactor : ErrorRedactor) (headers : List (String × List UInt8)) : ErrorRedactor :=
  headers.foldl (header lib) redactor

end ErrorRedactor

/-! ### Matching -/

/-- `matcher`: the alternatives, longest first. -/
def matcher (spellings : List (List Char)) : Option (List (List Char)) :=
  let sorted := spellings.insertionSort fun s t => (utf8Encode t).length ≤ (utf8Encode s).length
  if lib.compiles sorted then some sorted else none

structure EscapeBoundary where
  position : ℕ := 0
  odd : Bool := false

def EscapeBoundary.allows (boundary : EscapeBoundary) (text : List Char) (stop : ℕ) : Bool × EscapeBoundary :=
  let odd := ((text.take stop).drop boundary.position).foldl (fun odd c => c = '\\' && !odd) boundary.odd
  (!odd, ⟨stop, odd⟩)

def urlSeparator (c : Char) : Bool := isWhitespace c || c ∈ ['(', '[', '{', '<', '"', '\'', '\x60']

structure UrlBoundary where
  position : ℕ := 0
  tokenStart : ℕ := 0
  hasScheme : Bool := false
  last : Option Char := none

namespace UrlBoundary

/-- A character before the candidate. -/
def char (text : List Char) (boundary : UrlBoundary) : Char × ℕ → UrlBoundary
  | (c, offset) =>
    let boundary :=
      if urlSeparator c then { boundary with tokenStart := offset + 1, hasScheme := false }
      else if c = '/' ∧ 2 ≤ offset ∧ (text.take (offset + 1)).drop (offset - 2) = "://".toList then
        { boundary with hasScheme := true }
      else boundary
    { boundary with last := some c }

def allows (boundary : UrlBoundary) (text : List Char) (stop : ℕ) : Bool × UrlBoundary :=
  let before := (text.take stop).drop boundary.position
  let boundary := { (before.zipIdx boundary.position).foldl (char text) boundary with position := stop }
  let allowed :=
    match boundary.last with
    | none => true
    | some c =>
      urlSeparator c || (c ∈ ['=', ':'] && !boundary.hasScheme &&
        !"//".toList.isPrefixOf ((text.take stop).drop boundary.tokenStart))
  (allowed, boundary)

end UrlBoundary

def urlRightBoundary (suffix : List Char) : Bool :=
  "\\\"".toList.isPrefixOf suffix ||
    match suffix.head? with
    | none => true
    | some c => isWhitespace c || c ∈ [')', ']', '}', '>', '"', '\'', '\x60', ',', ';']

namespace ErrorRedactor

/-- Whether a match is taken: one that is guarded is not if an escape is open before it. -/
def allowsMatch (boundary : EscapeBoundary) (text : List Char) (start : ℕ) (found : List Char) :
    Bool × EscapeBoundary :=
  if redactor.spellings.any fun s => s.2 && s.1 = found then boundary.allows text start else (true, boundary)

/-- Where a match ends. If it is not taken, a spelling without a guard may still start at the same
place. -/
def matchEnd (text : List Char) (start : ℕ) (found : List Char) (allowed : Bool) : Option ℕ :=
  if allowed then some (start + found.length)
  else
    let others := redactor.spellings.filter fun s => !s.2 && s.1.isPrefixOf (text.drop start)
    (others.map fun s => s.1.length).max?.map fun length => start + length

/-- `text`, from a place on, with what has been copied. The bound on the number of matches is not
reached. -/
def textFrom (lib : Libraries) (redactor : ErrorRedactor) (alternatives : List (List Char)) (text : List Char) :
    ℕ → EscapeBoundary → ℕ → ℕ → List Char
  | 0, _, copied, _ => text.drop copied
  | bound + 1, boundary, copied, search =>
    match lib.findAt alternatives text search with
    | none => text.drop copied
    | some (start, found) =>
      let (allowed, boundary) := redactor.allowsMatch boundary text start found
      match redactor.matchEnd text start found allowed with
      | none => redactor.textFrom lib alternatives text bound boundary copied (start + 1)
      | some stop =>
        (text.take start).drop copied ++ redacted ++ redactor.textFrom lib alternatives text bound boundary stop stop

def text (lib : Libraries) (redactor : ErrorRedactor) (text : List Char) : List Char :=
  if redactor.spellings = [] then text
  else
    match matcher lib (redactor.spellings.map Prod.fst) with
    | none => redacted
    | some alternatives => redactor.textFrom lib alternatives text (text.length + 1) {} 0 0

/-- `next_request_url`, from a place on. The bound on the number of matches is not reached. -/
def nextFrom (lib : Libraries) (redactor : ErrorRedactor) (alternatives : List (List Char)) (text : List Char) :
    ℕ → UrlBoundary → ℕ → Option (ℕ × ℕ × List Char × Bool)
  | 0, _, _ => none
  | bound + 1, boundary, search =>
    match lib.findAt alternatives text search with
    | none => none
    | some (start, found) =>
      let stop := start + found.length
      let (allowed, boundary) := boundary.allows text start
      if allowed && urlRightBoundary (text.drop stop) then
        (redactor.urls.find? fun u => u.1 = found).map fun u => (start, stop, u.2)
      else redactor.nextFrom lib alternatives text bound boundary stop

/-- `diagnostic`, from a place on. The bound on the number of URLs is not reached. -/
def diagnosticFrom (lib : Libraries) (redactor : ErrorRedactor) (alternatives : List (List Char)) :
    ℕ → List Char → List Char
  | 0, text => redactor.text lib text
  | bound + 1, text =>
    match redactor.nextFrom lib alternatives text (text.length + 1) {} 0 with
    | none => redactor.text lib text
    | some (start, stop, known, encoded) =>
      redactor.text lib (text.take start) ++ requestUrlDisplay lib known encoded ++
        redactor.diagnosticFrom lib alternatives bound (text.drop stop)

def diagnostic (text : List Char) : List Char :=
  match matcher lib (redactor.urls.map Prod.fst) with
  | none => invalidUrl
  | some alternatives => redactor.diagnosticFrom lib alternatives (text.length + 1) text

end ErrorRedactor

/-! ### Errors -/

namespace LlmError

def message? : LlmError → Option String
  | requestFailed message | httpError message | apiError message | parseError message | rateLimited _ message
  | authError message | modelNotFound message | providerNotFound message | configError message
  | contextLengthExceeded message | streamError message | ioError message | retryExhausted _ message => some message
  | timeout | cancelled => none

def mapMessage (f : String → String) : LlmError → LlmError
  | requestFailed message => requestFailed (f message)
  | httpError message => httpError (f message)
  | apiError message => apiError (f message)
  | parseError message => parseError (f message)
  | rateLimited retryAfterMs message => rateLimited retryAfterMs (f message)
  | authError message => authError (f message)
  | modelNotFound message => modelNotFound (f message)
  | providerNotFound message => providerNotFound (f message)
  | configError message => configError (f message)
  | contextLengthExceeded message => contextLengthExceeded (f message)
  | streamError message => streamError (f message)
  | ioError message => ioError (f message)
  | timeout => timeout
  | retryExhausted attempts message => retryExhausted attempts (f message)
  | cancelled => cancelled

theorem message?_mapMessage (f : String → String) (error : LlmError) :
    (error.mapMessage f).message? = error.message?.map f := by
  cases error <;> rfl

end LlmError

def ErrorRedactor.error (lib : Libraries) (redactor : ErrorRedactor) (error : LlmError) : LlmError :=
  error.mapMessage fun message => String.ofList (redactor.diagnostic lib message.toList)

/-! ### What a redactor knows -/

section Known

variable {k : List Char} {spellings m : List (List Char × Bool)}

theorem mem_addSpelling {s : List Char × Bool} (h : (k, false) ∈ spellings ∨ (k, false) = s) :
    (k, false) ∈ addSpelling spellings s := by
  induction spellings with
  | nil => simpa [addSpelling] using h
  | cons kn spellings ih =>
    rw [addSpelling]
    by_cases hk : kn.1 = s.1
    · rw [if_pos hk]
      rcases h with h | rfl
      · rcases mem_cons.mp h with rfl | h
        · exact mem_cons_self
        · exact mem_cons_of_mem _ h
      · simp [hk]
    · rw [if_neg hk]
      rcases h with h | rfl
      · rcases mem_cons.mp h with rfl | h
        · exact mem_cons_self
        · exact mem_cons_of_mem _ (ih (.inl h))
      · exact mem_cons_of_mem _ (ih (.inr rfl))

theorem mem_foldl_addSpelling (h : (k, false) ∈ spellings ∨ (k, false) ∈ m) :
    (k, false) ∈ m.foldl addSpelling spellings := by
  induction m generalizing spellings with
  | nil => simpa using h
  | cons s m ih =>
    apply ih
    rcases h with h | h
    · exact .inl (mem_addSpelling (.inl h))
    · rcases mem_cons.mp h with h | h
      · exact .inl (mem_addSpelling (.inr h))
      · exact .inr h

end Known

namespace ErrorRedactor

variable {k : List Char} {urls : List (List Char)} {first redactor : ErrorRedactor}

/-- The redactor comes from another one by credentials and some URLs. -/
inductive Built (lib : Libraries) (urls : List (List Char)) (first : ErrorRedactor) : ErrorRedactor → Prop
  | first : Built lib urls first first
  | add {redactor : ErrorRedactor} (h : Built lib urls first redactor) (bytes : List UInt8) :
    Built lib urls first (redactor.add lib bytes)
  | rememberUrl {redactor : ErrorRedactor} {url : List Char} (h : Built lib urls first redactor)
      (hurl : url ∈ urls) :
    Built lib urls first (redactor.rememberUrl lib url)

/-- The URLs of a request: as it is given, as it is parsed, and without user information. -/
def requestUrls : List (List Char) :=
  url :: ((lib.parseUrl url).map fun parsed => [parsed.1, parsed.2]).getD []

section

variable {lib} (h : Built lib urls first redactor)
include h

theorem Built.foldl_add (vs : List (List UInt8)) :
    Built lib urls first (vs.foldl (ErrorRedactor.add lib) redactor) := by
  induction vs generalizing redactor with
  | nil => exact h
  | cons bs vs ih => exact ih (h.add bs)

omit h in
theorem Built.addUrl {u : List Char} (h : Built lib (requestUrls lib u) first redactor) :
    Built lib (requestUrls lib u) first (redactor.addUrl lib u) := by
  apply Built.foldl_add
  have hg : Built lib (requestUrls lib u) first (redactor.rememberUrl lib u) := h.rememberUrl mem_cons_self
  have hu : Built lib (requestUrls lib u) first (match lib.parseUrl u with
      | some (whole, bare) => ((redactor.rememberUrl lib u).rememberUrl lib whole).rememberUrl lib bare
      | none => redactor.rememberUrl lib u) := by
    cases hp : lib.parseUrl u with
    | none => exact hg
    | some =>
      refine (hg.rememberUrl ?_).rememberUrl ?_
      · simp [requestUrls, hp]
      · simp [requestUrls, hp]
  split
  · exact hu.add _
  · exact hu

theorem Built.headers (hs : List (String × List UInt8)) : Built lib urls first (redactor.headers lib hs) := by
  induction hs generalizing redactor with
  | nil => exact h
  | cons header hs ih =>
    apply ih
    simp only [ErrorRedactor.header]
    split_ifs
    · exact (h.add _).add _
    · exact h.add _
    · exact h

/-- The text is a spelling that is matched everywhere. -/
def Knows (redactor : ErrorRedactor) (k : List Char) : Prop := (k, false) ∈ redactor.spellings

theorem Built.knows (hf : first.Knows k) : redactor.Knows k := by
  induction h with
  | first => exact hf
  | add _ bs ih =>
    unfold ErrorRedactor.add
    split_ifs
    · exact ih
    · exact mem_foldl_addSpelling (.inl ih)
  | rememberUrl _ _ ih =>
    unfold ErrorRedactor.rememberUrl
    split_ifs
    · exact ih
    · exact ih

theorem Built.mem_urls (hf : first.urls = []) {u : List Char × List Char × Bool}
    (hu : u ∈ redactor.urls) : u.2.1 ∈ urls := by
  induction h with
  | first =>
    rw [hf] at hu
    cases hu
  | add _ bs ih =>
    unfold ErrorRedactor.add at hu
    split_ifs at hu
    · exact ih hu
    · exact ih hu
  | rememberUrl _ hur ih =>
    unfold ErrorRedactor.rememberUrl at hu
    split_ifs at hu
    · exact ih hu
    · rcases mem_addUrlSpelling hu with hu | rfl
      · rcases mem_addUrlSpelling hu with hu | rfl
        · exact ih hu
        · exact hur
      · exact hur

end

theorem knows_add (hk : k ≠ []) (redactor : ErrorRedactor) : (redactor.add lib (utf8Encode k)).Knows k := by
  rw [Knows, add, dif_neg (utf8Encode_ne_nil hk)]
  apply mem_foldl_addSpelling
  right
  rw [spellingsOf, fromUtf8Lossy_utf8Encode]
  exact mem_cons_self

theorem urls_add (redactor : ErrorRedactor) (bs : List UInt8) : (redactor.add lib bs).urls = redactor.urls := by
  unfold add
  split_ifs
  · rfl
  · rfl

/-! ### Text without the key -/

section Text

variable {lib : Libraries} {text : List Char}

variable {alternatives : List (List Char)} {start copied search bound : ℕ}

theorem mem_of_matcher {spellings : List (List Char)} (h : matcher lib spellings = some alternatives)
    (s : List Char) : s ∈ alternatives ↔ s ∈ spellings := by
  simp only [matcher] at h
  split_ifs at h
  cases h
  exact mem_insertionSort _

theorem lt_of_matchEnd {stop : ℕ} {f : List Char} {a : Bool} (hf : f ≠ [])
    (h : redactor.matchEnd text start f a = some stop) : start < stop := by
  simp only [matchEnd] at h
  split_ifs at h
  · cases h
    have := length_pos_iff.mpr hf
    omega
  · obtain ⟨n, hm, rfl⟩ := map_eq_some_iff.mp h
    obtain ⟨s, hs, rfl⟩ := mem_map.mp (max?_mem hm)
    have := length_pos_iff.mpr (redactor.spellings_ne_nil s (mem_of_mem_filter hs))
    omega

/-- If no match is taken at a place, what the redactor knows is not there. -/
theorem not_occursAt_of_matchEnd {f : List Char} {a : Bool} (hk : redactor.Knows k)
    (h : redactor.matchEnd text start f a = none) : ¬OccursAt k text start := by
  intro ho
  simp only [matchEnd] at h
  split_ifs at h
  have hn := map_eq_nil_iff.mp (max?_eq_none_iff.mp (map_eq_none_iff.mp h))
  have hp : k.isPrefixOf (text.drop start) = true := isPrefixOf_iff_prefix.mpr ho
  have hm : (k, false) ∈ redactor.spellings.filter fun s => !s.2 && s.1.isPrefixOf (text.drop start) := by
    rw [mem_filter]
    exact ⟨hk, by simpa using hp⟩
  rw [hn] at hm
  cases hm

theorem free_drop (hc : ∀ i, copied ≤ i → i < search → ¬OccursAt k text i)
    (hr : ∀ i, search ≤ i → ¬OccursAt k text i) : Free k (text.drop copied) := by
  intro i hi
  have hp : OccursAt k text (copied + i) := by rwa [OccursAt, ← drop_drop]
  by_cases hlt : copied + i < search
  · exact hc _ (Nat.le_add_right _ _) hlt hp
  · exact hr _ (Nat.le_of_not_lt hlt) hp

theorem free_take_drop (hk : k ≠ []) (hc : ∀ i, copied ≤ i → i < start → ¬OccursAt k text i) :
    Free k ((text.take start).drop copied) := by
  intro i hi
  have he := hi.add_length_le hk
  have hl := length_pos_iff.mpr hk
  rw [length_drop, length_take] at he
  exact hc _ (Nat.le_add_right _ _) (by omega) hi.of_take_drop

/-- **Between the marks the key does not occur.** No occurrence starts between what has been copied
and the place of the search. -/
theorem textFrom_woven (hne : ∀ s ∈ alternatives, s ≠ []) (hm : k ∈ alternatives)
    (hk : redactor.Knows k) {b : EscapeBoundary}
    (hb : text.length < search + bound) (hc : ∀ i, copied ≤ i → i < search → ¬OccursAt k text i) :
    Woven (Free k) (· = redacted) (redactor.textFrom lib alternatives text bound b copied search) := by
  induction bound generalizing b copied search with
  | zero =>
    refine .last (free_drop hc fun i hi ho => ?_)
    have := ho.lt_length (hne k hm)
    omega
  | succ bound ih =>
    rw [textFrom]
    cases hfn : lib.findAt alternatives text search with
    | none => exact .last (free_drop hc fun i hi => lib.findAt_none _ _ _ hfn k hm (hne k hm) i hi)
    | some f =>
      obtain ⟨start, f⟩ := f
      have hf := lib.findAt_some _ _ _ _ _ hfn
      have hle := hf.le
      have hkp : ∀ i, copied ≤ i → i < start → ¬OccursAt k text i := by
        intro i hi hlt
        by_cases hs : i < search
        · exact hc i hi hs
        · exact hf.first i (Nat.le_of_not_lt hs) hlt k hm
      dsimp only
      cases he : redactor.matchEnd text start f (redactor.allowsMatch b text start f).1 with
      | none =>
        apply ih
        · omega
        · intro i hi hlt
          rcases Nat.lt_succ_iff_lt_or_eq.mp hlt with hlt | rfl
          · exact hkp i hi hlt
          · exact not_occursAt_of_matchEnd hk he
      | some =>
        have hst := lt_of_matchEnd (hne f hf.mem) he
        refine .cons (free_take_drop (hne k hm) hkp) rfl (ih ?_ ?_)
        · omega
        · intro i hi hlt
          omega

theorem text_free (hkn : k ≠ []) (hk : redactor.Knows k) (hc : Clear k redacted) (text : List Char) :
    Free k (redactor.text lib text) := by
  unfold ErrorRedactor.text
  split_ifs with hn
  · rw [Knows, hn] at hk
    cases hk
  · cases hm : matcher lib (redactor.spellings.map Prod.fst) with
    | none => exact hc.free hkn
    | some alternatives =>
      have hmm := mem_of_matcher hm
      have hne : ∀ s ∈ alternatives, s ≠ [] := by
        intro s hs
        obtain ⟨spelling, hsp, rfl⟩ := mem_map.mp ((hmm s).mp hs)
        exact redactor.spellings_ne_nil spelling hsp
      have hkm : k ∈ alternatives := (hmm k).mpr (mem_map_of_mem hk)
      exact (textFrom_woven hne hkm hk (by omega) (by intro i _ hlt; omega)).free hc

/-! ### The next URL -/

/-- A URL that is found is one of those remembered, and stands in the text. -/
theorem nextFrom_eq_some {b : UrlBoundary} {e : ℕ}
    {kn : List Char × Bool} (h : redactor.nextFrom lib alternatives text bound b search = some (start, e, kn)) :
    ∃ u ∈ redactor.urls, u.2 = kn ∧ OccursAt u.1 text start ∧ e = start + u.1.length := by
  induction bound generalizing b search with
  | zero => cases h
  | succ bound ih =>
    rw [nextFrom] at h
    cases hf : lib.findAt alternatives text search with
    | none =>
      rw [hf] at h
      cases h
    | some =>
      have hfr := lib.findAt_some _ _ _ _ _ hf
      rw [hf] at h
      dsimp only at h
      split_ifs at h
      · obtain ⟨u, hu, heq⟩ := map_eq_some_iff.mp h
        have hs := find?_some hu
        rw [decide_eq_true_eq] at hs
        cases heq
        rw [← hs] at hfr ⊢
        exact ⟨u, mem_of_find?_eq_some hu, rfl, hfr.occurs, rfl⟩
      · exact ih h

/-! ### The bounds are not reached -/

theorem findAt_of_length_le (hne : ∀ s ∈ alternatives, s ≠ []) (h : text.length ≤ search) :
    lib.findAt alternatives text search = none := by
  cases hf : lib.findAt alternatives text search with
  | none => rfl
  | some =>
    have hf := lib.findAt_some _ _ _ _ _ hf
    have hle := hf.le
    have hlt := hf.occurs.lt_length (hne _ hf.mem)
    omega

theorem textFrom_succ (hne : ∀ s ∈ alternatives, s ≠ [])
    {boundary : EscapeBoundary} (hb : text.length < search + bound) :
    redactor.textFrom lib alternatives text (bound + 1) boundary copied search =
      redactor.textFrom lib alternatives text bound boundary copied search := by
  induction bound generalizing boundary copied search with
  | zero =>
    rw [textFrom, textFrom, findAt_of_length_le hne (by omega)]
  | succ bound ih =>
    unfold textFrom
    cases hfn : lib.findAt alternatives text search with
    | none => rfl
    | some f =>
      have hf := lib.findAt_some _ _ _ _ _ hfn
      have hle := hf.le
      dsimp only
      cases he : redactor.matchEnd text f.1 f.2 (redactor.allowsMatch boundary text f.1 f.2).1 with
      | none =>
        rw [ih (by omega)]
      | some =>
        have hs := lt_of_matchEnd (hne _ hf.mem) he
        dsimp only
        rw [ih (by omega)]

theorem nextFrom_succ (hne : ∀ s ∈ alternatives, s ≠ []) {boundary : UrlBoundary}
    (hb : text.length < search + bound) :
    redactor.nextFrom lib alternatives text (bound + 1) boundary search =
      redactor.nextFrom lib alternatives text bound boundary search := by
  induction bound generalizing boundary search with
  | zero =>
    rw [nextFrom, nextFrom, findAt_of_length_le hne (by omega)]
  | succ bound ih =>
    unfold nextFrom
    cases hfn : lib.findAt alternatives text search with
    | none => rfl
    | some =>
      have hf := lib.findAt_some _ _ _ _ _ hfn
      have hle := hf.le
      have hp := length_pos_iff.mpr (hne _ hf.mem)
      dsimp only
      rw [ih (by omega)]

theorem diagnosticFrom_succ (hb : text.length < bound) :
    redactor.diagnosticFrom lib alternatives (bound + 1) text = redactor.diagnosticFrom lib
      alternatives bound text := by
  induction bound generalizing text with
  | zero => omega
  | succ bound ih =>
    unfold diagnosticFrom
    cases hn : redactor.nextFrom lib alternatives text (text.length + 1) {} 0 with
    | none => rfl
    | some =>
      obtain ⟨u, hu, -, ho, hs⟩ := nextFrom_eq_some hn
      have hun := redactor.urls_ne_nil u hu
      have hp := length_pos_iff.mpr hun
      have he := ho.add_length_le hun
      dsimp only
      rw [ih (by rw [length_drop]; omega)]

/-! ### Messages -/

/-- A text is a URL of the request, as it is shown. -/
def Shown (lib : Libraries) (urls : List (List Char)) (shown : List Char) : Prop :=
  ∃ known ∈ urls, ∃ encoded, shown = requestUrlDisplay lib known encoded

theorem diagnosticFrom_woven (hf : ∀ text, Free k (redactor.text lib text))
    (hur : ∀ u ∈ redactor.urls, u.2.1 ∈ urls) (bound : ℕ) (text : List Char) :
    Woven (Free k) (Shown lib urls) (redactor.diagnosticFrom lib alternatives bound text) := by
  induction bound generalizing text with
  | zero => exact .last (hf text)
  | succ bound ih =>
    rw [diagnosticFrom]
    cases hn : redactor.nextFrom lib alternatives text (text.length + 1) {} 0 with
    | none => exact .last (hf text)
    | some next =>
      obtain ⟨start, s, kn, e⟩ := next
      obtain ⟨u, hu, hk, -⟩ := nextFrom_eq_some hn
      refine .cons (hf _) ⟨kn, ?_, e, rfl⟩ (ih _)
      have hm := hur u hu
      rwa [hk] at hm

theorem occursAt_diagnostic (hkn : k ≠ []) (hk : redactor.Knows k) (hu : ∀ u ∈ redactor.urls, u.2.1 ∈ urls)
    (hr : Clear k redacted) (hin : Clear k invalidUrl) {i : ℕ} (hi : OccursAt k (redactor.diagnostic lib text) i) :
    ∃ s, Shown lib urls s ∧ ∃ j, OccursAt s (redactor.diagnostic lib text) j ∧ Overlap i k.length j s.length := by
  unfold diagnostic at hi ⊢
  cases hm : matcher lib (redactor.urls.map Prod.fst) with rw [hm] at hi
  | none => exact absurd hi (hin.free hkn i)
  | some => exact (diagnosticFrom_woven (fun _ => text_free hkn hk hr _) hu _ _).exists_overlap hi

end Text

end ErrorRedactor

/-- **The key stands only in URLs of the request**: where it occurs in the message of an error, it
meets a URL of the request as it is shown, without user information and with its query values and
its fragment replaced. -/
theorem key_only_in_request_urls {lib : Libraries} {url k : List Char} {headers : List (String × List UInt8)}
    {error : LlmError} {message : String} (hk : k ≠ []) (hredacted : Clear k redacted)
      (hinvalid : Clear k invalidUrl)
    (hmessage : (((new lib url k).headers lib headers).error lib error).message? = some message) {i : ℕ}
    (hi : OccursAt k message.toList i) :
    ∃ known ∈ requestUrls lib url, ∃ encoded j, OccursAt (requestUrlDisplay lib known encoded) message.toList j ∧
      Overlap i k.length j (requestUrlDisplay lib known encoded).length := by
  rw [ErrorRedactor.error, LlmError.message?_mapMessage] at hmessage
  obtain ⟨r, -, rfl⟩ := map_eq_some_iff.mp hmessage
  rw [String.toList_ofList] at hi ⊢
  have hb : ErrorRedactor.Built lib (requestUrls lib url) (empty.add lib (utf8Encode k))
      ((new lib url k).headers lib headers) := ErrorRedactor.Built.first.addUrl.headers headers
  have hu := fun u => hb.mem_urls (urls_add lib _ _) (u := u)
  obtain ⟨s, ⟨known, hkn, encoded, rfl⟩, j, hj, ho⟩ :=
    occursAt_diagnostic hk (hb.knows (knows_add lib hk _)) hu hredacted hinvalid hi
  exact ⟨known, hkn, encoded, j, hj, ho⟩

/-- A URL is parsed as it is, a JSON text has no escapes, and every expression is taken. -/
def plainLibraries : Libraries where
  parseUrl url := some (url, url)
  jsonString text := '"' :: text ++ ['"']
  compiles _ := true
  findAt := Base.findAt
  length_jsonString t h := by
    have hp := length_pos_iff.mpr h
    simpa using hp
  findAt_some _ _ _ _ _ := findAt_eq_some
  findAt_none _ _ _ h _ hm hn _ hi := findAt_eq_none h hm hn hi

/-- A request with its key in host, path and query. -/
def secretUrl : List Char := "http://secret.example/secret?key=secret".toList

def secretRedactor : ErrorRedactor := (new plainLibraries secretUrl "secret".toList).headers plainLibraries []

def secretError : LlmError := .httpError "failed: secret (http://secret.example/secret?key=secret)"

theorem clear_secret_redacted : Clear "secret".toList redacted :=
  clear_of_disjoint (by decide) (by decide) (all_iff_forall_prop.mp (by decide))

theorem clear_secret_invalidUrl : Clear "secret".toList invalidUrl :=
  clear_of_disjoint (by decide) (by decide) (all_iff_forall_prop.mp (by decide))

theorem key_only_in_request_urls_secret : ∃ known ∈ requestUrls plainLibraries secretUrl, ∃ encoded j,
      OccursAt (requestUrlDisplay plainLibraries known encoded)
        "failed: [REDACTED] (http://secret.example/secret?key=[REDACTED])".toList j ∧
      Overlap 27 6 j (requestUrlDisplay plainLibraries known encoded).length := by
  have hm : (((new plainLibraries secretUrl "secret".toList).headers plainLibraries []).error plainLibraries
      secretError).message? = some "failed: [REDACTED] (http://secret.example/secret?key=[REDACTED])" := by
    decide +kernel
  exact key_only_in_request_urls (by decide) clear_secret_redacted clear_secret_invalidUrl hm (by decide)

/-- **The key in the host and the path** of the request is shown. -/
theorem key_in_shown_url : Clear "secret".toList redacted ∧ Clear "secret".toList invalidUrl ∧
      (secretRedactor.error plainLibraries secretError).message? =
        some "failed: [REDACTED] (http://secret.example/secret?key=[REDACTED])" ∧
      OccursAt "secret".toList "failed: [REDACTED] (http://secret.example/secret?key=[REDACTED])".toList 27 := by
  refine ⟨clear_secret_redacted, clear_secret_invalidUrl, ?_, ?_⟩
  · decide +kernel
  · decide

end XiaoO.LlmClient
