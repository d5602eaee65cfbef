import XiaoO.Base.Json
import XiaoO.Base.Text

/-!
# The arguments of a tool call

`parse_tool_arguments` (`llm-client/src/convert.rs`) reads the text that a model gives as the
arguments of a tool call. A text that is cut off is closed with the brackets that are open at its
end, and a string is read once more, as its content may be the text of the arguments.

`serde_json` is a parameter. What is asked of it is in `Lawful`; that a value is read back from what
is printed is not, and stands in each theorem that needs it (`ReadsBack`).

The code calls itself for the content of a string. In the model it has a bound for that, which is
never reached (`parseWithin_eq`): the content of a string is shorter than the string, and a text
that had to be closed is not a string (`repaired_ne_string`).

The value of a text that is not a string is what is read (`parseToolArguments_of_fromStr`). Printed
arguments are parsed as they are exactly if they are read back and not a string
(`parseToolArguments_print_iff`), also if they were encoded as strings
(`parseToolArguments_encoded`).
-/

namespace XiaoO.LlmClient

open XiaoO.Base List Option Json.Tree

/-! ### Closing a text -/

/-- Where `repair_unclosed_json` is in the text: the brackets that close what is open, the next one
first. -/
structure Scan where
  closers : List Char := []
  inString : Bool := false
  escaped : Bool := false

/-- One character; a bracket that closes something else ends the scan. -/
def Scan.next (scan : Scan) (ch : Char) : Option Scan :=
  if scan.inString then
    if ch = '\\' ∧ ¬ scan.escaped then some { scan with escaped := true }
    else if ch = '"' ∧ ¬ scan.escaped then some { scan with inString := false }
    else some { scan with escaped := false }
  else if ch = '"' then some { scan with inString := true }
  else if ch = '{' then some { scan with closers := '}' :: scan.closers }
  else if ch = '[' then some { scan with closers := ']' :: scan.closers }
  else if ch = '}' ∨ ch = ']' then
    match scan.closers with
    | closer :: closers => if closer = ch then some { scan with closers } else none
    | [] => none
  else some scan

def repairUnclosedJson (input : List Char) : Option (List Char) := do
  let scan ← input.foldlM Scan.next {}
  if scan.inString ∨ scan.closers = [] then none else some (input ++ scan.closers)

theorem closers_of_next {s s' : Scan} {ch : Char} (h : s.next ch = some s')
    (hc : ∀ c ∈ s.closers, c = '}' ∨ c = ']') : ∀ c ∈ s'.closers, c = '}' ∨ c = ']' := by
  unfold Scan.next at h
  split_ifs at h
  any_goals
    cases h
    exact hc
  · cases h
    exact forall_mem_cons.mpr ⟨.inl rfl, hc⟩
  · cases h
    exact forall_mem_cons.mpr ⟨.inr rfl, hc⟩
  · split at h
    · rename_i closer closers heq
      split_ifs at h
      cases h
      rw [heq] at hc
      exact (forall_mem_cons.mp hc).2
    · cases h

theorem closers_of_foldlM {s s' : Scan} {i : List Char} (h : i.foldlM Scan.next s = some s')
    (hc : ∀ c ∈ s.closers, c = '}' ∨ c = ']') : ∀ c ∈ s'.closers, c = '}' ∨ c = ']' := by
  induction i generalizing s with
  | nil =>
    cases h
    exact hc
  | cons ch i ih =>
    obtain ⟨next, hn, hr⟩ := bind_eq_some_iff.mp h
    exact ih hr (closers_of_next hn hc)

/-- A text that was closed ends with a bracket. -/
theorem repairUnclosedJson_ends {i r : List Char} (h : repairUnclosedJson i = some r) :
    ∃ s c, r = s ++ [c] ∧ (c = '}' ∨ c = ']') := by
  obtain ⟨scan, hs, hr⟩ := bind_eq_some_iff.mp h
  split_ifs at hr with hn
  cases hr
  rw [not_or] at hn
  obtain ⟨closers, c, hc⟩ := eq_nil_or_concat scan.closers |>.resolve_left hn.2
  refine ⟨i ++ closers, c, by rw [hc, concat_eq_append, append_assoc], ?_⟩
  exact closers_of_foldlM hs nofun c (by simp [hc])

/-! ### Reading the arguments -/

variable (serde : Json.Codec)

/-- `parse_tool_arguments_once`, before a string is read again. -/
def parseOnce (arguments : List Char) : Option Json.Value :=
  (serde.fromStr arguments).or ((repairUnclosedJson arguments).bind serde.fromStr)

/-- `parse_tool_arguments`, with a bound on how often a string is read again. -/
def parseWithin : ℕ → List Char → Json.Value
  | 0, _ => .null
  | bound + 1, arguments =>
    if trim arguments = [] then .null
    else
      match parseOnce serde (trim arguments) with
      | some (.string inner) => parseWithin bound inner.toList
      | some value => value
      | none => .null

def parseToolArguments (arguments : String) : Json.Value :=
  parseWithin serde (arguments.toList.length + 1) arguments.toList

/-- `serde_json::to_string` of a string. -/
def encode (s : String) : String := String.ofList (serde.print (.string s))

/-- What holds of `serde_json`, whatever it does with numbers. -/
structure Lawful (serde : Json.Codec) : Prop where
  /-- A string has quotes around it. -/
  shorter : ∀ s x, serde.fromStr s = some (.string x) → x.toList.length < s.length
  bracket : ∀ s x, ∀ c ∈ ['}', ']'], serde.fromStr (s ++ [c]) ≠ some (.string x)
  empty : serde.fromStr [] = none
  /-- There is no space around a printed value, and it is closed. -/
  trimmed : ∀ v, trim (serde.print v) = serde.print v
  closed : ∀ v, repairUnclosedJson (serde.print v) = none
  null : serde.ReadsBack .null
  /-- Only strings are printed as strings. -/
  string : ∀ v x, serde.fromStr (serde.print v) = some (.string x) → v = .string x

/-! ### The bound is not reached -/

theorem trim_length_le (s : List Char) : (trim s).length ≤ s.length := by
  rw [trim, length_reverse]
  calc _ ≤ (s.dropWhile isWhitespace).reverse.length := (dropWhile_suffix _).length_le
    _ ≤ s.length := by rw [length_reverse]; exact (dropWhile_suffix _).length_le

section Lawful

variable {serde} (hl : Lawful serde)
include hl

theorem repaired_ne_string {input repaired : List Char} (h : repairUnclosedJson input = some repaired) (x : String) :
    serde.fromStr repaired ≠ some (.string x) := by
  obtain ⟨start, c, rfl, hc⟩ := repairUnclosedJson_ends h
  exact hl.bracket start x c (by simpa using hc)

/-- The content of a string is shorter than the text. -/
theorem parseOnce_string {ar : List Char} {i : String} (h : parseOnce serde ar = some (.string i)) :
    i.toList.length < ar.length := by
  rcases or_eq_some_iff.mp h with hrd | ⟨-, hr⟩
  · exact hl.shorter ar i hrd
  · obtain ⟨r, hrp, hrd⟩ := bind_eq_some_iff.mp hr
    exact absurd hrd (repaired_ne_string hl hrp i)

theorem parseWithin_eq {bn bound' : ℕ} {arguments : List Char} (h : arguments.length < bn)
    (h' : arguments.length < bound') : parseWithin serde bn arguments = parseWithin serde bound' arguments := by
  induction bn generalizing bound' arguments with
  | zero => cases h
  | succ bn ih =>
    obtain ⟨bound', rfl⟩ : ∃ b, bound' = b + 1 := ⟨bound' - 1, by omega⟩
    rw [parseWithin, parseWithin]
    split_ifs
    · rfl
    · split
      · rename_i i hp
        have := parseOnce_string hl hp
        have := trim_length_le arguments
        exact ih (by omega) (by omega)
      · rfl
      · rfl

/-! ### What is read -/

/-- **The arguments are what is read**, unless that is a string. -/
theorem parseToolArguments_of_fromStr {ar : String} {value : Json.Value}
    (h : serde.fromStr (trim ar.toList) = some value) (hs : ∀ x, value ≠ .string x) :
    parseToolArguments serde ar = value := by
  have hne : trim ar.toList ≠ [] := by
    intro hn
    rw [hn, hl.empty] at h
    cases h
  rw [parseToolArguments, parseWithin, if_neg hne, parseOnce, h, some_or]
  cases value with
  | string x => exact absurd rfl (hs x)
  | _ => rfl

omit hl in
theorem parseToolArguments_ne_string (ar x : String) : parseToolArguments serde ar ≠ .string x := by
  have hw : ∀ b s, parseWithin serde b s ≠ .string x := by
    intro b
    induction b with
    | zero => exact fun _ => nofun
    | succ b ih =>
      intro s
      rw [parseWithin]
      split_ifs
      · exact nofun
      · split
        · exact ih _
        · rename_i v hs hp
          exact hs x
        · exact nofun
  exact hw _ _

/-! ### What is printed -/

/-- **Which printed arguments are parsed as they are**: those that are read back and not a
string. -/
theorem parseToolArguments_print_iff (v : Json.Value) :
    parseToolArguments serde (String.ofList (serde.print v)) = v ↔ serde.ReadsBack v ∧ ∀ x, v ≠ .string x := by
  constructor
  · intro h
    have hs : ∀ x, v ≠ .string x := fun x => h ▸ parseToolArguments_ne_string _ x
    refine ⟨?_, hs⟩
    cases hr : serde.fromStr (serde.print v) with
    | some w =>
      have hw : ∀ x, w ≠ .string x := fun x hx => hs x (hl.string v x (hx ▸ hr))
      have hp : parseToolArguments serde (String.ofList (serde.print v)) = w :=
        parseToolArguments_of_fromStr hl (by rwa [String.toList_ofList, hl.trimmed]) hw
      rw [Json.Codec.ReadsBack, hr, ← hp, h]
    | none =>
      -- nothing is read, which gives `null`
      have hp : parseToolArguments serde (String.ofList (serde.print v)) = .null := by
        rw [parseToolArguments, String.toList_ofList, parseWithin, hl.trimmed, parseOnce, hr, hl.closed]
        simp
      rw [← h, hp]
      exact hl.null
  · rintro ⟨hb, hs⟩
    refine parseToolArguments_of_fromStr hl ?_ hs
    rwa [String.toList_ofList, hl.trimmed]

/-- **Arguments that were encoded as strings**, however often, **are read back**, if they and the
strings are. -/
theorem parseToolArguments_encoded {v : Json.Value} (hv : serde.ReadsBack v) (hs : ∀ x, v ≠ .string x) (n : ℕ)
    (hstrings : ∀ k < n, serde.ReadsBack (.string ((encode serde)^[k] (String.ofList (serde.print v))))) :
    parseToolArguments serde ((encode serde)^[n] (String.ofList (serde.print v))) = v := by
  induction n with
  | zero => exact (parseToolArguments_print_iff hl v).mpr ⟨hv, hs⟩
  | succ n ih =>
    have ih := ih fun k hk => hstrings k (hk.trans (Nat.lt_succ_self n))
    have hb := hstrings n (Nat.lt_succ_self n)
    rw [Function.iterate_succ_apply']
    generalize (encode serde)^[n] _ = s at ih hb ⊢
    have hr : parseOnce serde (serde.print (.string s)) = some (.string s) := by
      rw [parseOnce, hb, some_or]
    have hne : serde.print (.string s) ≠ [] := by
      intro hn
      rw [Json.Codec.ReadsBack, hn, hl.empty] at hb
      cases hb
    rw [parseToolArguments, encode, String.toList_ofList, parseWithin, hl.trimmed, if_neg hne, hr]
    exact (parseWithin_eq hl (parseOnce_string hl hr) (Nat.lt_succ_self _)).trans ih

end Lawful

/-! ### The texts of a table -/

/-- A text with its value is as `serde_json` would have it. -/
def LawfulEntry (entry : String × Json.Value) : Prop :=
  entry.1 ≠ "" ∧ trim entry.1.toList = entry.1.toList ∧ repairUnclosedJson entry.1.toList = none ∧
    ∀ x ∈ entry.2.asStr, x.toList.length < entry.1.toList.length ∧ entry.1.toList.getLast? = some '"'
  deriving Decidable

theorem fromStr_nil_ofTable {table : List (String × Json.Value)} (he : ∀ entry ∈ table, LawfulEntry entry) :
    (Json.Codec.ofTable table).fromStr [] = none := by
  by_contra h
  obtain ⟨v, hv⟩ := ne_none_iff_exists'.mp h
  obtain ⟨text, ht, htext⟩ := Json.Codec.mem_of_fromStr_ofTable hv
  exact (he _ ht).1 (String.toList_eq_nil_iff.mp htext)

theorem lawful_ofTable {table : List (String × Json.Value)} (he : ∀ entry ∈ table, LawfulEntry entry)
    (hn : (table.map Prod.fst).Nodup) (hnull : .null ∈ table.map Prod.snd) : Lawful (.ofTable table) where
  shorter s x h := by
    obtain ⟨text, ht, rfl⟩ := Json.Codec.mem_of_fromStr_ofTable h
    exact ((he _ ht).2.2.2 x rfl).1
  bracket s x c hc h := by
    obtain ⟨text, ht, htext⟩ := Json.Codec.mem_of_fromStr_ofTable h
    have hlast := ((he _ ht).2.2.2 x rfl).2
    simp only [htext, getLast?_append, getLast?_singleton, some_or, some.injEq] at hlast
    subst hlast
    revert hc
    decide
  empty := fromStr_nil_ofTable he
  trimmed v := by
    obtain ⟨text, ht, hp⟩ | ⟨hp, -⟩ := Json.Codec.print_ofTable table v
    · rw [hp, (he _ ht).2.1]
    · rw [hp]
      rfl
  closed v := by
    obtain ⟨text, ht, hp⟩ | ⟨hp, -⟩ := Json.Codec.print_ofTable table v
    · rw [hp, (he _ ht).2.2.1]
    · rw [hp]
      rfl
  null := Json.Codec.readsBack_ofTable hn hnull
  string v x h := by
    obtain ⟨text, ht, -⟩ | ⟨hp, -⟩ := Json.Codec.print_ofTable table v
    · have hb := Json.Codec.readsBack_ofTable hn (mem_map_of_mem ht)
      exact some.inj (hb.symm.trans h)
    · rw [hp, fromStr_nil_ofTable he] at h
      cases h

/-- The texts of `true` encoded twice. -/
def encodedTrue : List (String × Json.Value) :=
  [("null", .null), ("true", .bool true), ("\"true\"", .string "true"), ("\"\\\"true\\\"\"", .string "\"true\"")]

theorem parseToolArguments_encoded_twice :
    parseToolArguments (.ofTable encodedTrue) "\"\\\"true\\\"\"" = .bool true :=
  parseToolArguments_encoded (v := .bool true)
    (lawful_ofTable (by decide +kernel) (by decide) (by decide)) (by decide +kernel)
    nofun 2 (by decide +kernel)

end XiaoO.LlmClient
