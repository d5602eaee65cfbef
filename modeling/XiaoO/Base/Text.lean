import Mathlib.Algebra.Order.Ring.Int

/-!
# Texts

`str::trim`, `str::lines`, `str::parse` and functions that cut a text, on strings and on lists of
characters; and when a text can be read back from its code (`eq_of_flatMap_eq`).
-/

universe u v

namespace XiaoO.Base

open List

variable (c : Char)

/-- The characters of the Unicode property `White_Space`. -/
def isWhitespace : Bool :=
  c.toNat ∈ [0x9, 0xA, 0xB, 0xC, 0xD, 0x20, 0x85, 0xA0, 0x1680, 0x2000, 0x2001, 0x2002, 0x2003, 0x2004, 0x2005,
    0x2006, 0x2007, 0x2008, 0x2009, 0x200A, 0x2028, 0x2029, 0x202F, 0x205F, 0x3000]

/-- `s.trim().is_empty()`. -/
def isBlank (s : String) : Bool := s.toList.all isWhitespace

variable (s : List Char)

def trim : List Char := ((s.dropWhile isWhitespace).reverse.dropWhile isWhitespace).reverse

/-- `s.split_whitespace().next()`. -/
def firstWord? : Option (List Char) :=
  let word := (s.dropWhile isWhitespace).takeWhile fun c => !isWhitespace c
  if word.isEmpty then none else some word

def stripPrefix? (start s : List Char) : Option (List Char) :=
    if start.isPrefixOf s then some (s.drop start.length) else none

/-- `str::split_once`, at a character. -/
def splitOnce? : Option (List Char × List Char) :=
  match s.dropWhile (· ≠ c) with
  | [] => none
  | _ :: rest => some (s.takeWhile (· ≠ c), rest)

/-- `str::rsplit_once`, at a character. -/
def rsplitOnce? : Option (List Char × List Char) :=
  (splitOnce? c s.reverse).map fun (last, start) => (start.reverse, last.reverse)

/-- The lines of a text, with the current line so far, backwards. -/
def linesFrom : List Char → List Char → List String
  | [], [] => []
  | line, [] => [String.ofList line.reverse]
  | '\r' :: line, '\n' :: s => String.ofList line.reverse :: linesFrom [] s
  | line, '\n' :: s => String.ofList line.reverse :: linesFrom [] s
  | line, c :: s => linesFrom (c :: line) s

/-- `str::lines`: a line ends with a line feed, which a carriage return may precede; the last one
need not. -/
def textLines (s : String) : List String := linesFrom [] s.toList

/-- `str::replace`, of a character. -/
def replaceChar (new s : String) : String :=
  String.ofList (s.toList.flatMap fun x => if x = c then new.toList else [x])

/-- `str::parse`, of a `u64`: digits, which a plus sign may precede. -/
def parseU64? : Option Nat :=
  let digits : List Char := match s with
    | '+' :: digits => digits
    | digits => digits
  let n : Nat := digits.foldl (fun n c => 10 * n + (c.toNat - '0'.toNat)) 0
  if digits ≠ [] ∧ digits.all Char.isDigit ∧ n < 2 ^ 64 then some n else none

/-- `str::parse`, of an `i32`: digits, which a sign may precede. -/
def parseI32? : Option Int :=
  let (sign, digits) : Int × List Char := match s with
    | '-' :: digits => (-1, digits)
    | '+' :: digits => (1, digits)
    | digits => (1, digits)
  let n : Int := sign * (digits.foldl (fun n c => 10 * n + (c.toNat - '0'.toNat)) 0 : Nat)
  if digits ≠ [] ∧ digits.all Char.isDigit ∧ -2 ^ 31 ≤ n ∧ n < 2 ^ 31 then some n else none

/-- A code that can be read off the front of a text can be read off the whole text. -/
theorem eq_of_flatMap_eq {α : Type u} {β : Type v} {c : α → List β} (hne : ∀ a, c a ≠ [])
    (hc : ∀ {a b : α} {x y : List β}, c a ++ x = c b ++ y → a = b) {s t : List α}
    (h : s.flatMap c = t.flatMap c) : s = t := by
  induction s generalizing t with
  | nil =>
    cases t with
    | nil => rfl
    | cons b =>
      exact absurd (append_eq_nil_iff.mp h.symm).1 (hne b)
  | cons a s ih =>
    cases t with
    | nil =>
      exact absurd (append_eq_nil_iff.mp h).1 (hne a)
    | cons =>
      obtain rfl := hc h
      rw [ih (append_cancel_left h)]

end XiaoO.Base
