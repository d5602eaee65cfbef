import XiaoO.Base.Feed
import Mathlib.Data.List.Forall2

/-!
# Reading a shell script

The quoting rules of POSIX shells, as a machine that is fed the characters of a script: single and
double quotes, backslashes, parameters, command substitutions of both kinds, comments and operators.
What is given off is a list of pieces: where a word begins, its characters, and what is put in for
parameters and command substitutions.

A character is quoted if it stands for itself only. What comes after the reading of words is not
modelled: reserved words, here-documents, and the expansion of words.

## What is proved

A text in single quotes, with every single quote in it written `'\''`, is read as its characters,
all of them quoted (`feed_singleQuoted`). In double quotes this holds of the texts without
characters that act there (`reads_double`), and of no other ones (`doubleInert_of_read`).
-/

namespace XiaoO.Base.Shell

open List

inductive Piece where
  /-- A word begins. -/
  | begin
  | char (quoted : Bool) (c : Char)
  /-- The value of a parameter. It may become several words, or none, if it is not quoted. -/
  | param (quoted : Bool) (name : List Char)
  /-- The output of the commands up to the end of the substitution, likewise. -/
  | substOpen (quoted : Bool)
  | substClose
  | op (c : Char)
  deriving DecidableEq

/-- What ends a part of a script that is not quoted. -/
inductive Closer where
  | eof
  | paren
  | subst
  | backquote
  deriving DecidableEq

/-- How the next character is read. -/
inductive Mode where
  | plain (closer : Closer) (inWord : Bool)
  | single
  | double
  | comment
  /-- After a backslash. -/
  | escape
  /-- After a dollar sign. -/
  | dollar
  /-- In the name of a parameter, which is kept backwards. -/
  | name (acc : List Char)
  | brace (acc : List Char)
  deriving DecidableEq

/-- The modes that are open, the innermost first. -/
abbrev State := List Mode

def backquote : Char := Char.ofNat 0x60

variable (c : Char)

def isNameStart : Bool := c.isAlpha || c = '_'

def isNameChar : Bool := c.isAlphanum || c = '_'

def isSpecialParameter : Bool := c.isDigit || c ∈ ['@', '*', '#', '?', '-', '$', '!']

/-- The beginning of a word, where none has begun. -/
def begins (inWord : Bool) : List Piece := if inWord then [] else [.begin]

def stepPlain (closer : Closer) (inWord : Bool) (rest : State) (c : Char) : List Piece × State :=
  let here := Mode.plain closer true :: rest
  let apart := Mode.plain closer false :: rest
  if c = '\'' then (begins inWord, .single :: here)
  else if c = '"' then (begins inWord, .double :: here)
  else if c = '\\' then ([], .escape :: .plain closer inWord :: rest)
  else if c = '$' then (begins inWord, .dollar :: here)
  else if c = backquote then
    if closer = .backquote then ([.substClose], rest) else
      (begins inWord ++ [.substOpen false], .plain .backquote false :: here)
  else if c = ' ' ∨ c = '\t' then ([], apart)
  else if c = '(' then ([.op c], .plain .paren false :: apart)
  else if c = ')' then
    match closer with
    | .subst => ([.substClose], rest)
    | .paren => ([.op c], rest)
    | .eof | .backquote => ([.op c], apart)
  else if c ∈ ['\n', ';', '&', '|', '<', '>'] then ([.op c], apart)
  else if c = '#' ∧ inWord = false then ([], .comment :: apart)
  else (begins inWord ++ [.char false c], here)

def stepDouble (rest : State) (c : Char) : List Piece × State :=
  if c = '"' then ([], rest)
  else if c = '\\' then ([], .escape :: .double :: rest)
  else if c = '$' then ([], .dollar :: .double :: rest)
  else if c = backquote then ([.substOpen true], .plain .backquote false :: .double :: rest)
  else ([.char true c], .double :: rest)

def stepEscape (rest : State) (c : Char) : List Piece × State :=
  match rest with
  | .double :: _ =>
    if c = '\n' then ([], rest)
    else if c ∈ ['$', backquote, '"', '\\'] then ([.char true c], rest)
    else ([.char true '\\', .char true c], rest)
  | .plain closer inWord :: outer =>
    if c = '\n' then ([], rest) else (begins inWord ++ [.char true c], .plain closer true :: outer)
  | _ => ([], rest)

variable (state : State)

/-- A character where nothing is pending. -/
def stepBase (c : Char) : List Piece × State :=
  match state with
  | .plain closer inWord :: rest => stepPlain closer inWord rest c
  | .double :: rest => stepDouble rest c
  | .single :: rest => if c = '\'' then ([], rest) else ([.char true c], state)
  | .comment :: rest => if c = '\n' then ([.op c], rest) else ([], state)
  | _ => ([], state)

def quoted : Bool := state.head? = some .double

def step (c : Char) : List Piece × State :=
  match state with
  | .escape :: rest => stepEscape rest c
  | .dollar :: rest =>
    if c = '(' then ([.substOpen (quoted rest)], .plain .subst false :: rest)
    else if c = '{' then ([], .brace [] :: rest)
    else if isNameStart c then ([], .name [c] :: rest)
    else if isSpecialParameter c then ([.param (quoted rest) [c]], rest)
    else (.char (quoted rest) '$' :: (stepBase rest c).1, (stepBase rest c).2)
  | .name acc :: rest =>
    if isNameChar c then ([], .name (c :: acc) :: rest)
    else (.param (quoted rest) acc.reverse :: (stepBase rest c).1, (stepBase rest c).2)
  | .brace acc :: rest => if c = '}' then ([.param (quoted rest) acc.reverse], rest) else
      ([], .brace (c :: acc) :: rest)
  | _ => stepBase state c

/-- What is pending at the end, if all quotes and substitutions are closed. -/
def finish : State → Option (List Piece)
  | [.plain .eof _] => some []
  | [.comment, .plain .eof _] => some []
  | [.dollar, .plain .eof _] => some [.char false '$']
  | [.name acc, .plain .eof _] => some [.param false acc.reverse]
  | _ => none

def start : State := [.plain .eof false]

def read (script : List Char) : Option (List Piece) :=
  (finish (feed step start script).2).map fun last => (feed step start script).1 ++ last

/-! ### Pieces of texts -/

def word (s : String) : List Piece := .begin :: s.toList.map (.char false)

/-- A text that stands for itself. -/
def literal (s : List Char) : List Piece := s.map (.char true)

/-! ### Quotes -/

/-- How a character is written within single quotes. -/
def quoteChar : List Char := if c = '\'' then "'\\''".toList else [c]

theorem feed_quoteChar (cl : Closer) (r : State) :
    feed step (.single :: .plain cl true :: r) (quoteChar c) = ([.char true c], .single :: .plain cl true :: r) := by
  by_cases hc : c = '\''
  · subst hc
    rfl
  · simp [quoteChar, hc, feed, step, stepBase]

/-- A text in single quotes, where each of its single quotes is written `'\''`. -/
def singleQuoted (s : List Char) : List Char := '\'' :: s.flatMap quoteChar ++ ['\'']

variable (s : List Char) (cl : Closer)

theorem feed_flatMap_quoteChar (r : State) : feed step (.single :: .plain cl true :: r) (s.flatMap quoteChar) =
      (literal s, .single :: .plain cl true :: r) := by
  induction s with
  | nil => rfl
  | cons c s ih =>
    rw [flatMap_cons, feed_append, feed_quoteChar, ih]
    rfl

/-- **A quoted text is read as itself**, and belongs to the word that it stands in. -/
theorem feed_singleQuoted (i : Bool) (r : State) :
    feed step (.plain cl i :: r) (singleQuoted s) = (begins i ++ literal s, .plain cl true :: r) := by
  have ho : step (.plain cl i :: r) '\'' = (begins i, .single :: .plain cl true :: r) := rfl
  rw [singleQuoted, cons_append, feed, ho, feed_append, feed_flatMap_quoteChar]
  simp [feed, step, stepBase]

/-! ### Double quotes -/

/-- What a dollar sign expands with. -/
def expands : Bool := c = '(' || c = '{' || isNameStart c || isSpecialParameter c

/-- In double quotes, a character that does nothing to the next one. -/
def Apart (next : Char) : Prop :=
  (c = '\\' → next ∉ ['$', backquote, '"', '\\', '\n']) ∧ (c = '$' → expands next = false)
  deriving Decidable

/-- A text that stands for itself in double quotes: without backquotes and double quotes, and every
backslash and every dollar sign is followed by a character that it does not act on. -/
def DoubleInert : List Char → Prop
  | [] => True
  | c :: s => c ∉ [backquote, '"'] ∧ (∀ next ∈ s.head?, Apart c next) ∧ DoubleInert s

instance : DecidablePred DoubleInert
  | [] => isTrue trivial
  | c :: s =>
    have := instDecidablePredListCharDoubleInert s
    have : Decidable (∀ next ∈ s.head?, Apart c next) := Option.decidableForallMem _
    inferInstanceAs (Decidable (_ ∧ _))

/-- A character that does nothing to any other. -/
theorem doubleInert_cons_iff {c : Char} (hc : c ∉ [backquote, '"', '\\', '$']) (s : List Char) :
    DoubleInert (c :: s) ↔ DoubleInert s := by
  simp only [mem_cons, not_mem_nil, or_false, not_or] at hc
  simp [DoubleInert, Apart, hc]

/-- A character that nothing acts on may come last. -/
theorem doubleInert_concat_iff {l : Char} (hl : l ∉ ['$', backquote, '"', '\\', '\n']) (he : expands l = false)
    (s : List Char) : DoubleInert (s ++ [l]) ↔ DoubleInert s := by
  have ha (c : Char) : Apart c l := ⟨fun _ => hl, fun _ => he⟩
  induction s with
  | nil =>
    simp only [mem_cons, not_mem_nil, or_false, not_or] at hl
    simp [DoubleInert, hl]
  | cons c s ih =>
    simp only [cons_append, DoubleInert, ih]
    cases s <;> simp [ha]

/-- The number of characters that are read and not given off yet. -/
def Mode.held : Mode → ℕ
  | .escape | .dollar => 1
  | _ => 0

def held : ℕ := (state.head?.map Mode.held).getD 0

@[simp] theorem held_cons (m : Mode) (r : State) : held (m :: r) = m.held := rfl

theorem held_le_one (st : State) : held st ≤ 1 := by
  rcases st with _ | ⟨_ | _ | _ | _ | _ | _ | _ | _, r⟩ <;> simp [held, Mode.held]

def Piece.isQuoted : Piece → Bool
  | .char true _ => true
  | _ => false

/-- The number of characters that stand for themselves. -/
def countQuoted (pieces : List Piece) : ℕ := pieces.countP Piece.isQuoted

@[simp] theorem countQuoted_nil : countQuoted [] = 0 := rfl

@[simp] theorem countQuoted_append (p q : List Piece) : countQuoted (p ++ q) = countQuoted p + countQuoted q :=
  countP_append

@[simp] theorem countQuoted_begins (i : Bool) : countQuoted (begins i) = 0 := by cases i <;> rfl

@[simp] theorem countQuoted_cons (p : Piece) (q : List Piece) :
    countQuoted (p :: q) = countQuoted q + if p.isQuoted then 1 else 0 := countP_cons

theorem countQuoted_literal (s : List Char) : countQuoted (literal s) = s.length := by
  simp [countQuoted, literal, countP_map, Function.comp_def, Piece.isQuoted]

theorem countQuoted_stepBase_le (st : State) (c : Char) :
    countQuoted (stepBase st c).1 + held (stepBase st c).2 ≤ 1 := by
  unfold stepBase
  split
  · rename_i r
    have hr := held_le_one r
    dsimp only [stepPlain]
    -- `split` is slow here: at each condition it goes through all that follow
    repeat'
      refine iteInduction (motive := fun p : List Piece × State => countQuoted p.1 + held p.2 ≤ 1)
        (fun _ => ?_) fun _ => ?_
    all_goals (try split) <;> simp [Piece.isQuoted, Mode.held, hr]
  · rename_i r
    have hr := held_le_one r
    unfold stepDouble
    split_ifs <;> simp [Piece.isQuoted, Mode.held, hr]
  · rename_i r
    have hr := held_le_one r
    split_ifs <;> simp [Piece.isQuoted, Mode.held, hr]
  · rename_i r
    have hr := held_le_one r
    split_ifs <;> simp [Piece.isQuoted, Mode.held, hr]
  · simpa using held_le_one st

theorem countQuoted_stepEscape_le (r : State) (c : Char) :
    countQuoted (stepEscape r c).1 + held (stepEscape r c).2 ≤ 2 := by
  have hr := held_le_one r
  unfold stepEscape
  split
  · split_ifs <;> simp [Piece.isQuoted, Mode.held]
  · split_ifs <;> simp [Piece.isQuoted, Mode.held]
  · simp
    omega

/-- A character is given off once at most. -/
theorem countQuoted_step_le (st : State) (c : Char) :
    countQuoted (step st c).1 + held (step st c).2 ≤ held st + 1 := by
  have hb := countQuoted_stepBase_le st c
  unfold step
  split
  · exact countQuoted_stepEscape_le _ c
  · rename_i r
    have hr := held_le_one r
    have hb := countQuoted_stepBase_le r c
    split_ifs
    · simp [Piece.isQuoted, Mode.held]
    · simp [Mode.held]
    · simp [Mode.held]
    · simp [Piece.isQuoted, Mode.held]
      omega
    · rw [countQuoted_cons, held_cons, Mode.held]
      dsimp only
      split_ifs <;> omega
  · rename_i acc r
    have hb := countQuoted_stepBase_le r c
    split_ifs
    · simp [Mode.held]
    · simpa [Piece.isQuoted, Mode.held] using hb
  · rename_i acc r
    have hr := held_le_one r
    split_ifs
    · simp [Piece.isQuoted, Mode.held, hr]
    · simp [Mode.held]
  · omega

theorem countQuoted_feed_le (st : State) (s : List Char) :
    countQuoted (feed step st s).1 + held (feed step st s).2 ≤ held st + s.length := by
  induction s generalizing st with
  | nil => simp [feed]
  | cons c s ih =>
    have hs := countQuoted_step_le st c
    have hi := ih (step st c).2
    rw [feed, countQuoted_append, length_cons]
    dsimp only
    omega

/-- In double quotes, with the text that is read and not given off yet. -/
inductive InDouble (r : State) : State → List Char → Prop
  | none : InDouble r (.double :: r) []
  | escape : InDouble r (.escape :: .double :: r) ['\\']
  | dollar : InDouble r (.dollar :: .double :: r) ['$']

variable {r st : State} {u : List Char}

/-- What is held is given off before the next character, if it does nothing to it. -/
theorem InDouble.step_of_apart {a c : Char} (h : InDouble r st [a]) (ha : Apart a c) :
    step st c = (.char true a :: (step (.double :: r) c).1, (step (.double :: r) c).2) := by
  cases h with
  | escape =>
    have hs := ha.1 rfl
    simp only [mem_cons, not_mem_nil, or_false, not_or] at hs
    simp [step, stepEscape, stepBase, stepDouble, hs]
  | dollar =>
    have he := ha.2 rfl
    simp only [expands, Bool.or_eq_false_iff, decide_eq_false_iff_not] at he
    simp [step, quoted, he]

/-- Otherwise it is lost. -/
theorem InDouble.countQuoted_step_le {a c : Char} (h : InDouble r st [a]) (ha : ¬ Apart a c) :
    countQuoted (step st c).1 + held (step st c).2 ≤ 1 := by
  cases h with
  | escape =>
    have hs : c = '\n' ∨ c ∈ ['$', backquote, '"', '\\'] := by
      simp only [Apart] at ha
      grind
    simp only [step, stepEscape]
    split_ifs
    · simp [Mode.held]
    · simp [Piece.isQuoted, Mode.held]
    · exact absurd hs (by simp_all)
  | dollar =>
    have he : expands c = true := by simpa [Apart] using ha
    simp only [expands, Bool.or_eq_true, decide_eq_true_eq] at he
    simp only [step]
    split_ifs
    · simp [Piece.isQuoted, Mode.held]
    · simp [Mode.held]
    · simp [Mode.held]
    · simp [Piece.isQuoted, Mode.held]
    · exact absurd he (by simp_all)

/-- Where nothing is held, a character stands for itself, or it is lost. -/
theorem step_double_cases (hr : held r = 0) (c : Char) :
    (∃ v, InDouble r (step (.double :: r) c).2 v ∧ (step (.double :: r) c).1 ++ literal v = literal [c] ∧
        ∀ s, DoubleInert (c :: s) ↔ DoubleInert (v ++ s)) ∨
      (∀ s, ¬ DoubleInert (c :: s)) ∧
        countQuoted (step (.double :: r) c).1 + held (step (.double :: r) c).2 = 0 := by
  by_cases hq : c ∈ [backquote, '"']
  · refine .inr ⟨fun s hs => hs.1 hq, ?_⟩
    simp only [mem_cons, not_mem_nil, or_false] at hq
    rcases hq with rfl | rfl
    · rfl
    · exact (Nat.zero_add _).trans hr
  refine .inl ?_
  by_cases hb : c = '\\'
  · subst hb
    exact ⟨['\\'], .escape, rfl, fun s => Iff.rfl⟩
  by_cases hd : c = '$'
  · subst hd
    exact ⟨['$'], .dollar, rfl, fun s => Iff.rfl⟩
  simp only [mem_cons, not_mem_nil, or_false, not_or] at hq
  have hst : step (.double :: r) c = ([.char true c], .double :: r) := by
    simp [step, stepBase, stepDouble, hq, hb, hd]
  exact ⟨[], hst ▸ .none, by rw [hst]; rfl, doubleInert_cons_iff (by simp [hq, hb, hd])⟩

theorem InDouble.eq_nil_or_singleton (h : InDouble r st u) :
    u = [] ∧ st = .double :: r ∨ ∃ a, u = [a] ∧ a ∉ [backquote, '"'] := by
  cases h with
  | none => exact .inl ⟨rfl, rfl⟩
  | escape | dollar => exact .inr ⟨_, rfl, by decide⟩

/-- **A character in double quotes** is kept with what is held, or one of them is lost. -/
theorem InDouble.step_cases (h : InDouble r st u) (hr : held r = 0) (c : Char) :
    (∃ v, InDouble r (step st c).2 v ∧ (step st c).1 ++ literal v = literal (u ++ [c]) ∧
        ∀ s, DoubleInert (u ++ c :: s) ↔ DoubleInert (v ++ s)) ∨
      (∀ s, ¬ DoubleInert (u ++ c :: s)) ∧ countQuoted (step st c).1 + held (step st c).2 ≤ u.length := by
  rcases h.eq_nil_or_singleton with ⟨rfl, rfl⟩ | ⟨a, rfl, ha⟩
  · exact (step_double_cases hr c).imp_right fun ⟨hn, hc⟩ => ⟨hn, Nat.le_of_eq hc⟩
  by_cases hap : Apart a c
  · rw [h.step_of_apart hap]
    rcases step_double_cases hr c with ⟨v, hv, hl, hi⟩ | ⟨hn, hc⟩
    · refine .inl ⟨v, hv, congrArg (Piece.char true a :: ·) hl, fun s => ?_⟩
      rw [← hi]
      exact ⟨fun hd => hd.2.2, fun hd => ⟨ha, fun n hn => by cases hn; exact hap, hd⟩⟩
    · refine .inr ⟨fun s hd => hn s hd.2.2, ?_⟩
      rw [countQuoted_cons, Nat.add_right_comm, hc]
      simp [Piece.isQuoted]
  · exact .inr ⟨fun s hd => hap (hd.2.1 c rfl), h.countQuoted_step_le hap⟩

/-- **A text in double quotes** that stands for itself is read as itself; of any other text a
character is lost. -/
theorem InDouble.feed_cases (h : InDouble r st u) (hr : held r = 0) (s : List Char) :
    (DoubleInert (u ++ s) ∧ ∃ v, InDouble r (feed step st s).2 v ∧
        (feed step st s).1 ++ literal v = literal (u ++ s)) ∨
      ¬ DoubleInert (u ++ s) ∧
        countQuoted (feed step st s).1 + held (feed step st s).2 < u.length + s.length := by
  induction s generalizing st u with
  | nil =>
    refine .inl ⟨?_, u, h, by simp [feed]⟩
    cases h <;> simp [DoubleInert, backquote]
  | cons c s ih =>
    rw [feed]
    rcases h.step_cases hr c with ⟨v, hv, hl, hi⟩ | ⟨hn, hc⟩
    · have hlen : countQuoted (step st c).1 + v.length = u.length + 1 := by
        simpa [countQuoted_literal] using congrArg countQuoted hl
      rw [hi]
      refine (ih hv).imp ?_ ?_
      · rintro ⟨hd, w, hw, hlw⟩
        refine ⟨hd, w, hw, ?_⟩
        rw [append_assoc, hlw, literal, map_append, ← append_assoc]
        change ((step st c).1 ++ literal v) ++ literal s = _
        rw [hl]
        simp [literal]
      · rintro ⟨hd, hlt⟩
        refine ⟨hd, ?_⟩
        rw [countQuoted_append, length_cons]
        dsimp only
        omega
    · refine .inr ⟨hn s, ?_⟩
      have hf := countQuoted_feed_le (step st c).2 s
      rw [countQuoted_append, length_cons]
      dsimp only
      omega

/-! ### Scripts in parts -/

/-- A part of a script is read from one state to another. -/
def Reads (from_ : State) (text : List Char) (pieces : List Piece) (to_ : State) : Prop :=
    feed step from_ text = (pieces, to_)
  deriving Decidable

theorem Reads.append {a b c : State} {s t : List Char} {p q : List Piece} (hs : Reads a s p b) (ht : Reads b t q c) :
    Reads a (s ++ t) (p ++ q) c := by
  unfold Reads at *
  rw [feed_append, hs, ht]

/-- A part without pieces, such as a blank. -/
theorem Reads.skip {a b c : State} {s t : List Char} {p : List Piece} (hs : Reads a s p b) (ht : Reads b t [] c) :
    Reads a (s ++ t) p c := by
  have ha := hs.append ht
  rwa [append_nil] at ha

section Double

variable {r : State} {s t : List Char} {l : Char}

/-- **A text that stands for itself** in double quotes, up to a character that does nothing to what
comes next. -/
theorem reads_double (hr : held r = 0) (hl : l ∉ ['\\', '$']) (h : DoubleInert (s ++ [l])) :
    Reads (.double :: r) (s ++ [l]) (literal (s ++ [l])) (.double :: r) := by
  rcases InDouble.none.feed_cases hr (s ++ [l]) with ⟨-, v, hv, hf⟩ | ⟨hn, -⟩
  · rcases hout : feed step (.double :: r) (s ++ [l]) with ⟨p, st⟩
    rw [hout, nil_append] at hf
    rw [hout] at hv
    have hg := congrArg getLast? hf
    cases hv with
    | none => rw [Reads, hout, ← hf, literal, map_nil, append_nil]
    | escape | dollar =>
      simp only [literal, map_append, map_cons, map_nil, getLast?_concat, Option.some.injEq, Piece.char.injEq] at hg
      exact absurd hg.2.symm fun he => hl (by simp [he])
  · exact absurd h hn

theorem mem_stepBase {st : State} {c : Char} {q : Bool} {x : Char} (h : .char q x ∈ (stepBase st c).1) : x = c := by
  unfold stepBase at h
  split at h
  · revert h
    dsimp only [stepPlain]
    repeat'
      refine iteInduction (motive := fun p : List Piece × State => Piece.char q x ∈ p.1 → x = c)
        (fun _ => ?_) fun _ => ?_
    all_goals (try split) <;> cases ‹Bool› <;> simp +contextual [begins]
  · unfold stepDouble at h
    split_ifs at h <;> simp_all
  all_goals (try split_ifs at h) <;> simp_all

/-- A character that is given off is the one that is read, or was held. -/
theorem mem_step {st : State} {c : Char} {q : Bool} {x : Char} (h : .char q x ∈ (step st c).1) :
    x = c ∨ x ∈ ['\\', '$'] := by
  unfold step at h
  split at h
  · unfold stepEscape at h
    split at h
    · split_ifs at h <;> simp_all
      grind
    · split_ifs at h <;> simp_all [begins]
    · cases h
  · split_ifs at h
    · simp at h
    · cases h
    · cases h
    · simp at h
    · rcases mem_cons.mp h with h | h
      · exact .inr (by simp_all)
      · exact .inl (mem_stepBase h)
  · split_ifs at h
    · cases h
    · exact .inl (mem_stepBase (by simpa using h))
  · split_ifs at h <;> simp at h
  · exact .inl (mem_stepBase h)

theorem mem_feed {st : State} {q : Bool} {x : Char} (h : .char q x ∈ (feed step st s).1) : x ∈ s ∨
    x ∈ ['\\', '$'] := by
  induction s generalizing st with
  | nil => cases h
  | cons c s ih =>
    rw [feed, mem_append] at h
    rcases h with h | h
    · refine (mem_step h).imp_left ?_
      rintro rfl
      exact mem_cons_self
    · exact (ih h).imp_left (mem_cons_of_mem c)

/-- Where a character is lost, the last one, which is not in the rest of the script, does not come
in its place. -/
theorem doubleInert_of_prefix (hr : held r = 0) (hl : l ∉ ['\\', '$']) (ht : l ∉ t) {last : List Piece}
    (hlast : .char true l ∉ last) (h : literal (s ++ [l]) <+: (feed step (.double :: r) (s ++ [l] ++ t)).1 ++ last) :
    DoubleInert (s ++ [l]) := by
  rcases InDouble.none.feed_cases hr (s ++ [l]) with ⟨hi, -⟩ | ⟨-, hc⟩
  · exact hi
  exfalso
  rw [feed_append, append_assoc] at h
  generalize feed step (.double :: r) (s ++ [l]) = out at h hc
  rw [length_nil, Nat.zero_add, ← countQuoted_literal] at hc
  rcases prefix_or_prefix_of_prefix h (prefix_append out.1 _) with ⟨q, hq⟩ | ⟨q, hq⟩
  · rw [← hq, countQuoted_append] at hc
    omega
  · rw [← hq] at h hc
    have hm : .char true l ∈ q := by
      rcases eq_nil_or_concat q with rfl | ⟨q, p, rfl⟩
      · rw [append_nil] at hc
        omega
      · rw [concat_eq_append, ← append_assoc] at hq
        have hg := congrArg getLast? hq
        simp only [literal, map_append, map_cons, map_nil, getLast?_concat, Option.some.injEq] at hg
        simp [hg]
    rcases mem_append.mp (((prefix_append_right_inj out.1).mp h).subset hm) with hf | hf
    · exact (mem_feed hf).elim ht hl
    · exact hlast hf

end Double

theorem reads_singleQuoted (i : Bool) (r : State) :
    Reads (.plain cl i :: r) (singleQuoted s) (begins i ++ literal s) (.plain cl true :: r) :=
  feed_singleQuoted s cl i r

/-- A text that is read as one or more words. -/
def ReadsWords (text : List Char) (pieces : List Piece) : Prop := Reads start text pieces [.plain .eof true]
  deriving Decidable

/-- **Words that are joined by blanks.** -/
theorem ReadsWords.intercalate {s : List Char} {p : List Piece} {pr : List (List Char)} {ps : List (List Piece)}
    (hf : ReadsWords s p) (hr : List.Forall₂ ReadsWords pr ps) :
    ReadsWords ([' '].intercalate (s :: pr)) (p :: ps).flatten := by
  have hb : Reads [.plain .eof true] [' '] [] start := rfl
  induction hr generalizing s p with
  | nil => simpa [intercalate] using hf
  | cons ht _ ih =>
    rw [intercalate_cons_cons]
    exact (hf.skip hb).append (ih ht)

theorem notMem_finish {st : State} {last : List Piece} (h : finish st = some last)
    (c : Char) : .char true c ∉ last := by
  unfold finish at h
  split at h <;> cases h <;> simp

/-- **Only a text without such characters is read as itself** in double quotes. -/
theorem doubleInert_of_read {r : State} {before s t : List Char} {p q : List Piece} {l : Char}
    (hb : Reads start before p (.double :: r)) (hr : held r = 0) (hl : l ∉ ['\\', '$']) (ht : l ∉ t)
    (h : read (before ++ (s ++ [l] ++ t)) = some (p ++ (literal (s ++ [l]) ++ q))) : DoubleInert (s ++ [l]) := by
  rw [read, feed_append, hb] at h
  obtain ⟨last, hf, he⟩ := Option.map_eq_some_iff.mp h
  rw [append_assoc] at he
  exact doubleInert_of_prefix hr hl ht (notMem_finish hf l) ⟨q, (append_cancel_left he).symm⟩

theorem Reads.read {t : List Char} {pieces : List Piece} {i : Bool}
    (h : Reads start t pieces [.plain .eof i]) : Shell.read t = some pieces := by
  unfold Reads at h
  simp [Shell.read, h, finish]

end XiaoO.Base.Shell
