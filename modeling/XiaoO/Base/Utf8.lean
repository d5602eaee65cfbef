import XiaoO.Base.Occurrences

/-!
# UTF-8

Texts as bytes, and `String::from_utf8_lossy`: bytes that are not UTF-8 are read with a replacement
character for each longest part that could have been the start of a character. The decoder goes over
the bytes one at a time; in the middle of a character it knows how many bytes are owed, the bounds
of the next one and the bits so far.

## What is proved

What is encoded is read back (`fromUtf8Lossy_utf8Encode`), so bytes are UTF-8 exactly if they are
the encoding of what is read (`validUtf8_iff`). The bytes of a text occur in those of another only
where the text itself does (`occursAt_of_utf8Encode`): no occurrence starts in the middle of a
character.
-/

namespace XiaoO.Base

open List

def utf8Encode (text : List Char) : List UInt8 := text.flatMap String.utf8EncodeChar

/-- `char::REPLACEMENT_CHARACTER`. -/
def replacementChar : Char := Char.ofNat 0xFFFD

/-- In the middle of a character: the bytes still owed, the bounds of the next one and the bits so
far. -/
structure Pending where
  owed : ℕ
  low : ℕ
  high : ℕ
  bits : ℕ

/-- The first byte of a character: the characters read, and what is pending. -/
def lead (b : ℕ) : List Char × Option Pending :=
  if b < 0x80 then ([Char.ofNat b], none)
  else if b < 0xC2 then ([replacementChar], none)
  else if b < 0xE0 then ([], some ⟨1, 0x80, 0xBF, b - 0xC0⟩)
  else if b = 0xE0 then ([], some ⟨2, 0xA0, 0xBF, 0⟩)
  else if b = 0xED then ([], some ⟨2, 0x80, 0x9F, 0xD⟩)
  else if b < 0xF0 then ([], some ⟨2, 0x80, 0xBF, b - 0xE0⟩)
  else if b = 0xF0 then ([], some ⟨3, 0x90, 0xBF, 0⟩)
  else if b < 0xF4 then ([], some ⟨3, 0x80, 0xBF, b - 0xF0⟩)
  else if b = 0xF4 then ([], some ⟨3, 0x80, 0x8F, 4⟩)
  else ([replacementChar], none)

/-- One byte. A byte out of bounds ends the pending character and is read as a first byte. -/
def decodeByte : Option Pending → ℕ → List Char × Option Pending
  | none, b => lead b
  | some p, b =>
    if p.low ≤ b ∧ b ≤ p.high then
      if p.owed = 1 then ([Char.ofNat (p.bits * 64 + (b - 0x80))], none)
      else ([], some ⟨p.owed - 1, 0x80, 0xBF, p.bits * 64 + (b - 0x80)⟩)
    else (replacementChar :: (lead b).1, (lead b).2)

/-- Read bytes, with what is pending. -/
def decodeFrom : Option Pending → List UInt8 → List Char
  | none, [] => []
  | some _, [] => [replacementChar]
  | p, b :: bytes => (decodeByte p b.toNat).1 ++ decodeFrom (decodeByte p b.toNat).2 bytes

def fromUtf8Lossy (bytes : List UInt8) : List Char := decodeFrom none bytes

/-- The bytes are the encoding of a text. -/
def ValidUtf8 (bytes : List UInt8) : Prop := ∃ text, utf8Encode text = bytes

/-! ### What is encoded is read back -/

@[simp] theorem utf8Encode_append (s t : List Char) : utf8Encode (s ++ t) = utf8Encode s ++ utf8Encode t := by
  simp [utf8Encode]

variable {bytes : List UInt8} {n : ℕ} {p : Pending}

theorem ValidUtf8.append {m : List UInt8} (h : ValidUtf8 bytes) (hm : ValidUtf8 m) : ValidUtf8 (bytes ++ m) := by
  obtain ⟨t, rfl⟩ := h
  obtain ⟨r, rfl⟩ := hm
  exact ⟨t ++ r, utf8Encode_append t r⟩

theorem utf8Encode_cons (c : Char) (s : List Char) :
    utf8Encode (c :: s) = String.utf8EncodeChar c ++ utf8Encode s := rfl

theorem decodeFrom_cons (p : Option Pending) (b : UInt8) (bytes : List UInt8) :
    decodeFrom p (b :: bytes) = (decodeByte p b.toNat).1 ++ decodeFrom (decodeByte p b.toNat).2 bytes := by
  cases p <;> rfl

theorem toNat_ofNat_byte (h : n < 256) : (UInt8.ofNat n).toNat = n := by
  simp [Nat.mod_eq_of_lt h]

/-- A byte within the bounds, with more owed. -/
theorem decodeFrom_more (hn : n < 256) (hl : p.low ≤ n) (hh : n ≤ p.high) (ho : p.owed ≠ 1) (bytes : List UInt8) :
    decodeFrom (some p) (UInt8.ofNat n :: bytes) =
      decodeFrom (some ⟨p.owed - 1, 0x80, 0xBF, p.bits * 64 + (n - 0x80)⟩) bytes := by
  rw [decodeFrom_cons, toNat_ofNat_byte hn]
  simp [decodeByte, hl, hh, ho]

theorem decodeFrom_last (hn : n < 256) (hl : p.low ≤ n) (hh : n ≤ p.high) (ho : p.owed = 1) (bytes : List UInt8) :
    decodeFrom (some p) (UInt8.ofNat n :: bytes) =
      Char.ofNat (p.bits * 64 + (n - 0x80)) :: decodeFrom none bytes := by
  rw [decodeFrom_cons, toNat_ofNat_byte hn]
  simp [decodeByte, hl, hh, ho]

/-- The first byte of a longer character. -/
theorem decodeFrom_lead (hn : n < 256) (hl : lead n = ([], some p)) (bytes : List UInt8) :
    decodeFrom none (UInt8.ofNat n :: bytes) = decodeFrom (some p) bytes := by
  rw [decodeFrom_cons, toNat_ofNat_byte hn]
  simp [decodeByte, hl]

/-- What the first byte of three tells, for a number that is not in the surrogate range. -/
theorem lead_of_three {v : ℕ} (hl : 0x800 ≤ v) (hh : v < 0x10000) (hv : v < 0xD800 ∨ 0xDFFF < v) :
    ∃ p : Pending, lead (v / 4096 % 16 + 224) = ([], some p) ∧ p.owed = 2 ∧ p.bits = v / 4096 ∧
      p.low ≤ v / 64 % 64 + 128 ∧ v / 64 % 64 + 128 ≤ p.high := by
  have hb : v / 4096 % 16 + 224 < 0xF0 := by omega
  unfold lead
  rw [if_neg (by omega), if_neg (by omega), if_neg (by omega)]
  split_ifs with h1 h2
  all_goals exact ⟨_, rfl, rfl, by dsimp only; omega, by dsimp only; omega, by dsimp only; omega⟩

theorem lead_of_four {v : ℕ} (hl : 0x10000 ≤ v) (hh : v < 0x110000) :
    ∃ p : Pending, lead (v / 262144 % 8 + 240) = ([], some p) ∧ p.owed = 3 ∧ p.bits = v / 262144 ∧
      p.low ≤ v / 4096 % 64 + 128 ∧ v / 4096 % 64 + 128 ≤ p.high := by
  unfold lead
  rw [if_neg (by omega), if_neg (by omega), if_neg (by omega), if_neg (by omega), if_neg (by omega),
    if_neg (by omega)]
  split_ifs with h1 h2 h3
  on_goal 4 => omega
  all_goals exact ⟨_, rfl, rfl, by dsimp only; omega, by dsimp only; omega, by dsimp only; omega⟩

theorem decodeFrom_utf8EncodeChar (c : Char) (bytes : List UInt8) :
    decodeFrom none (String.utf8EncodeChar c ++ bytes) = c :: decodeFrom none bytes := by
  obtain ⟨v, hv⟩ : ∃ v, v = c.val.toNat := ⟨_, rfl⟩
  have hc : Char.ofNat v = c := by rw [hv]; exact Char.ofNat_toNat c
  have hvl : v < 0xD800 ∨ 0xDFFF < v ∧ v < 0x110000 := by rw [hv]; exact c.valid
  rw [String.utf8EncodeChar, ← hv]
  split_ifs with h1 h2 h3
  · rw [singleton_append, decodeFrom_cons, toNat_ofNat_byte (by omega)]
    have hl : lead v = ([Char.ofNat v], none) := if_pos (by omega)
    simp [decodeByte, hl, hc]
  · have hl : lead (v / 64 % 32 + 192) = ([], some ⟨1, 0x80, 0xBF, v / 64 % 32 + 192 - 0xC0⟩) := by
      unfold lead
      rw [if_neg (by omega), if_neg (by omega), if_pos (by omega)]
    rw [cons_append, singleton_append, decodeFrom_lead (by omega) hl,
      decodeFrom_last (by omega) (by dsimp only; omega) (by dsimp only; omega) rfl]
    have hb : (v / 64 % 32 + 192 - 0xC0) * 64 + (v % 64 + 128 - 0x80) = v := by omega
    rw [hb, hc]
  · obtain ⟨p, hl, ho, hb, hlw, hh⟩ := lead_of_three (by omega) (by omega) (hvl.imp_right And.left)
    rw [cons_append, cons_append, singleton_append, decodeFrom_lead (by omega) hl,
      decodeFrom_more (by omega) hlw hh (by omega),
      decodeFrom_last (by omega) (by dsimp only; omega) (by dsimp only; omega) (by dsimp only; omega)]
    have hs : (p.bits * 64 + (v / 64 % 64 + 128 - 0x80)) * 64 + (v % 64 + 128 - 0x80) = v := by omega
    rw [hs, hc]
  · obtain ⟨p, hl, ho, hb, hlw, hh⟩ := lead_of_four (v := v) (by omega) (by omega)
    rw [cons_append, cons_append, cons_append, singleton_append, decodeFrom_lead (by omega) hl,
      decodeFrom_more (by omega) hlw hh (by omega),
      decodeFrom_more (by omega) (by dsimp only; omega) (by dsimp only; omega) (by dsimp only; omega),
      decodeFrom_last (by omega) (by dsimp only; omega) (by dsimp only; omega) (by dsimp only; omega)]
    have hs : ((p.bits * 64 + (v / 4096 % 64 + 128 - 0x80)) * 64 + (v / 64 % 64 + 128 - 0x80)) * 64 +
        (v % 64 + 128 - 0x80) = v := by omega
    rw [hs, hc]

/-- What is encoded is read back, whatever comes after it. -/
theorem decodeFrom_utf8Encode_append (text : List Char) (bytes : List UInt8) :
    decodeFrom none (utf8Encode text ++ bytes) = text ++ decodeFrom none bytes := by
  induction text with
  | nil => rfl
  | cons c text ih =>
    rw [utf8Encode_cons, append_assoc, decodeFrom_utf8EncodeChar, ih, cons_append]

/-- **What is encoded is read back.** -/
theorem fromUtf8Lossy_utf8Encode (text : List Char) : fromUtf8Lossy (utf8Encode text) = text := by
  simpa [fromUtf8Lossy, decodeFrom] using decodeFrom_utf8Encode_append text []

theorem lead_progress (b : ℕ) : (lead b).1 ≠ [] ∨ (lead b).2 ≠ none := by
  unfold lead
  repeat'
    refine iteInduction (motive := fun r : List Char × Option Pending => r.1 ≠ [] ∨ r.2 ≠ none)
      (fun _ => ?_) fun _ => ?_
  all_goals simp

/-- A byte is read, or something is pending after it. -/
theorem decodeByte_progress (p : Option Pending) (b : ℕ) : (decodeByte p b).1 ≠ [] ∨ (decodeByte p b).2 ≠ none := by
  cases p with
  | none => exact lead_progress b
  | some =>
    simp only [decodeByte]
    split_ifs <;> simp

theorem decodeFrom_ne_nil {p : Option Pending} (h : p ≠ none ∨ bytes ≠ []) : decodeFrom p bytes ≠ [] := by
  induction bytes generalizing p with
  | nil =>
    cases p with
    | none => simp at h
    | some => simp [decodeFrom]
  | cons b bytes ih =>
    rw [decodeFrom_cons]
    rcases decodeByte_progress p b.toNat with hr | hp
    · simp [hr]
    · simp [ih (.inl hp)]

theorem fromUtf8Lossy_ne_nil (h : bytes ≠ []) : fromUtf8Lossy bytes ≠ [] := decodeFrom_ne_nil (.inr h)

theorem utf8Encode_ne_nil {t : List Char} (h : t ≠ []) : utf8Encode t ≠ [] := by
  intro hn
  have ht := fromUtf8Lossy_utf8Encode t
  rw [hn] at ht
  exact h ht.symm

/-- Bytes are UTF-8 exactly if they are the encoding of what is read. -/
theorem validUtf8_iff : ValidUtf8 bytes ↔ utf8Encode (fromUtf8Lossy bytes) = bytes := by
  constructor
  · rintro ⟨t, rfl⟩
    rw [fromUtf8Lossy_utf8Encode]
  · exact fun h => ⟨_, h⟩

instance (bytes : List UInt8) : Decidable (ValidUtf8 bytes) := decidable_of_iff _ validUtf8_iff.symm

/-! ### Occurrences in the bytes -/

/-- Whether a byte continues a character. -/
def isTail (b : UInt8) : Bool := 0x80 ≤ b.toNat && b.toNat < 0xC0

/-- A character is a first byte and bytes that continue it. -/
theorem utf8EncodeChar_eq_cons (c : Char) :
    ∃ b bytes, String.utf8EncodeChar c = b :: bytes ∧ isTail b = false ∧ ∀ x ∈ bytes, isTail x = true := by
  obtain ⟨v, hv⟩ : ∃ v, v = c.val.toNat := ⟨_, rfl⟩
  have hh : ∀ n, n < 256 → n < 0x80 ∨ 0xC0 ≤ n → isTail (UInt8.ofNat n) = false := by
    intro n hn hr
    rw [isTail, toNat_ofNat_byte hn]
    rcases hr with h | h <;> simp <;> omega
  have ht : ∀ n, isTail (UInt8.ofNat (n % 64 + 128)) = true := by
    intro n
    rw [isTail, toNat_ofNat_byte (by omega)]
    simp
    omega
  rw [String.utf8EncodeChar, ← hv]
  split_ifs
  · exact ⟨_, _, rfl, hh _ (by omega) (by omega), forall_mem_nil _⟩
  · refine ⟨_, _, rfl, hh _ (by omega) (by omega), ?_⟩
    exact forall_mem_singleton.mpr (ht _)
  · refine ⟨_, _, rfl, hh _ (by omega) (by omega), ?_⟩
    exact forall_mem_cons.mpr ⟨ht _, forall_mem_singleton.mpr (ht _)⟩
  · refine ⟨_, _, rfl, hh _ (by omega) (by omega), ?_⟩
    exact forall_mem_cons.mpr
      ⟨ht _, forall_mem_cons.mpr ⟨ht _, forall_mem_singleton.mpr (ht _)⟩⟩

/-- The bytes tell where a character ends. -/
theorem eq_of_utf8EncodeChar_append {c d : Char} {bytes' : List UInt8}
    (h : String.utf8EncodeChar c ++ bytes = String.utf8EncodeChar d ++ bytes') : c = d ∧ bytes = bytes' := by
  have hd := congrArg (decodeFrom none) h
  rw [decodeFrom_utf8EncodeChar, decodeFrom_utf8EncodeChar] at hd
  obtain rfl : c = d := (cons.inj hd).1
  exact ⟨rfl, append_cancel_left h⟩

theorem prefix_of_utf8Encode_prefix {s t : List Char} (h : utf8Encode s <+: utf8Encode t) : s <+: t := by
  induction s generalizing t with
  | nil => exact nil_prefix
  | cons c s ih =>
    obtain ⟨r, hr⟩ := h
    rw [utf8Encode_cons, append_assoc] at hr
    cases t with
    | nil =>
      obtain ⟨b, bytes, hb, -⟩ := utf8EncodeChar_eq_cons c
      rw [hb] at hr
      cases hr
    | cons =>
      obtain ⟨rfl, heq⟩ := eq_of_utf8EncodeChar_append hr
      obtain ⟨r', rfl⟩ := ih ⟨r, heq⟩
      exact ⟨r', rfl⟩

/-- **Occurrences start at characters.** -/
theorem occursAt_of_utf8Encode {nd t : List Char} (hn : nd ≠ []) {k : ℕ}
    (h : OccursAt (utf8Encode nd) (utf8Encode t) k) : ∃ i, OccursAt nd t i ∧ k = (utf8Encode (t.take i)).length := by
  obtain ⟨c, n', rfl⟩ := exists_cons_of_ne_nil hn
  obtain ⟨b, bytes, hb, hh, -⟩ := utf8EncodeChar_eq_cons c
  induction t generalizing k with
  | nil =>
    rw [utf8Encode_cons, hb] at h
    exact absurd h (not_occursAt_nil (cons_ne_nil _ _))
  | cons d t ih =>
    by_cases hk : k < (String.utf8EncodeChar d).length
    · cases k with
      | zero =>
        refine ⟨0, prefix_of_utf8Encode_prefix ?_, rfl⟩
        simpa [OccursAt] using h
      | succ k =>
        -- a byte in the middle of a character is not a first byte
        obtain ⟨b', bytes', hb', -, ht⟩ := utf8EncodeChar_eq_cons d
        obtain ⟨r, hr⟩ := h
        rw [hb', length_cons] at hk
        obtain ⟨x, bytes'', hd⟩ : ∃ x bytes'', bytes'.drop k = x :: bytes'' :=
          exists_cons_of_ne_nil fun hnl => by
            rw [drop_eq_nil_iff] at hnl
            omega
        rw [utf8Encode_cons, utf8Encode_cons, hb, hb'] at hr
        simp only [cons_append, drop_succ_cons] at hr
        rw [drop_append_of_le_length (by omega), hd] at hr
        have hm : x ∈ bytes' := mem_of_mem_drop (hd ▸ mem_cons_self)
        rw [(cons.inj hr).1, ht x hm] at hh
        cases hh
    · have hs : OccursAt (utf8Encode (c :: n')) (utf8Encode t) (k - (String.utf8EncodeChar d).length) := by
        rw [OccursAt, utf8Encode_cons d, drop_append, drop_eq_nil_of_le (by omega), nil_append] at h
        exact h
      obtain ⟨i, hi, ho⟩ := ih hs
      refine ⟨i + 1, occursAt_cons_succ.mpr hi, ?_⟩
      rw [take_succ_cons, utf8Encode_cons, length_append]
      omega

/-! ### How many characters are read -/

/-- The bytes that start a character. -/
def leads (bytes : List UInt8) : ℕ := bytes.countP fun b => !isTail b

theorem leads_append (bytes bytes' : List UInt8) :
    leads (bytes ++ bytes') = leads bytes + leads bytes' := countP_append

theorem leads_utf8Encode (t : List Char) : leads (utf8Encode t) = t.length := by
  induction t with
  | nil => rfl
  | cons c t ih =>
    obtain ⟨b, bytes, hb, hh, ht⟩ := utf8EncodeChar_eq_cons c
    have hz : leads bytes = 0 := countP_eq_zero.mpr (by simpa using ht)
    rw [utf8Encode_cons, leads_append, ih, hb, leads, countP_cons_of_pos (by simpa using hh),
      ← leads, hz, length_cons]
    omega

/-- Only bytes that continue a character are within the bounds. -/
def Pending.OnlyTails (p : Pending) : Prop := 0x80 ≤ p.low ∧ p.high < 0xC0

theorem onlyTails_lead {b : ℕ} (h : (lead b).2 = some p) : p.OnlyTails := by
  revert h
  unfold lead
  repeat'
    refine iteInduction (motive := fun r : List Char × Option Pending => r.2 = some p → p.OnlyTails)
      (fun _ => ?_) fun _ => ?_
  all_goals
    rintro ⟨⟩
    try exact ⟨Nat.le_of_ble_eq_true rfl, Nat.le_of_ble_eq_true rfl⟩

theorem onlyTails_decodeByte {q : Option Pending} {b : ℕ} (h : (decodeByte q b).2 = some p) : p.OnlyTails := by
  cases q with
  | none => exact onlyTails_lead h
  | some =>
    simp only [decodeByte] at h
    split_ifs at h
    · cases h
      exact ⟨Nat.le_of_ble_eq_true rfl, Nat.le_of_ble_eq_true rfl⟩
    · exact onlyTails_lead h

theorem one_le_lead (b : ℕ) : 1 ≤ (lead b).1.length + (lead b).2.toList.length := by
  rcases lead_progress b with h | h
  · have := length_pos_iff.mpr h
    omega
  · obtain ⟨p, hp⟩ := Option.ne_none_iff_exists'.mp h
    simp [hp]

/-- One byte: a character that starts with it is read or pending, and what was pending is read. -/
theorem leads_le_decodeByte {q : Option Pending} (hq : ∀ p ∈ q, p.OnlyTails) (b : UInt8) :
    leads [b] + q.toList.length ≤ (decodeByte q b.toNat).1.length + (decodeByte q b.toNat).2.toList.length := by
  have hle : leads [b] ≤ 1 := countP_le_length
  have hl := one_le_lead b.toNat
  cases q with
  | none => exact Nat.le_trans hle hl
  | some p =>
    obtain ⟨hlow, hhigh⟩ := hq p rfl
    simp only [decodeByte]
    split_ifs with hb
    all_goals simp only [Option.toList_some, Option.toList_none, length_cons, length_nil]
    on_goal 3 => omega
    all_goals
      have ht : isTail b = true := by
        simp only [isTail, Bool.and_eq_true, decide_eq_true_eq]
        omega
      have hz : leads [b] = 0 := by simp [leads, ht]
      omega

/-- **At least one character for each first byte.** -/
theorem leads_le_length_decodeFrom {q : Option Pending} (hq : ∀ p ∈ q, p.OnlyTails) (bytes : List UInt8) :
    leads bytes + q.toList.length ≤ (decodeFrom q bytes).length := by
  induction bytes generalizing q with
  | nil => cases q <;> simp [leads, decodeFrom]
  | cons b bytes ih =>
    have hs := leads_le_decodeByte hq b
    have hi := ih (q := (decodeByte q b.toNat).2) fun p hp => onlyTails_decodeByte hp
    rw [decodeFrom_cons, length_append, ← singleton_append, leads_append]
    omega

/-- Between whole characters, a byte that continues none is a character of its own. -/
theorem leads_lt_length_decodeFrom {q : Option Pending} (hq : ∀ p ∈ q, p.OnlyTails) {t : List Char} (ht : t ≠ [])
    {b : UInt8} (hb : isTail b = true) (bytes bytes' : List UInt8) :
    leads (bytes ++ utf8Encode t ++ b :: bytes') + q.toList.length <
      (decodeFrom q (bytes ++ utf8Encode t ++ b :: bytes')).length := by
  induction bytes generalizing q with
  | nil =>
    have hl : lead b.toNat = ([replacementChar], none) := by
      simp only [isTail, Bool.and_eq_true, decide_eq_true_eq] at hb
      rw [lead, if_neg (by omega), if_pos (by omega)]
    have hn : ∀ t, decodeFrom none (utf8Encode t ++ b :: bytes') =
        t ++ replacementChar :: decodeFrom none bytes' := by
      intro t
      rw [decodeFrom_utf8Encode_append, decodeFrom_cons, decodeByte, hl]
      rfl
    have hle := leads_le_length_decodeFrom (q := none) (by simp) bytes'
    have hbl : leads (b :: bytes') = leads bytes' := countP_cons_of_neg (by simpa using hb)
    rw [nil_append, leads_append, leads_utf8Encode, hbl]
    cases q with
    | none =>
      rw [hn, length_append, length_cons]
      simp only [Option.toList_none, length_nil] at hle ⊢
      omega
    | some p =>
      -- the first byte of the text ends what is pending
      obtain ⟨c, t', rfl⟩ := exists_cons_of_ne_nil ht
      obtain ⟨x, xs, hx, hh, -⟩ := utf8EncodeChar_eq_cons c
      obtain ⟨hlow, hhigh⟩ := hq p rfl
      have hout : ¬(p.low ≤ x.toNat ∧ x.toNat ≤ p.high) := by
        simp only [isTail, Bool.and_eq_false_iff, decide_eq_false_iff_not] at hh
        omega
      have hd : decodeFrom (some p) (utf8Encode (c :: t') ++ b :: bytes') =
          replacementChar :: decodeFrom none (utf8Encode (c :: t') ++ b :: bytes') := by
        have hdb : decodeByte (some p) x.toNat = (replacementChar :: (lead x.toNat).1,
          (lead x.toNat).2) := if_neg hout
        rw [utf8Encode_cons, hx, cons_append, cons_append, decodeFrom_cons, decodeFrom_cons, hdb]
        rfl
      rw [hd, hn]
      simp only [Option.toList_none, Option.toList_some, length_nil, length_cons, length_append] at hle ⊢
      omega
  | cons x bytes ih =>
    have hs := leads_le_decodeByte hq x
    have hi := ih (q := (decodeByte q x.toNat).2) fun p hp => onlyTails_decodeByte hp
    rw [cons_append, cons_append, decodeFrom_cons, length_append, ← singleton_append, leads_append]
    omega

/-- **Valid parts**: what is valid is so up to a byte that starts a character, and from there on. -/
theorem ValidUtf8.split {bytes' : List UInt8} (h : ValidUtf8 (bytes ++ bytes'))
    (hh : ∀ b ∈ bytes'.head?, isTail b = false) : ValidUtf8 bytes ∧ ValidUtf8 bytes' := by
  obtain ⟨t, ht⟩ := h
  induction t generalizing bytes with
  | nil =>
    obtain ⟨rfl, rfl⟩ := append_eq_nil_iff.mp ht.symm
    exact ⟨⟨[], rfl⟩, [], rfl⟩
  | cons c t ih =>
    cases bytes with
    | nil => exact ⟨⟨[], rfl⟩, c :: t, ht⟩
    | cons x bytes =>
      obtain ⟨b, tails, hb, -, htails⟩ := utf8EncodeChar_eq_cons c
      rw [utf8Encode_cons, hb, cons_append, cons_append] at ht
      obtain ⟨rfl, heq⟩ := cons.inj ht
      rcases append_eq_append_iff.mp heq with ⟨rest, rfl, hr⟩ | ⟨rest, rfl, hr⟩
      · obtain ⟨⟨u, hu⟩, hv⟩ := ih hr
        exact ⟨⟨c :: u, by rw [utf8Encode_cons, hb, hu, cons_append]⟩, hv⟩
      · -- the second part starts in the character, or behind it
        cases rest with
        | nil =>
          rw [append_nil] at hb
          exact ⟨⟨[c], by simp [utf8Encode, hb]⟩, t, by simpa using hr.symm⟩
        | cons y rest =>
          have hy := hh y (by rw [hr]; rfl)
          rw [htails y (by simp)] at hy
          cases hy

end XiaoO.Base
