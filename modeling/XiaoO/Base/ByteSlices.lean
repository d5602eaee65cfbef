import XiaoO.Base.Utf8

/-!
# Byte positions in a text

A text is measured and cut in bytes, but only where a character ends: `&s[..n]` and `&s[n..]` panic
elsewhere.

## What is proved

A text is cut at `n` exactly if it is the concatenation of a text of `n` bytes and another
(`splitAtByte?_eq_some`). Going back from any position over the bytes that continue a character
leads to the beginning of the character there (`floorBoundary_utf8Encode`), where the text can be
cut.
-/

namespace XiaoO.Base

open List Option

/-- `str::len`. -/
def byteLength (s : List Char) : ℕ := (utf8Encode s).length

@[simp] theorem byteLength_nil : byteLength [] = 0 := rfl

@[simp] theorem byteLength_append (s t : List Char) : byteLength (s ++ t) = byteLength s + byteLength t := by
  rw [byteLength, utf8Encode_append, length_append]
  rfl

theorem byteLength_cons (c : Char) (s : List Char) : byteLength (c :: s) = byteLength [c] + byteLength s :=
  byteLength_append [c] s

theorem byteLength_singleton_pos (c : Char) : 0 < byteLength [c] :=
  length_pos_iff.mpr (utf8Encode_ne_nil (cons_ne_nil c []))

variable {s : List Char}

theorem byteLength_eq_zero (h : byteLength s = 0) : s = [] := by
  cases s with
  | nil => rfl
  | cons c =>
    rw [byteLength_cons] at h
    have hp := byteLength_singleton_pos c
    omega

theorem byteLength_le_of_prefix {t : List Char} (h : s <+: t) : byteLength s ≤ byteLength t := by
  obtain ⟨r, rfl⟩ := h
  rw [byteLength_append]
  exact Nat.le_add_right _ _

/-- Texts that begin alike and are equally long in bytes are the same. -/
theorem eq_of_prefix_of_byteLength {t : List Char} (h : s <+: t) (hl : byteLength s = byteLength t) : s = t := by
  obtain ⟨r, rfl⟩ := h
  rw [byteLength_append] at hl
  rw [byteLength_eq_zero (s := r) (by omega), append_nil]

/-! ### Cutting a text -/

/-- `(&s[..n], &s[n..])`; `none` if a character goes on at `n` or the text is shorter. -/
def splitAtByte? : List Char → ℕ → Option (List Char × List Char)
  | s, 0 => some ([], s)
  | [], _ + 1 => none
  | c :: s, n + 1 =>
    if byteLength [c] ≤ n + 1 then (splitAtByte? s (n + 1 - byteLength [c])).map fun (a, b) => (c :: a, b) else none

theorem splitAtByte?_append (a b : List Char) : splitAtByte? (a ++ b) (byteLength a) = some (a, b) := by
  induction a with
  | nil => cases b <;> rfl
  | cons c a ih =>
    have hp := byteLength_singleton_pos c
    obtain ⟨n, hn⟩ : ∃ n, byteLength (c :: a) = n + 1 := ⟨byteLength (c :: a) - 1, by rw [byteLength_cons]; omega⟩
    rw [byteLength_cons] at hn
    have hr : n + 1 - byteLength [c] = byteLength a := by omega
    rw [byteLength_cons, hn, cons_append, splitAtByte?, if_pos (by omega), hr, ih]
    rfl

variable {n : ℕ}

theorem splitAtByte?_eq_some {a b : List Char} : splitAtByte? s n = some (a, b) ↔ s = a ++ b ∧ byteLength a = n := by
  constructor
  · intro h
    induction s generalizing n a with
    | nil =>
      cases n with
      | zero => simp_all [splitAtByte?]
      | succ => cases h
    | cons c s ih =>
      cases n with
      | zero =>
        obtain ⟨rfl, rfl⟩ := Prod.mk.inj (some.inj h)
        exact ⟨rfl, rfl⟩
      | succ =>
        rw [splitAtByte?] at h
        split_ifs at h with hle
        obtain ⟨⟨a', b'⟩, hs, heq⟩ := map_eq_some_iff.mp h
        obtain ⟨rfl, rfl⟩ := Prod.mk.inj heq
        obtain ⟨rfl, hl⟩ := ih hs
        rw [byteLength_cons]
        exact ⟨rfl, by omega⟩
  · rintro ⟨rfl, rfl⟩
    exact splitAtByte?_append a b

/-! ### The boundary before a position -/

/-- Go back over the bytes that continue a character. -/
def floorBoundary (bytes : List UInt8) : ℕ → ℕ
  | 0 => 0
  | i + 1 => if bytes[i + 1]?.any isTail then floorBoundary bytes i else i + 1

theorem floorBoundary_add {bs : List UInt8} {m : ℕ} (hm : bs[m]?.any isTail = false) {j : ℕ}
    (hj : ∀ i, m < i → i ≤ m + j → bs[i]?.any isTail = true) : floorBoundary bs (m + j) = m := by
  induction j with
  | zero =>
    cases m with
    | zero => rfl
    | succ => rw [Nat.add_zero, floorBoundary, hm, if_neg Bool.false_ne_true]
  | succ j ih =>
    rw [← Nat.add_assoc, floorBoundary, hj (m + j + 1) (by omega) (by omega), if_pos rfl]
    exact ih fun i hmi hij => hj i hmi (by omega)

/-- A position inside a text lies in one of its characters. -/
theorem exists_char_at (h : n < byteLength s) :
    ∃ a c b, s = a ++ c :: b ∧ byteLength a ≤ n ∧ n < byteLength a + byteLength [c] := by
  induction s generalizing n with
  | nil => simp at h
  | cons c s ih =>
    by_cases hn : n < byteLength [c]
    · exact ⟨[], c, s, rfl, Nat.zero_le n, by simpa using hn⟩
    · rw [byteLength_cons] at h
      obtain ⟨a, d, b, rfl, hle, hlt⟩ := ih (n := n - byteLength [c]) (by omega)
      refine ⟨c :: a, d, b, rfl, ?_, ?_⟩
      · rw [byteLength_cons]
        omega
      · rw [byteLength_cons]
        omega

/-- **The boundary before a position is the beginning of the character there.** -/
theorem floorBoundary_utf8Encode {a b : List Char} {c : Char} (hle : byteLength a ≤ n)
    (hlt : n < byteLength a + byteLength [c]) : floorBoundary (utf8Encode (a ++ c :: b)) n = byteLength a := by
  obtain ⟨j, rfl⟩ := Nat.exists_eq_add_of_le hle
  obtain ⟨f, m, hb, hf, hm⟩ := utf8EncodeChar_eq_cons c
  have hl : byteLength [c] = m.length + 1 := by
    simp [byteLength, utf8Encode, hb]
  have he : utf8Encode (a ++ c :: b) = utf8Encode a ++ (f :: (m ++ utf8Encode b)) := by
    rw [utf8Encode_append, utf8Encode_cons, hb, cons_append]
  have hg : ∀ i, (utf8Encode (a ++ c :: b))[byteLength a + i]? = (f :: (m ++ utf8Encode b))[i]? := by
    intro i
    rw [he, byteLength, getElem?_append_right (Nat.le_add_right _ _), Nat.add_sub_cancel_left]
  refine floorBoundary_add ?_ fun i hmi hij => ?_
  · have hz := hg 0
    rw [Nat.add_zero] at hz
    rw [hz, getElem?_cons_zero, any_some, hf]
  · obtain ⟨k, rfl⟩ := Nat.exists_eq_add_of_lt hmi
    rw [Nat.add_assoc, hg, getElem?_cons_succ, getElem?_append_left (by omega),
      getElem?_eq_getElem (by omega), any_some]
    exact hm _ (getElem_mem _)

end XiaoO.Base
