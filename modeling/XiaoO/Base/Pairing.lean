import Mathlib.Data.List.Count
import Mathlib.Data.List.Nodup

/-!
# Calls and their answers

A log of events over arbitrary identifiers: a party *calls* under an identifier,
and somebody *answers* the call under the same identifier. The log is *paired*
when every call has exactly one later answer and every answer has an earlier
call.

## What is proved

Pairing is kept when the log is cut down to a set of identifiers
(`Paired.filter`), and two paired logs with no identifier in common may be
appended (`Paired.append`). An identifier found on both sides of a cut is called
before the cut and answered after it (`Paired.straddle`), which is what an
algorithm that drops a part of the log has to look for. Pairing is decidable
(`paired_iff`).
-/

namespace XiaoO.Base

inductive CallEvent (ι : Type*) where
  /-- A call under the identifier `i`. -/
  | call (i : ι)
  /-- An answer to the call under the identifier `i`. -/
  | answer (i : ι)
  deriving DecidableEq

namespace CallEvent

variable {ι : Type*}

def id : CallEvent ι → ι
  | call i => i
  | answer i => i

@[simp] theorem id_call (i : ι) : (call i).id = i := rfl

@[simp] theorem id_answer (i : ι) : (answer i).id = i := rfl

end CallEvent

open CallEvent List

variable {ι : Type*} [DecidableEq ι] {es fs : List (CallEvent ι)}

/-- Every call is answered exactly once later, and every answer answers an
earlier call. -/
structure Paired (es : List (CallEvent ι)) : Prop where
  /-- After a call there is exactly one answer to it. -/
  answered : ∀ pre i post, es = pre ++ call i :: post → post.count (answer i) = 1
  /-- Before an answer there is its call. -/
  grounded : ∀ pre i post, es = pre ++ answer i :: post → call i ∈ pre

/-! ### Deciding the property -/

/-- Each call of the list has exactly one answer after it. -/
def EachAnswered : List (CallEvent ι) → Prop
  | [] => True
  | call i :: es => es.count (answer i) = 1 ∧ EachAnswered es
  | answer _ :: es => EachAnswered es

/-- Each answer of the list has its call before it, or among the calls `called`
already seen. -/
def EachGrounded : List ι → List (CallEvent ι) → Prop
  | _, [] => True
  | called, call i :: es => EachGrounded (i :: called) es
  | called, answer i :: es => i ∈ called ∧ EachGrounded called es

instance decidableEachAnswered : (es : List (CallEvent ι)) → Decidable (EachAnswered es)
  | [] => isTrue trivial
  | call _ :: es => @instDecidableAnd _ _ _ (decidableEachAnswered es)
  | answer _ :: es => decidableEachAnswered es

instance decidableEachGrounded : (called : List ι) → (es : List (CallEvent ι)) → Decidable (EachGrounded called es)
  | _, [] => isTrue trivial
  | called, call i :: es => decidableEachGrounded (i :: called) es
  | called, answer _ :: es => @instDecidableAnd _ _ _ (decidableEachGrounded called es)

theorem eachAnswered_iff (es : List (CallEvent ι)) :
    EachAnswered es ↔ ∀ p post i, es = p ++ call i :: post → post.count (answer i) = 1 := by
  induction es with
  | nil => simp [EachAnswered]
  | cons e es ih =>
    constructor
    · intro h p post i heq
      cases p with
      | nil =>
        obtain ⟨rfl, rfl⟩ : e = call i ∧ es = post := by simpa using heq
        exact h.1
      | cons e' p =>
        obtain ⟨rfl, htl⟩ : e = e' ∧ es = p ++ call i :: post := by simpa using heq
        cases e with
        | call => exact ih.mp h.2 p post i htl
        | answer => exact ih.mp h p post i htl
    · intro h
      have ht : EachAnswered es := ih.mpr fun p post i heq => h (e :: p) post i (by simp [heq])
      cases e with
      | call j => exact ⟨h [] es j rfl, ht⟩
      | answer => exact ht

omit [DecidableEq ι] in
theorem eachGrounded_iff (c : List ι) (es : List (CallEvent ι)) :
    EachGrounded c es ↔ ∀ pre post i, es = pre ++ answer i :: post → i ∈ c ∨ call i ∈ pre := by
  induction es generalizing c with
  | nil => simp [EachGrounded]
  | cons e es ih =>
    cases e with rw [EachGrounded, ih]
    | call j =>
      constructor
      · intro h pre post i heq
        cases pre with
        | nil => simp at heq
        | cons e' pre =>
          obtain ⟨rfl, htl⟩ : call j = e' ∧ es = pre ++ answer i :: post := by simpa using heq
          have := h pre post i htl
          grind
      · intro h pre post i heq
        have := h (call j :: pre) post i (by simp [heq])
        grind
    | answer j =>
      constructor
      · rintro ⟨hj, h⟩ pre post i heq
        cases pre with
        | nil =>
          obtain ⟨rfl, rfl⟩ : j = i ∧ es = post := by simpa using heq
          exact .inl hj
        | cons e' pre =>
          obtain ⟨rfl, htl⟩ : answer j = e' ∧ es = pre ++ answer i :: post := by simpa using heq
          simpa using h pre post i htl
      · intro h
        refine ⟨by simpa using h [] es j rfl, fun pre post i heq => ?_⟩
        simpa using h (answer j :: pre) post i (by simp [heq])

/-- Pairing, read off the log in one pass per half. -/
theorem paired_iff : Paired es ↔ EachAnswered es ∧ EachGrounded [] es := by
  rw [eachAnswered_iff, eachGrounded_iff]
  constructor
  · intro h
    exact ⟨fun pre p i heq => h.answered pre i p heq, fun pre p i heq => .inr (h.grounded pre i p heq)⟩
  · rintro ⟨ha, hg⟩
    exact ⟨fun pre i p heq => ha pre p i heq, fun pre i p heq => by simpa using hg pre p i heq⟩

instance : DecidablePred (Paired (ι := ι)) := fun _ => decidable_of_iff _ paired_iff.symm

/-! ### Cutting a log down, and appending logs -/

/-- **Dropping every event of some identifiers keeps pairing.** -/
theorem Paired.filter (h : Paired es) (q : ι → Bool) : Paired (es.filter fun e => q e.id) := by
  constructor
  · intro pre i p heq
    obtain ⟨l₁, l₂, rfl, -, h₂⟩ := filter_eq_append_iff.mp heq
    obtain ⟨l₃, l₄, rfl, -, hq, rfl⟩ := filter_eq_cons_iff.mp h₂
    have ho : l₄.count (answer i) = 1 := h.answered (l₁ ++ l₃) i l₄ (by simp)
    rw [count_filter (by simpa using hq)]
    exact ho
  · intro pre i p heq
    obtain ⟨l₁, l₂, rfl, h₁, h₂⟩ := filter_eq_append_iff.mp heq
    obtain ⟨l₃, l₄, rfl, hno, hq, rfl⟩ := filter_eq_cons_iff.mp h₂
    have hm : call i ∈ l₁ ++ l₃ := h.grounded (l₁ ++ l₃) i l₄ (by simp)
    have hqi : q i = true := by simpa using hq
    rcases mem_append.mp hm with hl | hl
    · rw [← h₁]
      exact mem_filter.mpr ⟨hl, hqi⟩
    · exact absurd hqi (by simpa using hno _ hl)

/-- **Paired logs over different identifiers may be appended.** -/
theorem Paired.append (h₁ : Paired es) (h₂ : Paired fs) (hne : ∀ e ∈ es, ∀ f ∈ fs, f.id ≠ e.id) :
    Paired (es ++ fs) := by
  constructor
  · intro pre i p heq
    rcases append_eq_append_iff.mp heq with ⟨l, rfl, hl⟩ | ⟨l, rfl, hl⟩
    · exact h₂.answered l i p hl
    · -- The call sits in `es`, unless `l` is empty and it is the first event of `fs`.
      cases l with
      | nil => exact h₂.answered [] i p (by simpa using hl.symm)
      | cons e l =>
        obtain ⟨rfl, rfl⟩ : call i = e ∧ p = l ++ fs := by simpa using hl
        have hz : fs.count (answer i) = 0 := count_eq_zero.mpr fun hm => hne (call i) (by simp) _ hm rfl
        rw [count_append, h₁.answered pre i l rfl, hz]
  · intro pre i p heq
    rcases append_eq_append_iff.mp heq with ⟨l, rfl, hl⟩ | ⟨l, rfl, hl⟩
    · exact mem_append_right _ (h₂.grounded l i p hl)
    · cases l with
      | nil => exact absurd (h₂.grounded [] i p (by simpa using hl.symm)) (by simp)
      | cons e l =>
        obtain ⟨rfl, -⟩ : answer i = e ∧ p = l ++ fs := by simpa using hl
        exact h₁.grounded pre i l rfl

theorem eachAnswered_calls {ids : List ι} (h : ∀ i ∈ ids, fs.count (answer i) = 1) (hfs : EachAnswered fs) :
    EachAnswered (ids.map call ++ fs) := by
  induction ids with
  | nil => exact hfs
  | cons i ids ih =>
    have hz : (ids.map call).count (answer i) = 0 := count_eq_zero.mpr (by simp)
    have ho : (ids.map call ++ fs).count (answer i) = 1 := by rw [count_append, hz, h i (by simp)]
    exact ⟨ho, ih fun j hj => h j (by simp [hj])⟩

theorem eachAnswered_answers (ids : List ι) : EachAnswered (ids.map answer) := by
  induction ids with
  | nil => trivial
  | cons i ids ih => exact ih

omit [DecidableEq ι] in
theorem eachGrounded_calls {c ids : List ι} (h : EachGrounded (ids.reverse ++ c) fs) :
    EachGrounded c (ids.map call ++ fs) := by
  induction ids generalizing c with
  | nil => exact h
  | cons i ids ih => exact ih (by simpa using h)

omit [DecidableEq ι] in
theorem eachGrounded_answers {c ids : List ι} (h : ∀ i ∈ ids, i ∈ c) : EachGrounded c (ids.map answer) := by
  induction ids with
  | nil => trivial
  | cons i ids ih => exact ⟨h i (by simp), ih fun j hj => h j (by simp [hj])⟩

/-- **A batch is paired**: all calls first, then the answer to each, when no
identifier is called twice. -/
theorem paired_batch {ids : List ι} (h : ids.Nodup) : Paired (ids.map call ++ ids.map answer) := by
  refine paired_iff.mpr ⟨eachAnswered_calls ?_ (eachAnswered_answers ids), eachGrounded_calls ?_⟩
  · intro i hi
    rw [count_map_of_injective ids _ (fun _ _ => answer.inj) i]
    exact nodup_iff_count_eq_one.mp h i hi
  · exact eachGrounded_answers (by simp)

/-- **An identifier on both sides of a cut** is called before the cut and answered
after it. -/
theorem Paired.straddle (h : Paired (es ++ fs)) {e f : CallEvent ι} (he : e ∈ es) (hf : f ∈ fs)
    (hid : e.id = f.id) : call e.id ∈ es ∧ answer e.id ∈ fs := by
  have ha : answer e.id ∈ fs := by
    cases f with
    | answer => simpa [hid] using hf
    | call j =>
      obtain ⟨pre, post, rfl⟩ := append_of_mem hf
      have ho : post.count (answer j) = 1 := h.answered (es ++ pre) j post (by simp)
      have : answer j ∈ post := count_pos_iff.mp (by omega)
      simp_all
  refine ⟨?_, ha⟩
  cases e with
  | call => exact he
  | answer j =>
    obtain ⟨pre, post, rfl⟩ := append_of_mem he
    have : call j ∈ pre := h.grounded pre j (post ++ fs) (by simp)
    exact mem_append_left _ this

end XiaoO.Base
