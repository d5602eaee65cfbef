import Mathlib.Data.List.Basic

/-!
# Frames

A stream is cut into frames: a header of a fixed size, from which the size of the payload is read,
and the payload. What is left over at the end is the start of a frame.

## What is proved

A stream that arrives in pieces is cut in the same places (`cut_append`).
-/

namespace XiaoO.Base

open List

structure Frame (α : Type*) where
  header : List α
  payload : List α

variable {α : Type*} (headerSize : ℕ) (payloadSize : List α → ℕ)

/-- The first frame, if all of it is there, and what comes after it. -/
def takeFrame? (buffer : List α) : Option (Frame α × List α) :=
  if buffer.length < headerSize then none
  else
    let size := payloadSize (buffer.take headerSize)
    if buffer.length - headerSize < size then none
    else some (⟨buffer.take headerSize, (buffer.drop headerSize).take size⟩, buffer.drop (headerSize + size))

/-- All frames and what is left over, if there is enough fuel. -/
def cutFrom : ℕ → List α → List (Frame α) × List α
  | 0, buffer => ([], buffer)
  | fuel + 1, buffer =>
    match takeFrame? headerSize payloadSize buffer with
    | none => ([], buffer)
    | some (frame, rest) => (frame :: (cutFrom fuel rest).1, (cutFrom fuel rest).2)

def cut (buffer : List α) : List (Frame α) × List α := cutFrom headerSize payloadSize buffer.length buffer

variable {headerSize payloadSize} {buffer r : List α} {f : Frame α}

theorem takeFrame?_append (h : takeFrame? headerSize payloadSize buffer = some (f, r)) (more : List α) :
    takeFrame? headerSize payloadSize (buffer ++ more) = some (f, r ++ more) := by
  unfold takeFrame? at h ⊢
  split at h
  · contradiction
  · rename_i hh
    have ht : (buffer ++ more).take headerSize = buffer.take headerSize := take_append_of_le_length (by omega)
    simp only at h
    split at h
    · contradiction
    · rename_i hp
      cases h
      have hd : (buffer ++ more).drop headerSize = buffer.drop headerSize ++ more :=
        drop_append_of_le_length (by omega)
      simp only [ht, hd, length_append]
      rw [if_neg (by omega), if_neg (by omega), take_append_of_le_length (by rw [length_drop]; omega),
        drop_append_of_le_length (by omega)]

theorem length_of_takeFrame? (h : takeFrame? headerSize payloadSize buffer = some (f, r)) :
    r.length + headerSize ≤ buffer.length := by
  unfold takeFrame? at h
  split at h
  · contradiction
  · simp only at h
    split at h
    · contradiction
    · cases h
      rw [length_drop]
      omega

/-- The fuel does not matter if there is enough. -/
theorem cutFrom_eq_cut (hs : 0 < headerSize) {fl : ℕ} (hf : buffer.length ≤ fl) :
    cutFrom headerSize payloadSize fl buffer = cut headerSize payloadSize buffer := by
  suffices ∀ n fl, ∀ buffer : List α, buffer.length ≤ n → buffer.length ≤ fl →
      cutFrom headerSize payloadSize n buffer = cutFrom headerSize payloadSize fl buffer from
    (this buffer.length fl buffer (Nat.le_refl _) hf).symm
  intro n
  induction n with
  | zero =>
    intro fl buffer hn _
    rw [length_eq_zero_iff.mp (Nat.le_zero.mp hn)]
    cases fl with
    | zero => rfl
    | succ => simp [cutFrom, takeFrame?, hs]
  | succ n ih =>
    intro fl buffer hn hf
    rcases ht : takeFrame? headerSize payloadSize buffer with _ | ⟨f, r⟩
    · cases fl with
      | zero | succ => simp [cutFrom, ht]
    · have hr := length_of_takeFrame? ht
      cases fl with
      | zero => omega
      | succ fl => simp [cutFrom, ht, ih fl r (by omega) (by omega)]

theorem cut_of_none (h : takeFrame? headerSize payloadSize buffer = none) :
    cut headerSize payloadSize buffer = ([], buffer) := by
  unfold cut
  cases buffer.length with
  | zero => rfl
  | succ => simp [cutFrom, h]

theorem cut_of_some (hs : 0 < headerSize) (h : takeFrame? headerSize payloadSize buffer = some (f, r)) :
    cut headerSize payloadSize buffer = (f :: (cut headerSize payloadSize r).1,
      (cut headerSize payloadSize r).2) := by
  have hr := length_of_takeFrame? h
  rw [← cutFrom_eq_cut hs (Nat.le_succ buffer.length), cutFrom, h]
  simp only [cutFrom_eq_cut hs (show r.length ≤ buffer.length by omega)]

/-- **A stream in pieces** is cut as a whole. -/
theorem cut_append (hs : 0 < headerSize) (buffer m : List α) : cut headerSize payloadSize (buffer ++ m) =
      ((cut headerSize payloadSize buffer).1 ++ (cut headerSize payloadSize
        ((cut headerSize payloadSize buffer).2 ++ m)).1,
        (cut headerSize payloadSize ((cut headerSize payloadSize buffer).2 ++ m)).2) := by
  induction hn : buffer.length using Nat.strongRecOn generalizing buffer with
  | _ n ih =>
    rcases ht : takeFrame? headerSize payloadSize buffer with _ | ⟨f, r⟩
    · rw [cut_of_none ht, nil_append]
    · have hr := length_of_takeFrame? ht
      rw [cut_of_some hs (takeFrame?_append ht m), cut_of_some hs ht, ih r.length (by omega) r rfl, cons_append]

end XiaoO.Base
