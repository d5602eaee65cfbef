import XiaoO.Base.Json

/-!
# Records from JSON

How a derived reader takes a record from a JSON value. An object gives each field by its name: a
field that occurs twice is an error, and other keys are passed over. An array gives the fields by
their places, where only fields with a default may be left out at the end.
-/

namespace XiaoO.Base.Json

open List Option

variable {v : Option Value}

namespace Tree

/-- All values of a key among entries. -/
def valuesOf (key : String) : {k : Kind} → Tree k → List Value
  | _, entry k v rest => if k = key then v :: rest.valuesOf key else rest.valuesOf key
  | _, _ => []

theorem lookup_eq_getLast? (key : String) : (t : Tree .entries) → t.lookup key = (t.valuesOf key).getLast?
  | noEntries => rfl
  | entry k v r => by
    rw [lookup, valuesOf, lookup_eq_getLast? key r]
    by_cases hk : k = key
    · simp only [hk, if_true, getLast?_cons]
      cases (r.valuesOf key).getLast? <;> rfl
    · simp [hk]

/-- The value of a field, if it does not occur twice. -/
def field? (entries : Tree .entries) (key : String) : Option (Option Value) :=
  match entries.valuesOf key with
  | [] => some none
  | [v] => some (some v)
  | _ => none

theorem lookup_of_field? {es : Tree .entries} {k : String} (h : es.field? k = some v) : es.lookup k = v := by
  rw [lookup_eq_getLast?]
  unfold field? at h
  split at h
  · rename_i hv
    rw [hv]
    exact some.inj h
  · rename_i hv
    rw [hv]
    exact some.inj h
  · contradiction

end Tree

/-- The fields of a record, of which the first ones have to stand in an array. -/
def readFields (names : List String) (needed : ℕ) : Value → Option (List (Option Value))
  | .object entries => names.mapM entries.field?
  | .array items =>
    if needed ≤ items.toList.length ∧ items.toList.length ≤ names.length then
      some (items.toList.map some ++ List.replicate (names.length - items.toList.length) none)
    else none
  | _ => none

theorem getElem?_of_mapM_eq_some {α β : Type} {f : α → Option β} {l : List α} {r : List β}
    (h : l.mapM f = some r) (i : ℕ) : r[i]? = (l[i]?).bind f := by
  induction l generalizing r i with
  | nil =>
    cases h
    rfl
  | cons a l ih =>
    simp only [mapM_cons, Option.bind_eq_bind, Option.bind_eq_some_iff, Option.pure_def, Option.some.injEq] at h
    obtain ⟨b, hb, rs, hr, rfl⟩ := h
    cases i with
    | zero => simp [hb]
    | succ i => simpa using ih hr i

/-- A field of an object is what its name stands for. -/
theorem lookup_of_readFields {ns : List String} {nd : ℕ} {es : Tree .entries} {fs : List (Option Value)} {i : ℕ}
    {n : String} (h : readFields ns nd (.object es) = some fs)
    (hn : ns[i]? = some n) (hf : fs[i]? = some v) : (Tree.object es).get? n = v := by
  rw [getElem?_of_mapM_eq_some h, hn] at hf
  exact Tree.lookup_of_field? hf

/-- A field from an array is the item at its place. -/
theorem item_of_readFields {ns : List String} {n : ℕ} {xs : Tree .items} {fs : List (Option Value)} {i : ℕ}
    (h : readFields ns n (.array xs) = some fs) (hf : fs[i]? = some v) : xs.toList[i]? = v := by
  simp only [readFields, ite_none_right_eq_some, some.injEq] at h
  obtain ⟨-, rfl⟩ := h
  by_cases hi : i < xs.toList.length
  · rw [getElem?_append_left (by simpa using hi), getElem?_map, getElem?_eq_getElem hi] at hf
    rw [getElem?_eq_getElem hi]
    exact some.inj hf
  · rw [getElem?_append_right (by simpa using hi)] at hf
    rw [getElem?_eq_none (not_lt.mp hi)]
    exact (eq_of_mem_replicate (mem_of_getElem? hf)).symm

/-- A field that may be missing or `null`. -/
def optionalField {α : Type} (read : Value → Option α) : Option Value → Option (Option α)
  | none | some .null => some none
  | some v => (read v).map some

end XiaoO.Base.Json
