import XiaoO.Base.Search

/-!
# Replacing several lists

`str::replace` for one list after the other, beside blanking the lists out in place. The elements of
a text may carry more than what is searched for (`key`), such as the place they came from, so that
one can tell which of them are left.

## What is proved

If the replacement has no element of the lists, it neither makes nor hides an occurrence of them. So
replacing one list after the other leaves the places that blanking them out in the same order leaves
(`Shows.foldl_replaceBy`, `Shows.mem_tags`), and what is blanked out lies in an occurrence of one of
the lists (`getElem?_blankAll`).
-/

namespace XiaoO.Base

open List Nat

variable {α β : Type*} [DecidableEq α]

/-! ### Replacing -/

/-- `replaceMatches` on elements with a key. -/
def replaceBy (key : β → α) (needle : List α) (new : List β) : ℕ → List β → List β
  | _, [] => if needle.isEmpty then new else []
  | skip + 1, _ :: text => replaceBy key needle new skip text
  | 0, x :: text =>
    if needle.isEmpty then new ++ x :: replaceBy key needle new 0 text
    else if needle.isPrefixOf ((x :: text).map key) then new ++ replaceBy key needle new (needle.length - 1) text
    else x :: replaceBy key needle new 0 text

theorem map_replaceBy (k : β → α) (n : List α) (new : List β) (s : ℕ) (t : List β) :
    (replaceBy k n new s t).map k = replaceMatches n (new.map k) s (t.map k) := by
  induction t generalizing s with
  | nil =>
    simp only [replaceBy, replaceMatches, map_nil]
    split_ifs <;> rfl
  | cons x t ih =>
    cases s with
    | succ s => exact ih s
    | zero =>
      simp only [replaceBy, replaceMatches, map_cons]
      split_ifs <;> simp [ih]

section Searched

variable {key : β → α} {needle : List α} {new : List β} (hne : needle ≠ [])
include hne

theorem replaceBy_eq_self {text : List β} (h : ∀ i, ¬ OccursAt needle (text.map key) i) :
    replaceBy key needle new 0 text = text := by
  induction text with
  | nil => simp [replaceBy, hne]
  | cons x text ih =>
    have hh : ¬ needle.isPrefixOf ((x :: text).map key) := fun hp => h 0 (List.isPrefixOf_iff_prefix.mp hp)
    rw [replaceBy, if_neg (by simpa using hne), if_neg hh, ih fun i hi => h (i + 1) hi]

/-- What has no element of the searched list is passed over. -/
theorem replaceBy_append {s : List β} (hs : ∀ x ∈ s, key x ∉ needle) (text : List β) :
    replaceBy key needle new 0 (s ++ text) = s ++ replaceBy key needle new 0 text := by
  induction s with
  | nil => rfl
  | cons x s ih =>
    have hhr : ¬ needle.isPrefixOf ((x :: (s ++ text)).map key) := by
      intro hp
      obtain ⟨a, n', rfl⟩ := exists_cons_of_ne_nil hne
      obtain ⟨r, hr⟩ := isPrefixOf_iff_prefix.mp hp
      have hh : a = key x := (cons.inj hr).1
      exact hs x mem_cons_self (hh ▸ mem_cons_self)
    rw [cons_append, replaceBy, if_neg (by simpa using hne), if_neg hhr,
      ih fun y hy => hs y (mem_cons_of_mem x hy), cons_append]

omit hne in
theorem replaceBy_skip (skip : ℕ) (text : List β) :
    replaceBy key needle new skip text = replaceBy key needle new 0 (text.drop skip) := by
  induction text generalizing skip with
  | nil => simp [replaceBy]
  | cons x text ih => cases skip with
    | zero => rfl
    | succ skip => exact ih skip

theorem replaceBy_of_begins {text : List β} (h : needle <+: text.map key) :
    replaceBy key needle new 0 text = new ++ replaceBy key needle new 0 (text.drop needle.length) := by
  obtain ⟨a, needle, rfl⟩ := exists_cons_of_ne_nil hne
  cases text with
  | nil => simp at h
  | cons x text =>
    rw [replaceBy, if_neg (by simp), if_pos (List.isPrefixOf_iff_prefix.mpr h), replaceBy_skip]
    rfl

end Searched

/-! ### Blanks -/

/-- Blank out the occurrences of a list in place, from left to right. A list has no blanks, so it
only occurs where nothing is blanked out yet. -/
def blank (needle : List α) : ℕ → List (Option α) → List (Option α)
  | _, [] => []
  | skip + 1, _ :: text => none :: blank needle skip text
  | 0, x :: text =>
    if (needle.map some).isPrefixOf (x :: text) then none :: blank needle (needle.length - 1) text
    else x :: blank needle 0 text

def blankAll (needles : List (List α)) (text : List α) : List (Option α) :=
  needles.foldl (fun text needle => blank needle 0 text) (text.map some)

variable {needle : List α} {text : List (Option α)}

theorem blank_skip {skip : ℕ} (h : skip ≤ text.length) :
    blank needle skip text = replicate skip none ++ blank needle 0 (text.drop skip) := by
  induction text generalizing skip with
  | nil =>
    obtain rfl : skip = 0 := by simpa using h
    rfl
  | cons x text ih => cases skip with
    | zero => rfl
    | succ skip => rw [blank, ih (by simpa using h), replicate_succ, cons_append, drop_succ_cons]

theorem blank_of_begins (hne : needle ≠ []) (h : needle.map some <+: text) :
    blank needle 0 text = replicate needle.length none ++ blank needle 0 (text.drop needle.length) := by
  obtain ⟨a, needle, rfl⟩ := exists_cons_of_ne_nil hne
  have hl := h.length_le
  cases text with
  | nil => simp at h
  | cons x text =>
    rw [blank, if_pos (List.isPrefixOf_iff_prefix.mpr h), length_cons, Nat.add_sub_cancel,
      blank_skip (by simpa using hl)]
    rfl

theorem blank_cons_of_not {x : Option α} (h : ¬ needle.map some <+: x :: text) :
    blank needle 0 (x :: text) = x :: blank needle 0 text := by
  rw [blank, if_neg fun hp => h (List.isPrefixOf_iff_prefix.mp hp)]

omit [DecidableEq α] in
theorem not_prefix_none (hne : needle ≠ []) : ¬ needle.map some <+: none :: text := by
  obtain ⟨a, needle, rfl⟩ := exists_cons_of_ne_nil hne
  rintro ⟨r, hr⟩
  cases (cons.inj hr).1

theorem blank_replicate_append (hne : needle ≠ []) (k : ℕ) :
    blank needle 0 (replicate k none ++ text) = replicate k none ++ blank needle 0 text := by
  induction k with
  | zero => rfl
  | succ k ih => rw [replicate_succ, cons_append, blank_cons_of_not (not_prefix_none hne), ih, cons_append]

/-- What changes is blanked out, and is in an occurrence or among the places to be passed over. -/
theorem getElem?_blank (hne : needle ≠ []) (skip i : ℕ) :
    (blank needle skip text)[i]? = text[i]? ∨ (blank needle skip text)[i]? = some none ∧
      (i < skip ∨ ∃ j, OccursAt (needle.map some) text j ∧ j ≤ i ∧ i < j + needle.length) := by
  have hl := length_pos_iff.mpr hne
  induction text generalizing skip i with
  | nil => exact .inl rfl
  | cons x text ih =>
    have hr : ∀ skip i, (blank needle skip text)[i]? = text[i]? ∨ (blank needle skip text)[i]? = some none ∧
        (i < skip ∨ ∃ j, OccursAt (needle.map some) (x :: text) j ∧ j ≤ i + 1 ∧ i + 1 < j + needle.length) := by
      refine fun skip i => (ih skip i).imp_right (And.imp_right (Or.imp_right ?_))
      rintro ⟨j, ho, hle, hlt⟩
      exact ⟨j + 1, ho, by omega, by omega⟩
    cases skip with
    | succ skip => cases i with
      | zero => exact .inr ⟨rfl, .inl (succ_pos _)⟩
      | succ i => exact (hr skip i).imp_right (And.imp_right (Or.imp_left succ_lt_succ))
    | zero =>
      rw [blank]
      split_ifs with hp
      · have ho : OccursAt (needle.map some) (x :: text) 0 := isPrefixOf_iff_prefix.mp hp
        cases i with
        | zero => exact .inr ⟨rfl, .inr ⟨0, ho, le_rfl, by omega⟩⟩
        | succ i =>
          refine (hr (needle.length - 1) i).imp_right (And.imp_right fun h => .inr (h.elim (fun hi => ?_) id))
          exact ⟨0, ho, Nat.zero_le _, by omega⟩
      · cases i with
        | zero => exact .inl rfl
        | succ i => exact (hr 0 i).imp_right (And.imp_right (Or.imp_left fun h => absurd h (not_lt_zero i)))

/-- The place is covered by an occurrence of one of the lists. -/
def Covered (needles : List (List α)) (text : List α) (i : ℕ) : Prop :=
  ∃ n ∈ needles, ∃ j, OccursAt n text j ∧ j ≤ i ∧ i < j + n.length

/-- **What is blanked out is covered.** -/
theorem getElem?_blankAll {needles : List (List α)} (hne : ∀ n ∈ needles, n ≠ []) (text : List α) (i : ℕ) :
    (blankAll needles text)[i]? = text[i]?.map some ∨
      (blankAll needles text)[i]? = some none ∧ Covered needles text i := by
  induction needles using reverseRecOn generalizing i with
  | nil => exact .inl (getElem?_map ..)
  | append_singleton needles needle ih =>
    have ih := ih fun n hn => hne n (mem_append_left _ hn)
    have hm : ∀ i, Covered needles text i → Covered (needles ++ [needle]) text i :=
      fun i ⟨n, hn, hc⟩ => ⟨n, mem_append_left _ hn, hc⟩
    rw [blankAll, foldl_append, ← blankAll, foldl_cons, foldl_nil]
    obtain heq | ⟨hb, hi | ⟨j, ho, hle, hlt⟩⟩ := getElem?_blank (hne needle (by simp)) 0 i
    · rw [heq]
      exact (ih i).imp_right (And.imp_right (hm i))
    · exact absurd hi (Nat.not_lt_zero i)
    · refine .inr ⟨hb, needle, by simp, j, ?_, hle, hlt⟩
      -- An occurrence between blanks is one in the text.
      refine prefix_iff_getElem?.mpr fun k hk => ?_
      have hs := ho.getElem? (k := k) (by simpa using hk)
      rw [getElem_map] at hs
      obtain heq | ⟨hb, -⟩ := ih (j + k)
      · rw [hs] at heq
        obtain ⟨x, hx, hxs⟩ := Option.map_eq_some_iff.mp heq.symm
        rw [getElem?_drop, hx, Option.some.inj hxs]
      · cases hs.symm.trans hb

/-! ### Places -/

/-- The elements of a text with their places. -/
def tagged (start : ℕ) (text : List α) : List (α × Option ℕ) := (text.zipIdx start).map fun (x, i) => (x, some i)

/-- A replacement, whose elements have no place in the text. -/
def untagged (new : List α) : List (α × Option ℕ) := new.map fun x => (x, none)

/-- The places of the elements that are left. -/
def tags (text : List (α × Option ℕ)) : List ℕ := text.filterMap Prod.snd

/-- A text with places, from `start` on, and a text with blanks show the same of one text, the first
with the replacement where the other has blanks. -/
inductive Shows (new : List α) : ℕ → List (α × Option ℕ) → List (Option α) → Prop
  | nil (start : ℕ) : Shows new start [] []
  | kept {start : ℕ} {x : α} {text : List (α × Option ℕ)} {blanked : List (Option α)} :
    Shows new (start + 1) text blanked → Shows new start ((x, some start) :: text) (some x :: blanked)
  | replaced {start k : ℕ} {text : List (α × Option ℕ)} {blanked : List (Option α)} :
    Shows new (start + (k + 1)) text blanked →
      Shows new start (untagged new ++ text) (replicate (k + 1) none ++ blanked)

omit [DecidableEq α] in
theorem shows_tagged (new : List α) (start : ℕ) (text : List α) :
    Shows new start (tagged start text) (text.map some) := by
  induction text generalizing start with
  | nil => exact .nil start
  | cons x text ih => exact .kept (ih (start + 1))

omit [DecidableEq α] in
theorem tags_untagged_append (new : List α) (text : List (α × Option ℕ)) :
    tags (untagged new ++ text) = tags text := by
  have hn : (untagged new).filterMap Prod.snd = [] := by
    rw [filterMap_eq_nil_iff]
    intro y hy
    obtain ⟨x, -, rfl⟩ := mem_map.mp hy
    rfl
  rw [tags, filterMap_append, hn, nil_append]
  rfl

namespace Shows

variable {new : List α} {start : ℕ} {tagged : List (α × Option ℕ)} (h : Shows new start tagged text)
include h

omit [DecidableEq α] in
theorem mem_tags {p : ℕ} : p ∈ tags tagged ↔ ∃ q x, p = start + q ∧ text[q]? = some (some x) := by
  induction h with
  | nil => simp [tags]
  | @kept start x t b h ih =>
    have hc : tags ((x, some start) :: t) = start :: tags t := rfl
    rw [hc, mem_cons, ih]
    constructor
    · rintro (rfl | ⟨q, y, rfl, hq⟩)
      · exact ⟨0, x, rfl, rfl⟩
      · exact ⟨q + 1, y, by omega, hq⟩
    · rintro ⟨_ | q, y, rfl, hq⟩
      · exact .inl rfl
      · exact .inr ⟨q, y, by omega, hq⟩
  | @replaced start k t b h ih =>
    rw [tags_untagged_append, ih]
    constructor
    · rintro ⟨q, y, rfl, hq⟩
      refine ⟨k + 1 + q, y, by omega, ?_⟩
      rwa [getElem?_append_right (by simp), length_replicate, Nat.add_sub_cancel_left]
    · rintro ⟨q, y, rfl, hq⟩
      rw [getElem?_append] at hq
      split_ifs at hq with hlt
      · cases (mem_replicate.mp (mem_of_getElem? hq)).2
      · rw [length_replicate] at hq hlt
        exact ⟨q - (k + 1), y, by omega, hq⟩

omit [DecidableEq α] in
/-- A list without an element of the replacement begins the one if and only if it begins the
other. -/
theorem prefix_iff (hn : new ≠ []) (hf : ∀ x ∈ new, x ∉ needle) :
    needle <+: tagged.map Prod.fst ↔ needle.map some <+: text := by
  induction h generalizing needle with
  | nil => simp
  | kept h ih => cases needle with
    | nil => simp
    | cons a needle =>
      rw [map_cons, map_cons, cons_prefix_cons, cons_prefix_cons, ih fun x hx hm => hf x hx (mem_cons_of_mem a hm),
        Option.some.injEq]
  | replaced h => cases needle with
    | nil => simp
    | cons a needle =>
      refine iff_of_false ?_ (not_prefix_none (cons_ne_nil a needle))
      obtain ⟨y, new, rfl⟩ := exists_cons_of_ne_nil hn
      rintro ⟨r, hr⟩
      have hh : a = y := (cons.inj hr).1
      exact hf y mem_cons_self (hh ▸ mem_cons_self)

omit [DecidableEq α] in
theorem drop (hp : needle.map some <+: text) :
    Shows new (start + needle.length) (tagged.drop needle.length) (text.drop needle.length) := by
  induction needle generalizing start tagged text with
  | nil => exact h
  | cons a needle ih =>
    cases h with
    | nil => simp at hp
    | kept h =>
      have hd := ih h (cons_prefix_cons.mp hp).2
      rwa [Nat.add_assoc, Nat.add_comm 1] at hd
    | replaced => exact absurd hp (not_prefix_none (cons_ne_nil a needle))

/-- **Replacing a list shows what blanking it out does.** -/
theorem replaceBy_blank (hne : needle ≠ []) (hn : new ≠ []) (hf : ∀ x ∈ new, x ∉ needle) :
    Shows new start (replaceBy Prod.fst needle (untagged new) 0 tagged) (blank needle 0 text) := by
  have hl := length_pos_iff.mpr hne
  induction hs : tagged.length using Nat.strong_induction_on generalizing start tagged text with
  | _ n ih =>
    by_cases hp : needle <+: tagged.map Prod.fst
    · have hpb := (h.prefix_iff hn hf).mp hp
      have hlt := hp.length_le
      rw [length_map] at hlt
      rw [replaceBy_of_begins hne hp, blank_of_begins hne hpb]
      obtain ⟨k, hk⟩ : ∃ k, needle.length = k + 1 := Nat.exists_eq_succ_of_ne_zero (by omega)
      have hr := ih _ (by rw [length_drop]; omega) (h.drop hpb) rfl
      rw [hk] at hr ⊢
      exact .replaced hr
    · cases h with
      | nil => simpa [replaceBy, hne, blank] using Shows.nil start
      | kept h =>
        rw [blank_cons_of_not fun hb => hp ((kept h).prefix_iff hn hf |>.mpr hb), replaceBy,
          if_neg (by simpa using hne),
          if_neg fun hb => hp (List.isPrefixOf_iff_prefix.mp hb)]
        exact .kept (ih _ (by simp [← hs]) h rfl)
      | replaced h =>
        have hu : ∀ x ∈ untagged new, x.1 ∉ needle := forall_mem_map.mpr hf
        have hg := length_pos_iff.mpr hn
        rw [replaceBy_append hne hu, blank_replicate_append hne]
        exact .replaced (ih _ (by rw [← hs, length_append, untagged, length_map]; omega) h rfl)

/-- **Replacing one list after the other shows what blanking them out does.** -/
theorem foldl_replaceBy {needles : List (List α)} (hn : new ≠ []) (hs : ∀ n ∈ needles, n ≠ [] ∧ ∀ x ∈ new, x ∉ n) :
    Shows new start (needles.foldl (fun text n => replaceBy Prod.fst n (untagged new) 0 text) tagged)
      (needles.foldl (fun text n => blank n 0 text) text) := by
  induction needles generalizing tagged text with
  | nil => exact h
  | cons n needles ih =>
    obtain ⟨⟨hne, hf⟩, hs⟩ := forall_mem_cons.mp hs
    exact ih (h.replaceBy_blank hne hn hf) hs

end Shows

end XiaoO.Base
