import Mathlib.Data.List.Pairwise
import Mathlib.Data.List.Sort
import Mathlib.Data.Finset.Card

/-!
# Maps in the order of their keys

A finite map as the list of its entries, in the order of the keys, so that walking over the map
visits the keys in order. The order is part of the type: no map with a repeated key or with keys out
of place can be built.

## What is proved

How looking up goes with inserting, removing and changing every value (`get?_insert`, `get?_erase`,
`get?_mapValues`), and that the entries are what is looked up, once for each key (`mem_entries`,
`countP_key_le_one`), so that maps with the same values are the same (`ext_get?`). The keys whose
values are of a kind (`keysWhere`), in order, and how they change with the map.
-/

namespace XiaoO.Base

open List

/-- A map from `κ` to `α`, its entries sorted by key. -/
structure SortedMap (κ α : Type) [LinearOrder κ] where
  entries : List (κ × α)
  sorted : entries.Pairwise fun a b => a.1 < b.1
  deriving DecidableEq

namespace SortedMap

variable {κ α : Type} [LinearOrder κ]

def empty : SortedMap κ α := ⟨[], .nil⟩

def get? (m : SortedMap κ α) (k : κ) : Option α := (m.entries.find? fun e => e.1 = k).map Prod.snd

/-- Insert into a sorted list of entries, replacing the value of an equal key. -/
def insertEntry (k : κ) (a : α) : List (κ × α) → List (κ × α)
  | [] => [(k, a)]
  | e :: es =>
    if k < e.1 then (k, a) :: e :: es
    else if k = e.1 then (k, a) :: es
    else e :: insertEntry k a es

variable {a : α} {k : κ} {m : SortedMap κ α} {p : α → Bool}

theorem mem_insertEntry {e : κ × α} {es : List (κ × α)} (h : e ∈ insertEntry k a es) : e = (k, a) ∨ e ∈ es := by
  induction es with
  | nil => simpa [insertEntry] using h
  | cons f es ih =>
    rw [insertEntry] at h
    split_ifs at h
    · simpa using h
    · rcases mem_cons.mp h with h | h
      · exact .inl h
      · exact .inr (mem_cons_of_mem f h)
    · rcases mem_cons.mp h with h | h
      · exact .inr (h ▸ mem_cons_self)
      · exact (ih h).imp_right (mem_cons_of_mem f)

theorem sorted_insertEntry {es : List (κ × α)} (h : es.Pairwise fun a b => a.1 < b.1) :
    (insertEntry k a es).Pairwise fun a b => a.1 < b.1 := by
  induction es with
  | nil => simp [insertEntry]
  | cons f es ih =>
    obtain ⟨hf, ht⟩ := pairwise_cons.mp h
    rw [insertEntry]
    split_ifs with hlt heq
    · refine pairwise_cons.mpr ⟨fun e he => ?_, h⟩
      rcases mem_cons.mp he with rfl | he
      · exact hlt
      · exact hlt.trans (hf e he)
    · exact pairwise_cons.mpr ⟨fun e he => heq ▸ hf e he, ht⟩
    · refine pairwise_cons.mpr ⟨fun e he => ?_, ih ht⟩
      rcases mem_insertEntry he with rfl | he
      · exact lt_of_le_of_ne (not_lt.mp hlt) (Ne.symm heq)
      · exact hf e he

/-- Insert, replacing the value of an equal key. -/
def insert (m : SortedMap κ α) (k : κ) (a : α) : SortedMap κ α :=
  ⟨insertEntry k a m.entries, sorted_insertEntry m.sorted⟩

def mapValues (m : SortedMap κ α) (f : κ → α → α) : SortedMap κ α where
  entries := m.entries.map fun e => (e.1, f e.1 e.2)
  sorted := by
    refine List.pairwise_map.mpr (m.sorted.imp fun h => ?_)
    exact h

/-- Change the value at one key, if it has one. -/
def modify (m : SortedMap κ α) (k : κ) (f : α → α) : SortedMap κ α :=
  m.mapValues fun k' a => if k' = k then f a else a

def erase (m : SortedMap κ α) (k : κ) : SortedMap κ α where
  entries := m.entries.filter fun e => e.1 ≠ k
  sorted := m.sorted.filter _

theorem get?_insert (m : SortedMap κ α) (k k' : κ) (a : α) :
    (m.insert k a).get? k' = if k' = k then some a else m.get? k' := by
  have hf : ∀ es : List (κ × α), (insertEntry k a es).find? (fun e => e.1 = k') =
      if k' = k then some (k, a) else es.find? fun e => e.1 = k' := by
    intro es
    induction es with
    | nil => by_cases h : k' = k <;> simp [insertEntry, h, eq_comm]
    | cons =>
      rw [insertEntry]
      split_ifs with hlt heq <;> by_cases h : k' = k <;> grind
  rw [get?, insert, hf]
  split_ifs <;> rfl

theorem get?_mapValues (m : SortedMap κ α) (f : κ → α → α) (k : κ) :
    (m.mapValues f).get? k = (m.get? k).map (f k) := by
  rw [get?, get?, mapValues, find?_map, Option.map_map]
  cases hf : m.entries.find? (fun e => e.1 = k) with
  | none => simpa [Function.comp_def] using hf
  | some e =>
    have hk : e.1 = k := by simpa using find?_some hf
    simp [Function.comp_def, hf, hk]

theorem get?_modify (m : SortedMap κ α) (k k' : κ) (f : α → α) :
    (m.modify k f).get? k' = if k' = k then (m.get? k').map f else m.get? k' := by
  rw [modify, get?_mapValues]
  split_ifs with h <;> simp [h]

theorem get?_erase (m : SortedMap κ α) (k k' : κ) : (m.erase k).get? k' = if k' = k then none else m.get? k' := by
  rw [get?, get?, erase, find?_filter]
  split_ifs with h
  · subst h
    rw [Option.map_eq_none_iff, find?_eq_none]
    intro e _
    simp
  · congr 2
    funext e
    by_cases he : e.1 = k' <;> simp [he, h]

theorem get?_foldl_erase (ks : List κ) (m : SortedMap κ α) (k : κ) :
    (ks.foldl (·.erase ·) m).get? k = if k ∈ ks then none else m.get? k := by
  induction ks generalizing m with
  | nil => simp
  | cons a ks ih =>
    rw [foldl_cons, ih, get?_erase]
    grind

theorem entry_ext (m : SortedMap κ α) {e f : κ × α} (he : e ∈ m.entries) (hf : f ∈ m.entries) (h : e.1 = f.1) :
    e = f := by
  refine List.Pairwise.forall_of_forall_of_flip (R := fun a b => a.1 = b.1 → a = b) (fun _ _ _ => rfl) ?_ ?_ he hf h
  · exact m.sorted.imp fun hlt heq => absurd heq hlt.ne
  · exact m.sorted.imp fun hlt heq => absurd heq hlt.ne'

/-- The entries of a map are the pairs of its keys and values. -/
theorem mem_entries : (k, a) ∈ m.entries ↔ m.get? k = some a := by
  constructor
  · intro h
    rw [get?]
    cases hf : m.entries.find? (fun e => e.1 = k) with
    | none => exact absurd (find?_eq_none.mp hf (k, a) h) (by simp)
    | some e =>
      have hk : e.1 = k := by simpa using find?_some hf
      rw [m.entry_ext (mem_of_find?_eq_some hf) h hk]
      rfl
  · intro h
    obtain ⟨e, he, rfl⟩ := Option.map_eq_some_iff.mp h
    have hk : e.1 = k := by simpa using find?_some he
    exact hk ▸ mem_of_find?_eq_some he

theorem ext_get? {n : SortedMap κ α} (h : ∀ k, m.get? k = n.get? k) : m = n := by
  have hn : ∀ l : SortedMap κ α, l.entries.Nodup := fun l => l.sorted.imp fun hlt heq =>
    hlt.ne (congrArg Prod.fst heq)
  have hp : m.entries.Perm n.entries := by
    refine (perm_ext_iff_of_nodup (hn m) (hn n)).mpr ?_
    rintro ⟨k, a⟩
    rw [mem_entries, mem_entries, h]
  have heq : m.entries = n.entries :=
    hp.eq_of_pairwise (fun _ _ _ _ hlt hgt => absurd hlt hgt.asymm) m.sorted n.sorted
  cases m
  cases n
  cases heq
  rfl

theorem nodup_keys (m : SortedMap κ α) : (m.entries.map Prod.fst).Nodup := by
  refine pairwise_map.mpr (m.sorted.imp fun hlt => ?_)
  exact hlt.ne

theorem countP_key_le_one (m : SortedMap κ α) (k : κ) : m.entries.countP (fun e => e.1 = k) ≤ 1 := by
  have hc := nodup_iff_count_le_one.mp m.nodup_keys k
  rwa [count, countP_map] at hc

/-! ### Keys by their values -/

/-- The keys whose values are of a kind, in order. -/
def keysWhere (m : SortedMap κ α) (p : α → Bool) : List κ := (m.entries.filter fun e => p e.2).map Prod.fst

theorem mem_keysWhere : k ∈ m.keysWhere p ↔ ∃ a, m.get? k = some a ∧ p a = true := by
  simp only [keysWhere, mem_map, mem_filter]
  constructor
  · rintro ⟨⟨_, a⟩, ⟨hm, ha⟩, rfl⟩
    exact ⟨a, mem_entries.mp hm, ha⟩
  · rintro ⟨a, hg, ha⟩
    exact ⟨(k, a), ⟨mem_entries.mpr hg, ha⟩, rfl⟩

theorem pairwise_keysWhere (m : SortedMap κ α) (p : α → Bool) : (m.keysWhere p).Pairwise (· < ·) :=
  pairwise_map.mpr (m.sorted.filter _)

/-- The number of keys of a kind, among the keys of a set that has them all. -/
theorem length_keysWhere {S : Finset κ} (h : ∀ k ∈ m.keysWhere p, k ∈ S) :
    (m.keysWhere p).length = (S.filter fun k => (m.get? k).any p).card := by
  have hn : (m.keysWhere p).Nodup := (m.pairwise_keysWhere p).imp fun hlt => ne_of_lt hlt
  rw [← toFinset_card_of_nodup hn]
  congr 1
  ext k
  rw [mem_toFinset, Finset.mem_filter, Option.any_eq_true, ← mem_keysWhere]
  exact ⟨fun hk => ⟨h k hk, hk⟩, And.right⟩

/-- The keys of a kind are known by their order and by what they are. -/
theorem keysWhere_eq {l : List κ} (hs : l.Pairwise (· < ·))
    (hm : ∀ k, k ∈ l ↔ ∃ a, m.get? k = some a ∧ p a = true) : m.keysWhere p = l :=
  (m.pairwise_keysWhere p).eq_of_mem_iff hs fun k => mem_keysWhere.trans (hm k).symm

theorem keysWhere_congr {n : SortedMap κ α} {q : α → Bool}
    (h : ∀ k, (∃ a, m.get? k = some a ∧ p a = true) ↔ ∃ a, n.get? k = some a ∧ q a = true) :
    m.keysWhere p = n.keysWhere q :=
  keysWhere_eq (n.pairwise_keysWhere q) fun k => mem_keysWhere.trans (h k).symm

theorem keysWhere_insert_last (hl : ∀ k' a, m.get? k' = some a → k' < k) (a : α)
    (p : α → Bool) : (m.insert k a).keysWhere p = m.keysWhere p ++ if p a then [k] else [] := by
  have hlt : ∀ k' ∈ m.keysWhere p, k' < k := fun k' hm => by
    obtain ⟨a', hg, -⟩ := mem_keysWhere.mp hm
    exact hl k' a' hg
  refine keysWhere_eq ?_ fun k' => ?_
  · rw [pairwise_append]
    split_ifs
    · exact ⟨m.pairwise_keysWhere p, pairwise_singleton _ k, fun k' hm _ hk => mem_singleton.mp hk ▸ hlt k' hm⟩
    · exact ⟨m.pairwise_keysWhere p, .nil, fun _ _ _ hk => absurd hk not_mem_nil⟩
  · rw [mem_append, mem_keysWhere, get?_insert]
    by_cases hk : k' = k
    · have hn : m.get? k' = none := by
        cases hg : m.get? k' with
        | none => rfl
        | some a' => exact absurd (hl k' a' hg) (hk ▸ lt_irrefl _)
      cases hp : p a <;> simp [hk, hk ▸ hn, hp]
    · cases hp : p a <;> simp [hk]

theorem keysWhere_erase (m : SortedMap κ α) (k : κ) (p : α → Bool) :
    (m.erase k).keysWhere p = (m.keysWhere p).filter (· ≠ k) := by
  refine keysWhere_eq ((m.pairwise_keysWhere p).filter _) fun k' => ?_
  rw [mem_filter, mem_keysWhere, get?_erase]
  by_cases hk : k' = k <;> simp [hk]

end SortedMap

end XiaoO.Base
