import Mathlib.Tactic

/-!
# JSON

JSON values as `serde_json` has them. An array is a list of values and an object a list of entries;
if a key occurs twice, the later entry counts. Values, lists of values and lists of entries are one
family of trees. A number is a `u64`, an `i64` below zero, or an `f64`.

How a text is read and how a value is printed is not defined here: a `Codec` is any reader with any
printer. In particular a value need not be read back from what is printed (`ReadsBack`), as an `f64`
may come back as the next one. `Codec.ofTable` is the codec of finitely many texts.
-/

namespace XiaoO.Base.Json

open List

/-! ### Values -/

/-- `N` of `serde_json`; a float is given by its bits. -/
inductive Number where
  | posInt (n : UInt64)
  | negInt (n : Int64)
  | float (bits : UInt64)
  deriving DecidableEq

/-- Values, and the two kinds of lists in them. -/
inductive Kind where
  | value
  | items
  | entries
  deriving DecidableEq

/-- Values, and the lists of values and of entries in them. -/
inductive Tree : Kind → Type
  | null : Tree .value
  | bool (b : Bool) : Tree .value
  | number (n : Number) : Tree .value
  | string (s : String) : Tree .value
  | array (items : Tree .items) : Tree .value
  | object (entries : Tree .entries) : Tree .value
  | noItems : Tree .items
  | item (v : Tree .value) (rest : Tree .items) : Tree .items
  | noEntries : Tree .entries
  | entry (key : String) (v : Tree .value) (rest : Tree .entries) : Tree .entries
  deriving DecidableEq

abbrev Value := Tree .value

namespace Tree

def toList : {k : Kind} → Tree k → List Value
  | _, item v rest => v :: rest.toList
  | _, _ => []

def lookup (key : String) : {k : Kind} → Tree k → Option Value
  | _, entry k v rest => (rest.lookup key).or (if k = key then some v else none)
  | _, _ => none

def get? (v : Value) (key : String) : Option Value :=
  match v with
  | object entries => entries.lookup key
  | _ => none

/-- The value of a key, and `null` where there is none. -/
def get (v : Value) (key : String) : Value := (v.get? key).getD null

/-- Take a key out of a list of entries. -/
def erase (key : String) : {k : Kind} → Tree k → Tree k
  | _, entry k w rest => if k = key then erase key rest else entry k w (erase key rest)
  | _, t => t

/-- Set a key in a list of entries: before the first entry with a greater key. -/
def insert (key : String) (v : Value) : {k : Kind} → Tree k → Tree k
  | _, entry k w rest =>
    if k = key then insert key v rest
    else if key < k then entry key v (entry k w (erase key rest))
    else entry k w (insert key v rest)
  | _, noEntries => entry key v noEntries
  | _, t => t

/-- A list of values as items. -/
def ofList : List Value → Tree .items
  | [] => noItems
  | v :: vs => item v (ofList vs)

@[simp] theorem toList_ofList (vs : List Value) : (ofList vs).toList = vs := by
  induction vs with
  | nil => rfl
  | cons v vs ih => rw [ofList, toList, ih]

def record (fields : List (String × Value)) : Value :=
    object (fields.foldr (fun f rest => entry f.1 f.2 rest) noEntries)

theorem lookup_erase (key o : String) :
    (t : Tree .entries) → lookup o (erase key t) = if o = key then none else lookup o t
  | noEntries => by simp [erase, lookup]
  | entry k w r => by
    have ih := lookup_erase key o r
    by_cases hk : k = key
    · grind [erase, lookup]
    · grind [erase, lookup]

theorem lookup_insert (key o : String) (v : Value) :
    (t : Tree .entries) → lookup o (insert key v t) = if o = key then some v else lookup o t
  | noEntries => by grind [insert, lookup]
  | entry k w r => by
    have ih := lookup_insert key o v r
    have he := lookup_erase key o r
    by_cases hk : k = key
    · grind [insert, lookup]
    · by_cases hlt : key < k
      · grind [insert, lookup]
      · grind [insert, lookup]

def asStr : Value → Option String
  | string s => some s
  | _ => none

def asArray : Value → Option (List Value)
  | array items => some items.toList
  | _ => none

def asU64 : Value → Option ℕ
  | number (.posInt n) => some n.toNat
  | _ => none

def asI64 : Value → Option ℤ
  | number (.posInt n) => if n.toNat < 2 ^ 63 then some n.toNat else none
  | number (.negInt n) => some n.toInt
  | _ => none

end Tree

/-! ### Texts -/

/-- `from_str` and `to_string`. -/
structure Codec where
  fromStr : List Char → Option Value
  print : Value → List Char

namespace Codec

/-- What is printed is read as the same value. -/
def ReadsBack (codec : Codec) (v : Value) : Prop := codec.fromStr (codec.print v) = some v
  deriving Decidable

/-- The codec of these texts, each with its value. -/
def ofTable (table : List (String × Value)) : Codec where
  fromStr s := (table.find? fun entry => entry.1.toList = s).map Prod.snd
  print v := ((table.find? fun entry => entry.2 = v).map fun entry => entry.1.toList).getD []

variable {table : List (String × Value)} {s : List Char} {v : Value}

theorem mem_of_fromStr_ofTable (h : (ofTable table).fromStr s = some v) :
    ∃ text, (text, v) ∈ table ∧ text.toList = s := by
  obtain ⟨entry, he, rfl⟩ := Option.map_eq_some_iff.mp h
  exact ⟨entry.1, mem_of_find?_eq_some he, by simpa using find?_some he⟩

/-- What is printed is a text of the value, if it has one. -/
theorem print_ofTable (table : List (String × Value)) (v : Value) :
    (∃ text, (text, v) ∈ table ∧ (ofTable table).print v = text.toList) ∨
      (ofTable table).print v = [] ∧ v ∉ table.map Prod.snd := by
  cases hf : table.find? fun entry => entry.2 = v with
  | none =>
    refine .inr ⟨by simp [ofTable, hf], ?_⟩
    intro hv
    obtain ⟨entry, he, rfl⟩ := mem_map.mp hv
    simpa using find?_eq_none.mp hf entry he
  | some entry =>
    have hv : entry.2 = v := by simpa using find?_some hf
    subst hv
    exact .inl ⟨entry.1, mem_of_find?_eq_some hf, by simp [ofTable, hf]⟩

/-- Where no text has two values, each is read as its value. -/
theorem fromStr_ofTable (hn : (table.map Prod.fst).Nodup) {entry : String × Value} (h : entry ∈ table) :
    (ofTable table).fromStr entry.1.toList = some entry.2 := by
  obtain ⟨found, hf⟩ : ∃ found, table.find? (fun e => e.1.toList = entry.1.toList) = some found :=
    Option.isSome_iff_exists.mp (find?_isSome.mpr ⟨entry, h, by simp⟩)
  have htext : found.1 = entry.1 := String.toList_inj.mp (by simpa using find?_some hf)
  have hentry : found = entry := inj_on_of_nodup_map hn (mem_of_find?_eq_some hf) h htext
  simp [ofTable, hf, hentry]

theorem readsBack_ofTable (hn : (table.map Prod.fst).Nodup) (hv : v ∈ table.map Prod.snd) :
    (ofTable table).ReadsBack v := by
  obtain ⟨text, ht, hp⟩ | ⟨-, hv'⟩ := print_ofTable table v
  · rw [ReadsBack, hp]
    exact fromStr_ofTable hn ht
  · exact absurd hv hv'

end Codec

end XiaoO.Base.Json
