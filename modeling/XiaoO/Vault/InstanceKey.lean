import XiaoO.Base.Threads

/-!
# The master key of an instance

`InstanceKeyProvider::load_or_create` (`instance_key.rs`) loads the master key from its file, or
makes a random one and creates the file exclusively; a call that finds the file created by another
waits for the key in it. An empty file is taken for one that a crash has left behind, and removed.

## The model

Any number of calls take turns, a file-system step at a time: read, stat, remove, exclusive create
and write, which may be a short one. The key path leads to an inode; a call that has created a file
writes to its inode, whatever the path leads to by then. Inode 0 is the empty file that may be there
at the start. The random key of a call and the length of a short write are inputs of its steps, and
HMAC-SHA256 is any function to tags of the right length. Crashes, other I/O errors and the directory
of the file are left out.

## What is proved

* `keys_agree` — all calls that return a key return the same, and it is in the file once all have
  returned, as long as no call removes a file that a call has created.
* `removed_file_splits_keys` — an empty file is also what a call has created and not yet written:
  another call removes it and creates its own, and the two return different keys.
-/

namespace XiaoO.Vault

open XiaoO.Base Option Threads List

/-! ### The key file -/

def keyLen : ℕ := 32

def keyCheckLen : ℕ := 32

structure MasterKey where
  bytes : List UInt8
  length_eq : bytes.length = keyLen
  deriving DecidableEq

/-- HMAC-SHA256 of `MASTER_KEY_LABEL` under a key. -/
structure Mac where
  tag : List UInt8 → List UInt8
  length_tag : ∀ key, (tag key).length = keyCheckLen

variable (mac : Mac)

def keyFileBytes (key : MasterKey) : List UInt8 := key.bytes ++ mac.tag key.bytes

def parseVerified (bytes : List UInt8) : Option MasterKey :=
  if h : bytes.length = keyLen + keyCheckLen then
    if bytes.drop keyLen = mac.tag (bytes.take keyLen) then
      some ⟨bytes.take keyLen, by rw [length_take, h]; rfl⟩
    else none
  else none

/-- The file at the key path, and all files there have been. -/
structure KeyDir where
  file : Option ℕ
  contents : ℕ → List UInt8 := fun _ => []
  /-- The next inode. -/
  made : ℕ := 1

inductive ErrorKind where
  | notFound
  | invalidData
  deriving DecidableEq

def loadVerified (dir : KeyDir) : Except ErrorKind MasterKey :=
  match dir.file with
  | none => .error .notFound
  | some inode => (parseVerified mac (dir.contents inode)).elim (.error .invalidData) .ok

/-! ### Calls -/

def createRaceReloadAttempts : ℕ := 8

/-- Where a call of `load_or_create` is. -/
inductive Call where
  /-- The first `load_verified`. -/
  | load
  /-- `is_recoverable`, after invalid data. -/
  | stat
  | remove
  /-- `create_exclusive`, before the file is opened. -/
  | create
  /-- `write_all`. -/
  | write (inode : ℕ) (key : MasterKey) (rest : List UInt8)
  /-- `reload_after_lost_create_race`, with the attempts that are left before the last. -/
  | reload (attempts : ℕ)
  | returned (result : Except ErrorKind MasterKey)
  deriving DecidableEq

/-- What a step gets from outside: `random_key`, and how much of the bytes is written, if not
all. -/
structure Env where
  key : MasterKey := ⟨replicate keyLen 0, length_replicate ..⟩
  short : Option ℕ := none

/-- A step of a call. Both kinds of errors are transient in `reload_after_lost_create_race`. -/
def act (env : Env) (dir : KeyDir) : Call → Option (KeyDir × Call)
  | .load =>
    match loadVerified mac dir with
    | .ok key => some (dir, .returned (.ok key))
    | .error .notFound => some (dir, .create)
    | .error .invalidData => some (dir, .stat)
  | .stat =>
    some (dir, if dir.file.any fun inode => (dir.contents inode).length = 0 then .remove
      else .returned (.error .invalidData))
  | .remove => some ({ dir with file := none }, .create)
  | .create =>
    match dir.file with
    | some _ => some (dir, .reload createRaceReloadAttempts)
    | none =>
      some
        ({ file := some dir.made
           contents := Function.update dir.contents dir.made []
           made := dir.made + 1 },
          .write dir.made env.key (keyFileBytes mac env.key))
  | .write _ key [] => some (dir, .returned (.ok key))
  | .write inode key rest =>
    let (piece, rest) := env.short.elim (rest, []) fun n => rest.splitAt (n + 1)
    some ({ dir with contents := Function.update dir.contents inode (dir.contents inode ++ piece) },
      .write inode key rest)
  | .reload attempts =>
    match loadVerified mac dir, attempts with
    | .ok key, _ => some (dir, .returned (.ok key))
    | .error _, attempts + 1 => some (dir, .reload attempts)
    | .error e, 0 => some (dir, .returned (.error e))
  | .returned _ => none

variable {ι : Type} [DecidableEq ι]

abbrev World (ι : Type) := Threads ι KeyDir Call

def step : World ι → ι × Env → Option (World ι) := Threads.step (act mac)

/-- The key file is absent, or empty. -/
def start (file : Bool) : World ι := ⟨{ file := if file then some 0 else none }, fun _ => .load⟩

/-- No call removes a file that a call has created. -/
def KeepsCreated (w : World ι) (l : ι × Env) : Prop :=
  match w.thread l.1 with
  | .remove => ∀ inode ∈ w.shared.file, inode = 0
  | _ => True

instance : DecidableRel (KeepsCreated (ι := ι)) := fun w l => by
  unfold KeepsCreated
  split <;> infer_instance

/-! ### One key -/

variable {mac} {key key' : MasterKey} {e : Env} {d d' : KeyDir} {known : Option MasterKey} {c c' : Call}

theorem length_keyFileBytes (key : MasterKey) : (keyFileBytes mac key).length = keyLen + keyCheckLen := by
  rw [keyFileBytes, length_append, key.length_eq, mac.length_tag]

theorem parseVerified_keyFileBytes (key : MasterKey) : parseVerified mac (keyFileBytes mac key) = some key := by
  have ht : (keyFileBytes mac key).take keyLen = key.bytes := take_left' key.length_eq
  have hd : (keyFileBytes mac key).drop keyLen = mac.tag key.bytes := drop_left' key.length_eq
  simp [parseVerified, length_keyFileBytes, ht, hd]

/-- What is written of a file does not parse to another key. -/
theorem eq_of_parseVerified {w r : List UInt8} (hf : w ++ r = keyFileBytes mac key)
    (h : parseVerified mac w = some key') : key' = key := by
  have hl : w.length = keyLen + keyCheckLen := by
    by_contra hne
    rw [parseVerified, dif_neg hne] at h
    cases h
  have hw : w = keyFileBytes mac key :=
    List.IsPrefix.eq_of_length ⟨r, hf⟩ (hl.trans (length_keyFileBytes key).symm)
  rw [hw, parseVerified_keyFileBytes] at h
  exact (some.inj h).symm

theorem loadVerified_of_file (i : ℕ) (hf : d.file = some i)
    (hc : d.contents i = keyFileBytes mac key) : loadVerified mac d = .ok key := by
  rw [loadVerified, hf]
  simp [hc, parseVerified_keyFileBytes]

/-- The call has no file of its own, and no other key than the known one. -/
def Call.Follows (known : Option MasterKey) : Call → Prop
  | .write _ _ _ => False
  | .returned (.ok key) => known = some key
  | _ => True

theorem Call.Follows.of_none : ∀ {c : Call}, c.Follows none → c.Follows known
  | .write .., h => h.elim
  | .returned (.ok _), h => nomatch h
  | .returned (.error _), _ | .load, _ | .stat, _ | .remove, _ | .create, _ | .reload _, _ => trivial

/-- Reading changes nothing, and no other key is learned than the one in the file. -/
theorem Call.Follows.act (h : c.Follows known) (hl : ∀ key, loadVerified mac d = .ok key → known = some key)
    (hrm : c ≠ .remove) (hc : c = .create → d.file.isSome)
    (ha : act mac e d c = some (d', c')) : d' = d ∧ c'.Follows known := by
  cases c with
  | remove => exact absurd rfl hrm
  | create =>
    obtain ⟨i, hf⟩ := isSome_iff_exists.mp (hc rfl)
    simp only [Vault.act, hf] at ha
    cases ha
    exact ⟨rfl, trivial⟩
  | write => exact h.elim
  | returned => cases ha
  | stat =>
    cases ha
    refine ⟨rfl, ?_⟩
    split_ifs <;> trivial
  | load =>
    rw [Vault.act] at ha
    split at ha <;> cases ha
    · next key hk => exact ⟨rfl, hl key hk⟩
    · exact ⟨rfl, trivial⟩
    · exact ⟨rfl, trivial⟩
  | reload ats =>
    cases hr : loadVerified mac d with
    | ok key =>
      simp only [Vault.act, hr] at ha
      cases ha
      exact ⟨rfl, hl key hr⟩
    | error => cases ats <;> simp only [Vault.act, hr] at ha <;> cases ha <;> exact ⟨rfl, trivial⟩

variable {i : ι} {w v : World ι} {l : ι × Env}

/-- No call has created the file yet. -/
structure Unmade (w : World ι) : Prop where
  file : ∀ inode ∈ w.shared.file, inode = 0
  empty : w.shared.contents 0 = []
  made : w.shared.made ≠ 0
  follows : ∀ i, (w.thread i).Follows none

/-- The call `i` has created the file, for a key. -/
structure Made (mac : Mac) (i : ι) (key : MasterKey) (w : World ι) : Prop where
  file : ∃ inode rest, inode ≠ 0 ∧ w.shared.file = some inode ∧
    w.shared.contents inode ++ rest = keyFileBytes mac key ∧
    (w.thread i = .write inode key rest ∨ rest = [] ∧ w.thread i = .returned (.ok key))
  follows : ∀ k, k ≠ i → (w.thread k).Follows (some key)

omit [DecidableEq ι] in
theorem Made.loads (h : Made mac i key w) (hl : loadVerified mac w.shared = .ok key') : key' = key := by
  obtain ⟨ino, r, -, hf, hc, -⟩ := h.file
  rw [loadVerified, hf] at hl
  cases hp : parseVerified mac (w.shared.contents ino) with
  | none => simp [hp] at hl
  | some f =>
    obtain rfl : f = key' := by simpa [hp] using hl
    exact eq_of_parseVerified hc hp

theorem Unmade.step (h : Unmade w) (hst : step mac w l = some v) : Unmade v ∨ ∃ key, Made mac l.1 key v := by
  obtain ⟨d, c, ha, rfl⟩ := step_eq_some.mp hst
  have hf : ∀ c : Call, c.Follows none → ∀ k, ((w.put l.1 d c).thread k).Follows none :=
    fun c hcl => forall_put hcl fun k _ => h.follows k
  by_cases hr : w.thread l.1 = .remove
  · rw [hr] at ha
    cases ha
    exact .inl ⟨nofun, h.empty, h.made, hf .create trivial⟩
  by_cases hc : w.thread l.1 = .create ∧ w.shared.file = none
  · simp only [hc, act] at ha
    cases ha
    refine .inr ⟨l.2.key, ⟨w.shared.made, _, h.made, rfl, by simp, .inl (put_thread_self ..)⟩, fun k hk => ?_⟩
    rw [put_thread_of_ne _ _ _ hk]
    exact (h.follows k).of_none
  · have hs : w.thread l.1 = .create → w.shared.file.isSome := fun ht =>
      isSome_iff_ne_none.mpr fun hn => hc ⟨ht, hn⟩
    have hl : ∀ key, loadVerified mac w.shared = .ok key → none = some key := by
      intro key hky
      cases hfl : w.shared.file with
      | none => simp [loadVerified, hfl] at hky
      | some ino =>
        rw [h.file ino hfl] at hfl
        have hp : parseVerified mac [] = none := dif_neg (by decide)
        simp [loadVerified, hfl, h.empty, hp] at hky
    obtain ⟨rfl, hcl⟩ := (h.follows l.1).act hl hr hs ha
    exact .inl ⟨h.file, h.empty, h.made, hf c hcl⟩

/-- The creator writes the rest of its file. -/
theorem Made.step_self (h : Made mac i key w) (hs : step mac w (i, e) = some v) : Made mac i key v := by
  obtain ⟨d, c, ha, rfl⟩ := step_eq_some.mp hs
  have ho : ∀ k, k ≠ i → ((w.put i d c).thread k).Follows (some key) := by
    intro k hk
    rw [put_thread_of_ne _ _ _ hk]
    exact h.follows k hk
  obtain ⟨ino, r, hne, hf, hc, hcl | ⟨-, hcl⟩⟩ := h.file
  all_goals simp only [hcl] at ha
  · cases r with
    | nil =>
      cases ha
      exact ⟨⟨ino, [], hne, hf, hc, .inr ⟨rfl, by simp⟩⟩, ho⟩
    | cons =>
      cases ha
      refine ⟨⟨ino, _, hne, hf, ?_, .inl (put_thread_self ..)⟩, ho⟩
      rw [← hc]
      cases e.short <;> simp
  · cases ha

theorem Made.step (h : Made mac i key w) (hkp : KeepsCreated w l) (hs : Vault.step mac w l = some v) :
    Made mac i key v := by
  obtain ⟨k, e⟩ := l
  by_cases hk : k = i
  · subst hk
    exact h.step_self hs
  obtain ⟨d, c, ha, rfl⟩ := step_eq_some.mp hs
  obtain ⟨ino, r, hne, hf, hc, hsl⟩ := h.file
  have hr : w.thread k ≠ .remove := by
    intro hr
    simp only [KeepsCreated, hr] at hkp
    exact hne (hkp ino hf)
  obtain ⟨rfl, hcl⟩ := (h.follows k hk).act (fun key' hl => by rw [h.loads hl]) hr
    (fun _ => by rw [hf]; rfl) ha
  refine ⟨⟨ino, r, hne, hf, hc, ?_⟩, fun k' hk' => ?_⟩
  · rwa [put_thread_of_ne _ _ _ (Ne.symm hk)]
  · by_cases heq : k' = k
    · rw [heq, put_thread_self]
      exact hcl
    · rw [put_thread_of_ne _ _ _ heq]
      exact h.follows k' hk'

/-- **All calls return one key**, and it is in the file when all have returned, if no call removes a
file that a call has created. -/
theorem keys_agree {file : Bool} (hrun : RunUnder (step mac) KeepsCreated (start file) w) :
    (∀ i k key key', w.thread i = .returned (.ok key) → w.thread k = .returned (.ok key') → key = key') ∧
      ((∀ i, ∃ result, w.thread i = .returned result) →
        ∀ i key, w.thread i = .returned (.ok key) → loadVerified mac w.shared = .ok key) := by
  have hi : Unmade w ∨ ∃ i key, Made mac i key w := by
    refine hrun.invariant (I := fun w => Unmade w ∨ ∃ i key, Made mac i key w) (.inl ?_) ?_
    · exact ⟨by cases file <;> simp [start], rfl, one_ne_zero, fun _ => trivial⟩
    · rintro u v l (hu | ⟨i, key, hu⟩) hkp hst
      · exact (hu.step hst).imp id fun hm => ⟨l.1, hm⟩
      · exact .inr ⟨i, key, hu.step hkp hst⟩
  rcases hi with hun | ⟨i, key, hm⟩
  · have hn : ∀ i key, w.thread i ≠ .returned (.ok key) := by
      intro i key hky
      have hf := hun.follows i
      rw [hky] at hf
      cases hf
    exact ⟨fun i k key key' hky => absurd hky (hn i key), fun _ i key hky => absurd hky (hn i key)⟩
  · obtain ⟨inode, rest, -, hfl, hc, hs⟩ := hm.file
    have hke : ∀ k found, w.thread k = .returned (.ok found) → found = key := by
      intro k found hky
      by_cases hk : k = i
      · subst hk
        rcases hs with hs | ⟨-, hs⟩ <;> rw [hky] at hs <;> cases hs
        rfl
      · have hf := hm.follows k hk
        rw [hky] at hf
        exact (some.inj hf).symm
    refine ⟨fun _ _ _ _ hk hk' => (hke _ _ hk).trans (hke _ _ hk').symm, fun ha k found hky => ?_⟩
    rcases hs with hs | ⟨rfl, -⟩
    · obtain ⟨result, hr⟩ := ha i
      rw [hs] at hr
      cases hr
    · rw [append_nil] at hc
      rw [hke k found hky]
      exact loadVerified_of_file inode hfl hc

def plainKey (byte : UInt8) : MasterKey := ⟨replicate keyLen byte, length_replicate ..⟩

/-- A call removes the empty file that was there and creates another; a second call waits for the
key in it. -/
theorem keys_agree_waiting : (start true : World Bool).shared.file = some 0 ∧ ∀ mac : Mac, ∃ w : World Bool,
    RunUnder (step mac) KeepsCreated (start true) w ∧ (∀ i, w.thread i = .returned (.ok (plainKey 1))) ∧
      loadVerified mac w.shared = .ok (plainKey 1) := by
  refine ⟨rfl, fun mac => ?_⟩
  have hs : (exec (step mac) KeepsCreated
    [(true, {}), (true, {}), (true, {}), (false, {}), (true, { key := plainKey 1 }), (false, {}),
      (true, { short := some 9 }), (false, {}), (true, {}), (true, {})] (start true : World Bool)).isSome := rfl
  -- The last step, by which the second call reads the key, is not evaluated: it compares tags.
  obtain ⟨w, hw, hl, ht, hf⟩ : ∃ w : World Bool, RunUnder (step mac) KeepsCreated (start true) w ∧
      loadVerified mac w.shared = .ok (plainKey 1) ∧ w.thread true = .returned (.ok (plainKey 1)) ∧
      w.thread false = .reload 7 :=
    ⟨_, runUnder_of_exec (some_get hs).symm, loadVerified_of_file 1 rfl rfl, rfl, rfl⟩
  have ha : act mac {} w.shared (w.thread false) = some (w.shared, .returned (.ok (plainKey 1))) := by
    simp [hf, act, hl]
  have hr : RunUnder (step mac) KeepsCreated (start true) (w.put false w.shared (.returned (.ok (plainKey 1)))) :=
    hw.tail ⟨(false, {}), by simp [KeepsCreated, hf], step_eq_some.mpr ⟨_, _, ha, rfl⟩⟩
  have hk : ∀ i, (w.put false w.shared (.returned (.ok (plainKey 1)))).thread i = .returned (.ok (plainKey 1)) :=
    Bool.forall_bool.mpr ⟨put_thread_self .., (put_thread_of_ne _ _ _ (by decide)).trans ht⟩
  exact ⟨_, hr, hk, (keys_agree hr).2 (fun i => ⟨_, hk i⟩) true _ (hk true)⟩

/-- **Two calls return different keys**: the second removes the file that the first has created and
not yet written. -/
theorem removed_file_splits_keys : plainKey 1 ≠ plainKey 2 ∧ ∀ mac : Mac, ∃ w : World Bool,
    RunUnder (step mac) Always (start false) w ∧ w.thread true = .returned (.ok (plainKey 1)) ∧
      w.thread false = .returned (.ok (plainKey 2)) ∧ loadVerified mac w.shared = .ok (plainKey 2) := by
  refine ⟨by decide, fun mac => ?_⟩
  have hs : (exec (step mac) Always
    [(true, {}), (true, { key := plainKey 1 }), (false, {}), (false, {}), (false, {}),
      (false, { key := plainKey 2 }),
      (false, {}), (false, {}), (true, {}), (true, {})] (start false : World Bool)).isSome := rfl
  exact ⟨_, runUnder_of_exec (some_get hs).symm, rfl, rfl, loadVerified_of_file 2 rfl rfl⟩

end XiaoO.Vault
