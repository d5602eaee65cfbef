import XiaoO.Base.FileTree

/-!
# System calls on a file tree

The calls that create or change entries, on the file trees of
`XiaoO.Base.FileTree`. A host path is absolute and lexically normal: a list of
entry names, innermost first, so that its head is the file name and its tail the
parent path. `links` is the number of link expansions one resolution may use.

`createDirAll` is the library function of that name: try to create the
directory, on a missing parent create the parent first and try again.

## What is proved

Which directories `createDirAll` creates. An entry of the path that is missing
in a directory that exists (`Missing`) is created (`missing_mem_created`), and
everything created lies at or below such an entry (`exists_missing_of_created`).
Where it is, is decided by the links in the part of the path that exists.
-/

namespace XiaoO.Base

open List Except Function

namespace FileTree

variable {α : Type*} {links : ℕ} {fs fs' : FileTree α} {d : List α} {n : α}

/-- The components of a host path, outermost first. -/
def names (p : List α) : List (Component α) := p.reverse.map .name

theorem names_cons (n : α) (p : List α) : names (n :: p) = names p ++ [.name n] := by
  simp [names]

/-- The directory part of a host path, resolved. -/
theorem resolve_names_cons (f : Bool) (p : List α) : fs.resolve f links [] (names (n :: p)) =
      (fs.resolveDir links [] (names p)).bind fun r => fs.resolve f r.2 r.1 [.name n] := by
  rw [names_cons, resolve_snoc n _ fs.root_dir]
  rfl

variable {r : List α × ℕ} {loc p parent : List α} {created : List (List α)} {res : Except Errno Unit}

theorem resolveDir_ok {c : List α} {pt : List (Component α)} : fs.resolveDir links c pt = .ok r ↔
      fs.resolve true links c pt = .ok r ∧ fs.node r.1 = some .dir := by
  unfold resolveDir
  constructor
  · intro h
    cases hs : fs.resolve true links c pt with
    | error => simp [hs, asDir] at h
    | ok =>
      simp only [hs, asDir] at h
      split at h
      next hd =>
        obtain rfl := ok.inj h
        exact ⟨rfl, hd⟩
      next => simp at h
      next => simp at h
  · rintro ⟨hs, hd⟩
    simp [hs, asDir, hd]

theorem resolveDir_mono (hle : fs.Le fs') {c : List α} {pt : List (Component α)}
    (h : fs.resolveDir links c pt = .ok r) : fs'.resolveDir links c pt = .ok r := by
  obtain ⟨hr, hd⟩ := resolveDir_ok.mp h
  exact resolveDir_ok.mpr ⟨resolve_mono hle hr hd, hle _ _ hd⟩

/-! ### Changing one entry -/

variable [DecidableEq α]

/-- Put something at the entry `n` of the directory `d`, where there is no directory. -/
def put (fs : FileTree α) (n : α) (d : List α) (x : Node α) (hd : fs.node d = some .dir)
    (hn : fs.node (n :: d) ≠ some .dir) : FileTree α where
  node := update fs.node (n :: d) (some x)
  root_dir := by simpa using fs.root_dir
  parent_dir := by
    intro m e y h
    by_cases heq : m :: e = n :: d
    · obtain ⟨rfl, rfl⟩ := List.cons.inj heq
      rw [update_of_ne (by simp)]
      exact hd
    · rw [update_of_ne heq] at h
      have he := fs.parent_dir h
      rw [update_of_ne]
      · exact he
      · rintro rfl
        exact hn he

@[simp] theorem put_node (x : Node α) (hd : fs.node d = some .dir) (hn : fs.node (n :: d) ≠ some .dir)
    (loc : List α) : (fs.put n d x hd hn).node loc = if loc = n :: d then some x else fs.node loc := by
  simp [put, update_apply]

def root : FileTree α where
  node loc := if loc = [] then some .dir else none
  root_dir := rfl
  parent_dir := by simp

/-- Remove the entry `n` of the directory `d`, which is no directory. -/
def remove (fs : FileTree α) (n : α) (d : List α) (hn : fs.node (n :: d) ≠ some .dir) : FileTree α where
  node := update fs.node (n :: d) none
  root_dir := by simpa using fs.root_dir
  parent_dir := by
    intro m e y h
    by_cases heq : m :: e = n :: d
    · simp [heq] at h
    · rw [update_of_ne heq] at h
      have he := fs.parent_dir h
      rw [update_of_ne]
      · exact he
      · rintro rfl
        exact hn he

/-! ### The calls -/

/-- Create an entry that must not exist, a link at the end of the path counting as
existing: `mkdir`, and `open` with `O_CREAT` and `O_EXCL`. Returns the tree after
it and the location of the new entry. -/
def create (links : ℕ) (x : Node α) (fs : FileTree α) : List α → Except Errno (FileTree α × List α)
  | [] => .error .exist
  | n :: parent =>
    match fs.resolveDir links [] (names parent) with
    | .error e => .error e
    | .ok (d, _) =>
      if h : fs.node d = some .dir ∧ fs.node (n :: d) = none then
        .ok (fs.put n d x h.1 (by simp [h.2]), n :: d)
      else .error .exist

def mkdir (links : ℕ) (fs : FileTree α) (p : List α) : Except Errno (FileTree α × List α) :=
  fs.create links .dir p

/-- Write a file, creating it if there is none, a link at the end of the path being
followed: `open` with `O_CREAT` and `O_TRUNC`, and a write. -/
def writeFile (links : ℕ) (content : List UInt8) (fs : FileTree α) (p : List α) :
    Except Errno (FileTree α × List α) :=
  match fs.resolve true links [] (names p) with
  | .error e => .error e
  | .ok ([], _) => .error .isdir
  | .ok (n :: d, _) =>
    if h : fs.node d = some .dir ∧ fs.node (n :: d) ≠ some .dir then
      .ok (fs.put n d (.file content) h.1 h.2, n :: d)
    else .error .isdir

/-- `rename` of a file within one directory: the entry `target` is replaced, whether
it is a file or a link, by the entry `source`. -/
def rename (links : ℕ) (fs : FileTree α) (source target : α) (parent : List α) :
    Except Errno (FileTree α × List (List α)) :=
  match fs.resolveDir links [] (names parent) with
  | .error e => .error e
  | .ok (d, _) =>
    match fs.node (source :: d) with
    | none => .error .noent
    | some x =>
      if h : fs.node d = some .dir ∧ fs.node (target :: d) ≠ some .dir ∧ x ≠ .dir then
        let fs' := fs.put target d x h.1 h.2.1
        if h' : fs'.node (source :: d) ≠ some .dir then
          .ok (fs'.remove source d h', [source :: d, target :: d])
        else .error .isdir
      else .error .isdir

/-- Whether a path leads to a directory. -/
def isDir (links : ℕ) (fs : FileTree α) (p : List α) : Bool := (fs.resolveDir links [] (names p)).isOk

/-- `create_dir_all`: the tree after it, the locations of the directories it has
created, in order, and its result. -/
def createDirAll (links : ℕ) (fs : FileTree α) : List α → FileTree α × List (List α) × Except Errno Unit
  | [] => (fs, [], .ok ())
  | n :: parent =>
    match fs.mkdir links (n :: parent) with
    | .ok (fs', loc) => (fs', [loc], .ok ())
    | .error .noent =>
      match fs.createDirAll links parent with
      | (fs', created, .error e) => (fs', created, .error e)
      | (fs', created, .ok ()) =>
        match fs'.mkdir links (n :: parent) with
        | .ok (fs'', loc) => (fs'', created ++ [loc], .ok ())
        | .error e => (fs', created, if fs'.isDir links (n :: parent) then .ok () else .error e)
    | .error e => (fs, [], if fs.isDir links (n :: parent) then .ok () else .error e)

/-! ### What the calls say -/

theorem create_ok {x : Node α} (h : fs.create links x p = .ok (fs', loc)) :
    ∃ n parent d k, p = n :: parent ∧ fs.resolveDir links [] (names parent) = .ok (d, k) ∧
      fs.node (n :: d) = none ∧ loc = n :: d ∧
      ∀ l, fs'.node l = if l = n :: d then some x else fs.node l := by
  cases p with
  | nil => simp [create] at h
  | cons n parent =>
    simp only [create] at h
    cases hr : fs.resolveDir links [] (names parent) with
    | error => simp [hr] at h
    | ok r =>
      obtain ⟨d, k⟩ := r
      simp only [hr] at h
      split_ifs at h with hn
      obtain ⟨rfl, rfl⟩ := Prod.mk.inj (ok.inj h)
      exact ⟨n, parent, d, k, rfl, hr, hn.2, rfl, fun l => put_node _ _ _ l⟩

theorem create_le {x : Node α} (h : fs.create links x p = .ok (fs', loc)) : fs.Le fs' := by
  obtain ⟨n, parent, d, k, -, -, hnn, -, hn⟩ := create_ok h
  intro l y hl
  have hne : l ≠ n :: d := by rintro rfl; simp [hl] at hnn
  simp [hn, hne, hl]

theorem mkdir_noent :
    fs.mkdir links (n :: parent) = .error .noent ↔ fs.resolveDir links [] (names parent) = .error .noent := by
  simp only [mkdir, create]
  cases hr : fs.resolveDir links [] (names parent) with
  | error => simp
  | ok =>
    simp only [reduceCtorEq, iff_false]
    split_ifs <;> simp

theorem writeFile_ok {c : List UInt8} (h : fs.writeFile links c p = .ok (fs', loc)) :
    ∃ k, fs.resolve true links [] (names p) = .ok (loc, k) := by
  unfold writeFile at h
  split at h
  next => simp at h
  next => simp at h
  next n d k hr =>
    split_ifs at h
    obtain ⟨-, rfl⟩ := Prod.mk.inj (ok.inj h)
    exact ⟨k, hr⟩

/-- A file whose path resolves and that does not exist is created there. -/
theorem writeFile_missing {k : ℕ} (c : List UInt8)
    (hr : fs.resolve true links [] (names p) = .ok (loc, k)) (hn : fs.node loc = none) :
    ∃ fs', fs.writeFile links c p = .ok (fs', loc) := by
  have ht := resolve_tail_dir fs.root_dir hr
  cases loc with
  | nil => simp [fs.root_dir] at hn
  | cons n d =>
    have h : fs.node d = some .dir ∧ fs.node (n :: d) ≠ some .dir := ⟨ht, by simp [hn]⟩
    exact ⟨fs.put n d (.file c) h.1 h.2, by simp [writeFile, hr, h.1, h.2]⟩

theorem rename_ok {s t : α} {ls : List (List α)} (h : fs.rename links s t parent = .ok (fs', ls)) :
    ∃ d k, fs.resolveDir links [] (names parent) = .ok (d, k) ∧ ls = [s :: d, t :: d] := by
  unfold rename at h
  cases hr : fs.resolveDir links [] (names parent) with
  | error => simp [hr] at h
  | ok r =>
    obtain ⟨d, k⟩ := r
    simp only [hr] at h
    split at h
    next => simp at h
    next x _ =>
      split_ifs at h
      obtain ⟨-, rfl⟩ := Prod.mk.inj (ok.inj h)
      exact ⟨d, k, rfl, rfl⟩

/-- `Creates links fs p fs' created res`: the ways `createDirAll` can go from the tree
`fs` on the path `p`. -/
inductive Creates (links : ℕ) (fs : FileTree α) :
    List α → FileTree α → List (List α) → Except Errno Unit → Prop where
  /-- The root exists. -/
  | root : Creates links fs [] fs [] (.ok ())
  /-- Only the last entry was missing. -/
  | made {n : α} {parent loc : List α} {fs' : FileTree α} :
      fs.mkdir links (n :: parent) = .ok (fs', loc) → Creates links fs (n :: parent) fs' [loc] (.ok ())
  /-- The parent was missing and could not be created. -/
  | parentFailed {n : α} {parent : List α} {fs' : FileTree α} {created : List (List α)} {e : Errno} :
      fs.mkdir links (n :: parent) = .error .noent → Creates links fs parent fs' created (.error e) →
      Creates links fs (n :: parent) fs' created (.error e)
  /-- The parent was missing and has been created. -/
  | parentMade {n : α} {parent loc : List α} {fs' fs'' : FileTree α} {created : List (List α)} :
      fs.mkdir links (n :: parent) = .error .noent → Creates links fs parent fs' created (.ok ()) →
      fs'.mkdir links (n :: parent) = .ok (fs'', loc) →
      Creates links fs (n :: parent) fs'' (created ++ [loc]) (.ok ())
  /-- The second attempt failed. -/
  | parentMadeFailed {n : α} {parent : List α} {fs' : FileTree α} {created : List (List α)} {e : Errno} :
      fs.mkdir links (n :: parent) = .error .noent → Creates links fs parent fs' created (.ok ()) →
      fs'.mkdir links (n :: parent) = .error e →
      Creates links fs (n :: parent) fs' created (if fs'.isDir links (n :: parent) then .ok () else .error e)
  /-- The first attempt failed for another reason than a missing parent. -/
  | failed {n : α} {parent : List α} {e : Errno} : e ≠ .noent → fs.mkdir links (n :: parent) = .error e →
      Creates links fs (n :: parent) fs [] (if fs.isDir links (n :: parent) then .ok () else .error e)

theorem creates_createDirAll (links : ℕ) (fs : FileTree α) (p : List α) :
    Creates links fs p (fs.createDirAll links p).1 (fs.createDirAll links p).2.1 (fs.createDirAll links p).2.2 := by
  induction p with
  | nil => exact .root
  | cons n parent ih =>
    simp only [createDirAll]
    rcases hmk : fs.mkdir links (n :: parent) with e | ⟨fs', loc⟩
    · by_cases he : e = .noent
      · subst he
        rcases hr : fs.createDirAll links parent with ⟨fs', created, e | u⟩
        · rw [hr] at ih
          exact .parentFailed hmk ih
        · rw [hr] at ih
          rcases hmk' : fs'.mkdir links (n :: parent) with e | ⟨fs'', loc⟩
          · simpa [hmk'] using Creates.parentMadeFailed hmk ih hmk'
          · simpa [hmk'] using Creates.parentMade hmk ih hmk'
      · have hf := Creates.failed he hmk
        cases e <;> first | exact absurd rfl he | exact hf
    · exact .made hmk

/-! ### Missing entries -/

/-- `loc` is the location of an entry of the path `p` that is missing, in a directory
that exists. -/
def Missing (links : ℕ) (fs : FileTree α) (p loc : List α) : Prop :=
  ∃ s n parent d k, p = s ++ n :: parent ∧ fs.resolveDir links [] (names parent) = .ok (d, k) ∧
    fs.node (n :: d) = none ∧ loc = n :: d

section

omit [DecidableEq α]

theorem Missing.cons (h : Missing links fs p loc) (m : α) : Missing links fs (m :: p) loc := by
  obtain ⟨s, n, parent, d, k, rfl, hr, hn, rfl⟩ := h
  exact ⟨m :: s, n, parent, d, k, rfl, hr, hn, rfl⟩

/-- Nothing exists below what does not exist. -/
theorem node_none_of_suffix {b : List α} (h : fs.node loc = none) (hs : loc <:+ b) : fs.node b = none := by
  obtain ⟨s, rfl⟩ := hs
  induction s with
  | nil => exact h
  | cons m s ih =>
    cases hn : fs.node (m :: (s ++ loc)) with
    | none => exact hn
    | some => exact absurd (fs.parent_dir hn) (by simp [ih])

theorem resolveDir_names_cons : fs.resolveDir links [] (names (n :: p)) =
      fs.asDir ((fs.resolveDir links [] (names p)).bind fun r => fs.resolve true r.2 r.1 [.name n]) := by
  rw [resolveDir, resolve_names_cons]

/-- Beyond a missing entry there is nothing to resolve. -/
theorem resolveDir_noent_of_missing {k : ℕ}
    (hr : fs.resolveDir links [] (names parent) = .ok (d, k)) (hn : fs.node (n :: d) = none) (s : List α) :
    fs.resolveDir links [] (names (s ++ n :: parent)) = .error .noent := by
  induction s with
  | nil =>
    rw [nil_append, resolveDir_names_cons, hr]
    simp [Except.bind, resolve_none hn, asDir, hn]
  | cons m s ih => rw [cons_append, resolveDir_names_cons, ih]; rfl

end

/-! ### What `createDirAll` creates -/

/-- **A missing entry of the path is created.** -/
theorem missing_mem_created (h : Missing links fs p loc) : loc ∈ (fs.createDirAll links p).2.1 := by
  obtain ⟨s, n, parent, d, k, rfl, hr, hn, rfl⟩ := h
  induction s with
  | nil =>
    have hd := (resolveDir_ok.mp hr).2
    simp [createDirAll, mkdir, create, hr, hn, hd]
  | cons m s ih =>
    rw [cons_append, createDirAll, mkdir_noent.mpr (resolveDir_noent_of_missing hr hn s)]
    rcases hrc : fs.createDirAll links (s ++ n :: parent) with ⟨fs', created, e | u⟩
    · simpa [hrc] using ih
    · simp only [hrc] at ih ⊢
      rcases fs'.mkdir links (m :: (s ++ n :: parent)) with e | ⟨fs'', loc⟩
      · exact ih
      · exact mem_append_left _ ih

theorem Creates.adds (h : Creates links fs p fs' created res) (l : List α) :
    fs'.node l = fs.node l ∨ fs.node l = none ∧ fs'.node l = some .dir := by
  have hp {fs₁ fs₂ : FileTree α} {p loc : List α} (hmk : fs₁.mkdir links p = .ok (fs₂, loc)) :
      fs₂.node l = fs₁.node l ∨ fs₁.node l = none ∧ fs₂.node l = some .dir := by
    obtain ⟨n, parent, d, k, -, -, hnn, -, hn⟩ := create_ok hmk
    by_cases hl : l = n :: d
    · exact .inr ⟨hl ▸ hnn, by simp [hn, hl]⟩
    · exact .inl (by simp [hn, hl])
  induction h with
  | root | failed => exact .inl rfl
  | made hmk => exact hp hmk
  | parentFailed _ _ ih | parentMadeFailed _ _ _ ih => exact ih
  | parentMade _ _ hmk ih => rcases hp hmk with h | h <;> rcases ih with h' | h' <;> simp_all

/-- A new directory is where the path leads afterwards. -/
theorem resolveDir_mkdir (hmk : fs.mkdir links p = .ok (fs', loc))
    (hr : fs'.resolveDir links [] (names p) = .ok r) : r.1 = loc := by
  obtain ⟨n, parent, d, k, rfl, hrs, hnn, rfl, hn⟩ := create_ok hmk
  rw [resolveDir_names_cons, resolveDir_mono (create_le hmk) hrs] at hr
  have hd : fs'.node (n :: d) = some .dir := by simp [hn]
  simp [Except.bind, resolve_dir hd, asDir, hd] at hr
  rw [← hr]

omit [DecidableEq α] in
theorem Missing.node_eq_none (h : Missing links fs p loc) : fs.node loc = none := by
  obtain ⟨s, n, parent, d, k, -, -, hn, rfl⟩ := h
  exact hn

/-- If the parent leads below a missing entry, so does the path. -/
theorem Creates.exists_missing_cons (h : Creates links fs parent fs' created res)
    (hp : ∀ r, fs'.resolveDir links [] (names parent) = .ok r → ∃ m, Missing links fs parent m ∧ m <:+ r.1)
    (hr : fs'.resolveDir links [] (names (n :: parent)) = .ok r) :
    ∃ m, Missing links fs (n :: parent) m ∧ m <:+ r.1 := by
  rw [resolveDir_names_cons] at hr
  cases hrs : fs'.resolveDir links [] (names parent) with
  | error => simp [hrs, Except.bind, asDir] at hr
  | ok d =>
    obtain ⟨m, hm, hs⟩ := hp d hrs
    simp only [hrs, Except.bind] at hr
    have hb : fs.node (n :: d.1) = none :=
      node_none_of_suffix hm.node_eq_none (hs.trans (suffix_cons n d.1))
    refine ⟨m, hm.cons n, ?_⟩
    rcases h.adds (n :: d.1) with heq | ⟨-, hd⟩
    · rw [hb] at heq
      simp [resolve_none heq, asDir, heq] at hr
    · simp [resolve_dir hd, asDir, hd] at hr
      exact hr ▸ hs.trans (suffix_cons n d.1)

/-- Where a path that did not resolve leads after it has been created: below one of
its missing entries. -/
theorem Creates.exists_missing
    (h : Creates links fs p fs' created res) (hno : fs.resolveDir links [] (names p) = .error .noent)
    (hr : fs'.resolveDir links [] (names p) = .ok r) : ∃ m, Missing links fs p m ∧ m <:+ r.1 := by
  induction h generalizing r with
  | root | failed => simp [hno] at hr
  | made hmk =>
    obtain ⟨n, parent, d, k, heq, hrs, hn, rfl, -⟩ := create_ok hmk
    exact ⟨n :: d, ⟨[], n, parent, d, k, by simpa using heq, hrs, hn, rfl⟩,
      (resolveDir_mkdir hmk hr) ▸ suffix_refl _⟩
  | parentFailed hmk hrc ih | parentMadeFailed hmk hrc _ ih =>
    exact hrc.exists_missing_cons (fun _ => ih (mkdir_noent.mp hmk)) hr
  | parentMade hmk hrc hmk' ih =>
    have hl := resolveDir_mkdir hmk' hr
    obtain ⟨n, parent, d, k, heq, hrs, -, rfl, -⟩ := create_ok hmk'
    obtain ⟨rfl, rfl⟩ := cons.inj heq
    obtain ⟨m, hm, hs⟩ := ih (mkdir_noent.mp hmk) hrs
    exact ⟨m, hm.cons _, hl ▸ hs.trans (suffix_cons _ d)⟩

/-- **What is created lies at or below a missing entry of the path.** -/
theorem Creates.exists_missing_of_created (h : Creates links fs p fs' created res) (hl : loc ∈ created) :
    ∃ m, Missing links fs p m ∧ m <:+ loc := by
  induction h with
  | root | failed => simp at hl
  | made hmk =>
    obtain ⟨n, parent, d, k, heq, hr, hn, rfl, -⟩ := create_ok hmk
    obtain rfl := mem_singleton.mp hl
    exact ⟨n :: d, ⟨[], n, parent, d, k, by simpa using heq, hr, hn, rfl⟩, suffix_refl _⟩
  | parentFailed _ _ ih | parentMadeFailed _ _ _ ih =>
    obtain ⟨m, hm, hs⟩ := ih hl
    exact ⟨m, hm.cons _, hs⟩
  | parentMade hmk hrc hmk' ih =>
    rcases mem_append.mp hl with hl | hl
    · obtain ⟨m, hm, hs⟩ := ih hl
      exact ⟨m, hm.cons _, hs⟩
    · -- The last directory lies in the one just created.
      obtain ⟨n, parent, d, k, heq, hr, -, rfl, -⟩ := create_ok hmk'
      obtain ⟨rfl, rfl⟩ := cons.inj heq
      obtain rfl := mem_singleton.mp hl
      obtain ⟨m, hm, hs⟩ := hrc.exists_missing (mkdir_noent.mp hmk) hr
      exact ⟨m, hm.cons _, hs.trans (suffix_cons _ d)⟩

end FileTree

end XiaoO.Base
