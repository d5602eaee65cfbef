import XiaoO.Tool.FileRead

/-!
# When a file is said to be unchanged

`FileUnchanged` sends the model back to what it was shown before, so the same request has to give
the same content again. With calls and changes in any interleaving that is meant of a content that
the file had while the call was running; if nothing changes the file meanwhile, it is the current
one.

## What is proved

It is so if the times that are reported tell the contents of a path apart, that is if every new
content comes with a time in a millisecond that the path has not had
(`unchanged_is_truthful_of_run`). A call remembers the time that was reported *before* it read the
bytes; if that time is reported again, then nothing has changed since, and the bytes that were read
are among those of the time between (`Since.unique`).

It is not so in general (`unchanged_after_change`): a backend that reports no time says 0 for every
content, and two contents may be written in the same millisecond.
-/

namespace XiaoO.Tool.Read

open XiaoO.Base List Threads

variable {ι : Type*} {reader : Reader}

/-! ### Truthful answers -/

/-- The content that an answer returned, if it is one to this request. -/
def Event.content? (path : String) (offset limit : Option UInt64) : Event → Option FileReadOutput
  | .returned path' input output =>
    if path' = path ∧ input.offset = offset ∧ input.limit = limit then some output else none
  | _ => none

/-- The content that was returned last for a request. -/
def previous? (path : String) (offset limit : Option UInt64) (log : List Event) : Option FileReadOutput :=
  log.findSome? (Event.content? path offset limit)

/-- **Truthful**: what is called unchanged is what the same request returned last, and what it would
return from the current bytes, or from those that the file had before in the course of the call. -/
def Truthful (reader : Reader) (earlier : List Event) : Event → Prop
  | .unchanged path input _ current meanwhile =>
    ∃ output ∈ previous? path input.offset input.limit earlier,
      ∃ bytes ∈ current :: meanwhile, Read.content? reader path input.offset input.limit bytes = some output
  | _ => True

instance (earlier : List Event) (event : Event) : Decidable (Truthful reader earlier event) := by
  cases event <;> (delta Truthful; infer_instance)

/-- Both times are reported, after the epoch, and they are in different milliseconds. -/
def MillisecondsApart (old new : Option ℤ) : Prop :=
  ∃ a ∈ old, ∃ b ∈ new, (0 ≤ a ∧ a / 1000000 < 2 ^ 63) ∧ (0 ≤ b ∧ b / 1000000 < 2 ^ 63) ∧ a / 1000000 ≠ b / 1000000
  deriving Decidable

/-- Every new content is reported with a time in a millisecond that none of the path's contents so
far was reported with. -/
def TellsApart (w : World ι) : ι × Act → Prop
  | (_, .change path (some entry)) =>
      ∀ old ∈ w.shared.history path, MillisecondsApart old.modifiedAt entry.modifiedAt
  | _ => True

instance : DecidableRel (TellsApart : World ι → ι × Act → Prop) := fun w label => by
  obtain ⟨i, act⟩ := label
  rcases act with ⟨path, _ | entry⟩ | _ | _ | _ | _ <;> (delta TellsApart; infer_instance)

/-! ### The contents since a time was reported -/

/-- `during` is the part of a history since a content that was reported with this timestamp, that
content included. -/
def Since (history : List Entry) (mtime : ℤ) (during : List Entry) : Prop :=
  ∃ newer e older, during = newer ++ [e] ∧ history = newer ++ e :: older ∧ systemTimeToTimestamp e.modifiedAt = mtime

/-- The timestamps of a history are different. -/
def Distinct (history : List Entry) : Prop :=
  history.Pairwise fun a b => systemTimeToTimestamp a.modifiedAt ≠ systemTimeToTimestamp b.modifiedAt

theorem systemTimeToTimestamp_of_nonneg {t : ℤ} (h : 0 ≤ t ∧ t / 1000000 < 2 ^ 63) :
    systemTimeToTimestamp (some t) = t / 1000000 := by
  rw [systemTimeToTimestamp, if_pos h.1]
  exact Int.bmod_eq_of_le (by omega) (by omega)

theorem MillisecondsApart.ne {old n : Option ℤ} (h : MillisecondsApart old n) :
    systemTimeToTimestamp n ≠ systemTimeToTimestamp old := by
  obtain ⟨a, rfl, b, rfl, ha, hb, hne⟩ := h
  rw [systemTimeToTimestamp_of_nonneg ha, systemTimeToTimestamp_of_nonneg hb]
  exact hne.symm

variable {during history : List Entry} {mtime : ℤ} {path path' : String} {s : State} {state : FileReadState}
  {w : World ι} {c : Call}

theorem Since.cons (h : Since history mtime during) (en : Entry) : Since (en :: history) mtime (en :: during) := by
  obtain ⟨n, e, o, rfl, rfl, ht⟩ := h
  exact ⟨en :: n, e, o, rfl, rfl, ht⟩

theorem since_head (e : Entry) (o : List Entry) : Since (e :: o) (systemTimeToTimestamp e.modifiedAt) [e] :=
  ⟨[], e, o, rfl, rfl, rfl⟩

theorem Since.take_length (h : Since history mtime during) : history.take during.length = during := by
  obtain ⟨n, e, o, rfl, rfl, -⟩ := h
  rw [append_cons n e o, take_left]

/-- A timestamp was reported once. -/
theorem Since.unique {during' : List Entry} (hd : Distinct history)
    (h : Since history mtime during) (h' : Since history mtime during') : during = during' := by
  obtain ⟨newer, e, older, rfl, rfl, ht⟩ := h
  obtain ⟨n', e', o', rfl, heq, ht'⟩ := h'
  obtain ⟨-, htl, ha⟩ := pairwise_append.mp hd
  have hn : e' ∉ newer := fun hm => ha e' hm e mem_cons_self (ht'.trans ht.symm)
  have holder : e' ∉ older := fun hm => rel_of_pairwise_cons htl hm (ht.trans ht'.symm)
  obtain ⟨rfl, rfl, -⟩ := (append_cons_inj_of_notMem hn holder).mp heq
  rfl

/-! ### The invariant -/

/-- What is known of the time that a call carries, and of the bytes that it has read. -/
def Call.Since (history : String → List Entry) : Call → Prop
  | .checking _ path mtime since =>
    ∃ during, Read.Since (history path) mtime during ∧ (history path).length + 1 = since + during.length
  | .reading _ path mtime => ∃ during, Read.Since (history path) mtime during
  | .processing _ path mtime bytes => ∃ during, Read.Since (history path) mtime during ∧
      bytes ∈ during.map Entry.bytes
  | _ => True

/-- What is known of a remembered read: it is the last one of its request, and its bytes are from
the time since its timestamp was reported. -/
structure Stored (reader : Reader) (s : State) (path : String) (state : FileReadState) : Prop where
  dedup : dedupApplies (getExtension path) = true
  content : ∃ output, previous? path state.offset state.limit s.log = some output ∧
    ∃ during, Since (s.history path) state.timestamp during ∧
      ∃ bytes ∈ during.map Entry.bytes, content? reader path state.offset state.limit bytes = some output

structure Remembers (reader : Reader) (w : World ι) : Prop where
  distinct : ∀ path, Distinct (w.shared.history path)
  current : ∀ {path entry}, w.shared.files path = some entry → ∃ older, w.shared.history path = entry :: older
  calls : ∀ i, (w.thread i).Since w.shared.history
  stored : ∀ {path state}, w.shared.store.get? path = some state → Stored reader w.shared path state
  backed : Backed (Truthful reader) w.shared.log

theorem remembers_start (fs : String → Option Entry) : Remembers reader (start fs : World ι) where
  distinct path := by
    show (fs path).toList.Pairwise _
    cases fs path with
    | none => exact List.Pairwise.nil
    | some e => exact pairwise_singleton _ e
  current {path e} he := by
    refine ⟨[], ?_⟩
    show (fs path).toList = [e]
    rw [show fs path = some e from he]
    rfl
  calls _ := trivial
  stored hs := by cases hs
  backed := trivial

/-! ### Answers -/

/-- An answer without content leaves the content that was returned last. -/
theorem Stored.answer (h : Stored reader s path state) {e : Event}
    (he : e.content? path state.offset state.limit = none) : Stored reader (s.answer e) path state := by
  obtain ⟨hd, o, hp, hr⟩ := h
  refine ⟨hd, o, ?_, hr⟩
  rw [previous?, State.answer, findSome?_cons, he]
  exact hp

/-- **The answer is truthful**: a read that is remembered with the time that is reported now is one
of bytes that the file has had since that time was reported. -/
theorem Remembers.truthful (h : Remembers reader w) {i : FileReadInput}
    {sn : ℕ} {o : FileReadOutput} (hcl : (Call.checking i path mtime sn).Since w.shared.history)
    (hu : w.shared.store.isFileUnchanged path mtime i.offset i.limit i.isPartialView = true) :
    Truthful reader w.shared.log (.unchanged path i o ((w.shared.contentsSince path sn).headD [])
      (w.shared.contentsSince path sn).tail) := by
  obtain ⟨during, hs, hln⟩ := hcl
  rw [DedupStateStore.isFileUnchanged] at hu
  split at hu
  · next state hst =>
    simp only [Bool.and_eq_true, decide_eq_true_eq] at hu
    obtain ⟨⟨⟨rfl, ho⟩, hl⟩, -⟩ := hu
    obtain ⟨-, o', hp, d', hs', bs, hm, hcn⟩ := h.stored hst
    rw [ho, hl] at hp hcn
    refine ⟨o', hp, bs, ?_, hcn⟩
    have hd : w.shared.contentsSince path sn = during.map Entry.bytes := by
      rw [State.contentsSince, show (w.shared.history path).length + 1 - sn = during.length by omega, hs.take_length]
    rw [hs'.unique (h.distinct path) hs, ← hd] at hm
    cases hc : w.shared.contentsSince path sn with rw [hc] at hm
    | nil => cases hm
    | cons => exact hm
  · cases hu

theorem Remembers.remember (h : Remembers reader w) {i : FileReadInput}
    {bs : List UInt8} {o : FileReadOutput} (hd : dedupApplies (getExtension path) = true)
    (hcl : (Call.processing i path mtime bs).Since w.shared.history)
    (ho : content? reader path i.offset i.limit bs = some o)
    (hs : (remember w.shared.store path i mtime).get? path' = some state) :
    Stored reader { w.shared.answer (.returned path i o) with store := Read.remember w.shared.store path i mtime }
      path' state := by
  rw [Read.remember, SortedMap.get?_insert] at hs
  split_ifs at hs with hp
  · obtain rfl := hp
    cases hs
    obtain ⟨during, hsn, hm⟩ := hcl
    refine ⟨hd, o, ?_, during, hsn, bs, hm, ho⟩
    simp [previous?, State.answer, Event.content?]
  · have he : (Event.returned path i o).content? path' state.offset state.limit = none :=
      if_neg fun hsm => hp hsm.1.symm
    obtain ⟨hd', hc⟩ := (h.stored hs).answer he
    exact ⟨hd', hc⟩

/-! ### Changes of files -/

/-- A path has the history that it had, or one entry more. -/
theorem change_history (s : State) (path : String) (en : Option Entry) (path' : String) :
    (s.change path en).history path' = s.history path' ∨
      ∃ e, en = some e ∧ path' = path ∧ (s.change path en).history path' = e :: s.history path' := by
  rw [State.change]
  rcases eq_or_ne path' path with rfl | hne
  · cases en with
    | none => exact .inl (by simp)
    | some e => exact .inr ⟨e, rfl, rfl, by simp⟩
  · exact .inl (by simp [hne])

/-- What has been reported stays reported, and nothing is lost of the contents since. -/
theorem Since.change (h : Since (s.history path') mtime during) (path : String) (en : Option Entry) :
    ∃ d', Since ((s.change path en).history path') mtime d' ∧ during ⊆ d' ∧
      ((s.change path en).history path').length + during.length = (s.history path').length + d'.length := by
  rcases change_history s path en path' with heq | ⟨e, -, -, heq⟩
  · rw [heq]
    exact ⟨during, h, List.Subset.refl _, rfl⟩
  · rw [heq]
    exact ⟨e :: during, h.cons e, subset_cons_self e during, by simp only [length_cons]; omega⟩

theorem Call.Since.change (h : c.Since s.history) (path : String) (e : Option Entry) :
    c.Since (s.change path e).history := by
  cases c with
  | idle | statting => trivial
  | checking =>
    obtain ⟨during, hs, hl⟩ := h
    obtain ⟨d', hs', -, hl'⟩ := hs.change path e
    exact ⟨d', hs', by omega⟩
  | reading =>
    obtain ⟨during, hs⟩ := h
    obtain ⟨d', hs', -⟩ := hs.change path e
    exact ⟨d', hs'⟩
  | processing =>
    obtain ⟨during, hs, hm⟩ := h
    obtain ⟨d', hs', hsb, -⟩ := hs.change path e
    exact ⟨d', hs', map_subset _ hsb hm⟩

theorem Stored.change (h : Stored reader s path' state)
    (path : String) (e : Option Entry) : Stored reader (s.change path e) path' state := by
  obtain ⟨hd, o, hp, during, hsn, bs, hm, hc⟩ := h
  obtain ⟨d', hs', hs, -⟩ := hsn.change path e
  exact ⟨hd, o, hp, d', hs', bs, map_subset _ hs hm, hc⟩

variable [DecidableEq ι]

section

variable (h : Remembers reader w)
include h

theorem Remembers.change (i : ι) {en : Option Entry} (hn : TellsApart w (i, .change path en)) :
    Remembers reader (w.put i (w.shared.change path en) (w.thread i)) where
  distinct path' := by
    rcases change_history w.shared path en path' with heq | ⟨e, rfl, rfl, heq⟩
    · rw [put_shared, heq]
      exact h.distinct path'
    · rw [put_shared, heq]
      exact pairwise_cons.mpr ⟨fun o ho => (hn o ho).ne, h.distinct path'⟩
  current {path' entry'} he := by
    rw [put_shared, State.change] at he ⊢
    rcases eq_or_ne path' path with rfl | hne
    · obtain rfl : en = some entry' := by simpa using he
      exact ⟨w.shared.history path', by simp⟩
    · simpa [hne] using h.current (by simpa [hne] using he)
  calls := forall_put (P := fun _ (c : Call) => c.Since _) ((h.calls i).change path en) fun k _ =>
    (h.calls k).change path en
  stored hs := (h.stored hs).change path en
  backed := h.backed

/-! ### Runs -/

/-- A step of a call leaves the files and their histories. -/
theorem Remembers.put (i : ι)
    (hf : s.files = w.shared.files) (hh : s.history = w.shared.history) (hc : c.Since w.shared.history)
    (hs : ∀ {path state}, s.store.get? path = some state → Stored reader s path state)
    (hb : Backed (Truthful reader) s.log) : Remembers reader (w.put i s c) where
  distinct path := by
    rw [put_shared, hh]
    exact h.distinct path
  current he := by
    rw [put_shared] at he ⊢
    rw [hh]
    exact h.current (hf ▸ he)
  calls := by
    rw [put_shared, hh]
    exact forall_put (P := fun _ (c : Call) => c.Since _) hc fun k _ => h.calls k
  stored := hs
  backed := hb

theorem Remembers.move (i : ι) (hc : c.Since w.shared.history) : Remembers reader (w.put i w.shared c) :=
  h.put i rfl rfl hc h.stored h.backed

theorem Remembers.step {w' : World ι} {l : ι × Act} (hn : TellsApart w l)
    (hst : step (exec reader) w l = some w') : Remembers reader w' := by
  obtain ⟨i, a⟩ := l
  obtain ⟨s, c, ha, rfl⟩ := step_eq_some.mp hst
  have hc := h.calls i
  generalize ht : w.thread i = thread at ha hc
  cases exec_effect ha with
  | changed =>
    rw [← ht]
    exact h.change i hn
  | requested | panicked => exact h.move i trivial
  | failed =>
    exact h.put i rfl rfl trivial (fun hs => (h.stored hs).answer rfl) ⟨trivial, h.backed⟩
  | statted he =>
    obtain ⟨o, hh⟩ := h.current he
    refine h.move i ⟨_, hh ▸ since_head _ o, ?_⟩
    rfl
  | unchanged hu =>
    exact h.put i rfl rfl trivial (fun hs => (h.stored hs).answer rfl) ⟨h.truthful hc hu, h.backed⟩
  | missed =>
    obtain ⟨during, hsn, -⟩ := hc
    exact h.move i ⟨during, hsn⟩
  | read he =>
    obtain ⟨during, n, e, o, rfl, hh, htm⟩ := hc
    obtain ⟨o', hcr⟩ := h.current he
    refine h.move i ⟨_, ⟨n, e, o, rfl, hh, htm⟩, mem_map_of_mem ?_⟩
    -- the file has the last content of the history, which is not older than `e`
    cases n with
    | nil | cons =>
      rw [cons.inj (hcr.symm.trans hh) |>.1]
      exact mem_cons_self
  | returned hd ho =>
    exact h.put i rfl rfl trivial (h.remember hd hc ho) ⟨trivial, h.backed⟩
  | media j hd =>
    refine h.put i rfl rfl trivial (fun {path' state} hs => ?_) ⟨trivial, h.backed⟩
    refine (h.stored hs).answer (if_neg fun hsm => ?_)
    rw [hsm.1, (h.stored hs).dedup] at hd
    cases hd

end

/-- **Unchanged files**: whatever calls of `file_read` run, whatever changes the files, and in
whatever order, if every new content of a path is reported with a time in another millisecond than
all before it then every `FileUnchanged` is truthful. -/
theorem unchanged_is_truthful_of_run {files : String → Option Entry} {w : World ι}
    (hrun : RunUnder (Threads.step (exec reader)) TellsApart (start files) w) :
    Backed (Truthful reader) w.shared.log := by
  have hr : Remembers reader w :=
    hrun.invariant (I := Remembers reader) (remembers_start files) fun h hn hs => h.step hn hs
  exact hr.backed

/-- A reader that accepts every request, whose tokens are characters. -/
def plainReader : Reader where
  validate _ _ := .ok ()
  estimateTokens _ content := content.toList.length
  windowLines maxTokens estimatedTokens lines := lines * maxTokens * 9 / (estimatedTokens * 10)
  notebookCells _ := .ok []

def wholeFile (path : String) : FileReadInput := { filePath := path, offset := none, limit := none, pages := none }

/-- The steps of a call that reads the file, one after the other. -/
def readAll (path : String) : List (Unit × Act) :=
  [((), .request (wholeFile path) (.ok path)), ((), .proceed), ((), .proceed), ((), .proceed), ((), .proceed)]

/-- The steps of a call up to the answer that the file is unchanged. -/
def readAgain (path : String) : List (Unit × Act) :=
  [((), .request (wholeFile path) (.ok path)), ((), .proceed), ((), .proceed)]

def oneFile (path : String) (entry : Entry) : String → Option Entry :=
    Function.update (fun _ => none) path (some entry)

theorem unchanged_is_truthful_of_run_reread : ∃ w : World Unit, RunUnder (Threads.step (exec plainReader)) TellsApart
        (start (oneFile "/a.txt" { bytes := [0x61], modifiedAt := some 1000000 })) w ∧
      (∃ event ∈ w.shared.log, event.content? "/a.txt" none none = none) ∧
        Backed (Truthful plainReader) w.shared.log :=
  (exists_run_of_exec _ _ _ _ (readAll "/a.txt" ++ readAgain "/a.txt" ++
      [((), .change "/a.txt" (some { bytes := [0x62], modifiedAt := some 2000000 }))] ++ readAll
        "/a.txt") (by decide)).imp
    fun w ⟨hr, he⟩ => ⟨hr, he, unchanged_is_truthful_of_run hr⟩

/-- A time that is reported is different from all that were reported for the path. -/
def ReportedAnew (w : World ι) : ι × Act → Prop
  | (_, .change path (some entry)) =>
    entry.modifiedAt.isSome → ∀ old ∈ w.shared.history path, old.modifiedAt ≠ entry.modifiedAt
  | _ => True

instance : DecidableRel (ReportedAnew : World ι → ι × Act → Prop) := fun w label => by
  obtain ⟨i, act⟩ := label
  rcases act with ⟨path, _ | entry⟩ | _ | _ | _ | _ <;> (delta ReportedAnew; infer_instance)

/-- **Unchanged, after a change**: a file is read, changes, and is then called unchanged, where no
time is reported, and where the times that are reported are different but in the same
millisecond. -/
theorem unchanged_after_change : (∃ w : World Unit, RunUnder (Threads.step (exec plainReader)) ReportedAnew
        (start (oneFile "/a.txt" { bytes := [0x61], modifiedAt := none })) w ∧
      ¬Backed (Truthful plainReader) w.shared.log) ∧
    ∃ w : World Unit, RunUnder (Threads.step (exec plainReader)) ReportedAnew
        (start (oneFile "/a.txt" { bytes := [0x61], modifiedAt := some 1000000 })) w ∧
      ¬Backed (Truthful plainReader) w.shared.log := by
  constructor
  · exact exists_run_of_exec _ _ _ _ (readAll "/a.txt" ++
      [((), .change "/a.txt" (some { bytes := [0x62], modifiedAt := none }))] ++ readAgain "/a.txt") (by decide)
  · exact exists_run_of_exec _ _ _ _ (readAll "/a.txt" ++
      [((), .change "/a.txt" (some { bytes := [0x62], modifiedAt := some 1000001 }))] ++ readAgain
        "/a.txt") (by decide)

end XiaoO.Tool.Read
