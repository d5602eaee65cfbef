import XiaoO.SessionDiff.Tracker

/-!
# The totals of the client

The client's tracker receives the deltas of the daemon's, and should end with the same totals. The
two do not apply a delta in the same way: the daemon sets the totals of the file, as its delta is
taken from the start of the session, and the client adds to them.

## What is proved

The totals agree as long as each file is changed by one call whose content was captured, and no call
comes up again after its delta was forwarded, except for a repeated completion in the same turn
(`totals_agree_of_run`). A second edit of a file, an edit that undoes the first, and an error
reported for a call that had completed are each enough for them to differ
(`second_edit_counts_twice`).
-/

namespace XiaoO.SessionDiff

open XiaoO.Base SessionDiffTracker SortedMap Option

/-- **The totals agree**: the client's tracker has the totals of the daemon's. -/
def TotalsAgree (workspace : String) (d : Daemon) : Prop :=
  (remote workspace d.forwarded).sessionFileChanges = d.tracker.sessionFileChanges
  deriving Decidable

/-- Nothing was forwarded for a call yet. -/
def Daemon.Unforwarded (d : Daemon) (callId : String) : Prop := callId ∉ d.forwarded.map Prod.fst
  deriving Decidable

/-- What a step asks of the result of a call: it repeats a completion of the turn, or nothing was
forwarded for the call before and, if the call had its file captured, there are no totals yet for
that file nor for the one in the arguments. -/
def OneCallPerFile (d : Daemon) (label : Disk × DaemonEvent) : Prop :=
  match label.2 with
  | .toolResult callId _ args isError =>
    (isError = false ∧ d.tracker.toolFileBaselines.get? callId = none ∧
      (d.tracker.toolFileChanges.get? callId).isSome) ∨
    (d.Unforwarded callId ∧ (isError = false → ∀ baseline ∈ d.tracker.toolFileBaselines.get? callId,
      d.tracker.sessionFileChanges.get? baseline.filePath = none ∧
      ∀ filePath ∈ args.filePath, d.tracker.sessionFileChanges.get? filePath = none))
  | _ => True

instance : DecidableRel OneCallPerFile := fun d label => by
  rcases label with ⟨_, _ | _ | _⟩ <;> (delta OneCallPerFile; infer_instance)

/-! ### The two ways to apply a delta -/

variable {tracker : SessionDiffTracker} {callId filePath : String} {delta : FileChangeDelta}

theorem saturatingAdd_zero_left (a : UInt32) : saturatingAdd 0 a = a := by
  have hlt : (0 : UInt32).toNat + a.toNat < UInt32.size := by
    simpa using a.toNat_lt_size
  rw [saturatingAdd, if_pos hlt, UInt32.zero_add]

theorem adjust_empty (change : SessionFileChangeStats) : SessionFileChangeStats.adjust {} change true = change := by
  simp [SessionFileChangeStats.adjust, saturatingAdd_zero_left]

/-- Nothing is written where there is nothing to write. -/
theorem putStats_empty {changes : SortedMap String SessionFileChangeStats} (h : changes.get? filePath = none) :
    putStats changes filePath {} = changes := by
  refine ext_get? fun p => ?_
  rw [putStats, if_pos rfl, get?_erase]
  split_ifs with hp
  · rw [hp, h]
  · rw [get?_insert, if_neg hp]

/-- The totals after a delta of a new call, as the client takes it: it is added, unless it is
empty. -/
def addDelta (changes : SortedMap String SessionFileChangeStats) (delta : FileChangeDelta) :
    SortedMap String SessionFileChangeStats :=
  if delta.stats = {} then changes
  else putStats changes delta.filePath (((changes.get? delta.filePath).getD {}).adjust delta.stats true)

/-- Setting the totals of a file that has none is adding to them. -/
theorem putStats_eq_addDelta {changes : SortedMap String SessionFileChangeStats}
    (h : changes.get? delta.filePath = none) :
      putStats changes delta.filePath delta.stats = addDelta changes delta := by
  rw [addDelta]
  split_ifs with he
  · rw [he, putStats_empty h]
  · rw [h, getD_none, adjust_empty]

/-- What a new call does in a tracker: nothing, or a delta that is recorded under the call and added
to the totals. -/
inductive Applied (tracker : SessionDiffTracker) (callId : String) :
    SessionDiffTracker × Option FileChangeDelta → Prop where
  | nothing {tracker' : SessionDiffTracker} (totals : tracker'.sessionFileChanges = tracker.sessionFileChanges)
      (calls : tracker'.toolFileChanges = tracker.toolFileChanges) : Applied tracker callId (tracker', none)
  | delta {tracker' : SessionDiffTracker} (delta : FileChangeDelta)
      (totals : tracker'.sessionFileChanges = addDelta tracker.sessionFileChanges delta)
      (calls : tracker'.toolFileChanges = tracker.toolFileChanges.insert callId delta) :
      Applied tracker callId (tracker', some delta)

section

variable (h : tracker.toolFileChanges.get? callId = none)
include h

theorem takeBack_of_none : tracker.takeBack callId = tracker := by
  rw [takeBack, h]

theorem reconcile_applied (next : Option FileChangeDelta) :
    Applied tracker callId (tracker.reconcileToolFileChange callId next) := by
  rw [reconcileToolFileChange, takeBack_of_none h]
  split
  · exact .nothing rfl rfl
  · next delta hn =>
    refine .delta delta ?_ rfl
    have hne : delta.stats ≠ {} := by simpa using (filter_eq_some_iff.mp hn).2
    rw [addDelta, if_neg hne]
    rfl

theorem reconcile_dropped : Applied tracker callId (reconcileToolFileChange
      { tracker with toolFileBaselines := tracker.toolFileBaselines.erase callId } callId none) := by
  set dropped : SessionDiffTracker := { tracker with toolFileBaselines := tracker.toolFileBaselines.erase callId }
  have hd : dropped.toolFileChanges.get? callId = none := h
  rw [reconcileToolFileChange, takeBack_of_none hd]
  exact .nothing rfl rfl

/-- The client adds the delta of a new call. -/
theorem applyRemoteDelta_totals :
    (tracker.applyRemoteDelta callId delta).sessionFileChanges = addDelta tracker.sessionFileChanges delta := by
  rw [applyRemoteDelta, reconcileToolFileChange, takeBack_of_none h, addDelta]
  split_ifs with he
  · have hn : (some delta).filter (fun delta => decide (delta.stats ≠ {})) = none := by simp [Option.filter, he]
    rw [hn]
  · have hs : (some delta).filter (fun delta => decide (delta.stats ≠ {})) = some delta := by
      simp [Option.filter, he]
    rw [hs]
    rfl

end

theorem get?_applyRemoteDelta_calls {c' : String}
    (h : (tracker.applyRemoteDelta callId delta).toolFileChanges.get? c' ≠ none) :
    c' = callId ∨ tracker.toolFileChanges.get? c' ≠ none := by
  refine or_iff_not_imp_left.mpr fun hne hn => h ?_
  have ht : (tracker.takeBack callId).toolFileChanges.get? c' = none := by
    rw [takeBack]
    split
    · change (tracker.toolFileChanges.erase callId).get? c' = none
      rw [get?_erase, if_neg hne, hn]
    · exact hn
  rw [applyRemoteDelta, reconcileToolFileChange]
  split
  · exact ht
  · change ((tracker.takeBack callId).toolFileChanges.insert callId _).get? c' = none
    rw [get?_insert, if_neg hne, ht]

/-! ### What the daemon computes -/

variable {ds : Disk} {ar : ToolArgs} {t : String}

theorem filePath_of_computedDelta {b : ToolFileBaseline}
    (h : tracker.computedDelta ds b = some delta) : delta.filePath = b.filePath := by
  rw [computedDelta] at h
  split at h
  · cases h
  · obtain ⟨i, -, h⟩ := bind_eq_some_iff.mp h
    split_ifs at h
    cases h
    rfl
  · obtain ⟨i, -, h⟩ := bind_eq_some_iff.mp h
    split_ifs at h
    cases h
    rfl

theorem filePath_of_toolArgs (h : fileChangeDeltaFromToolArgs t ar = some delta) :
    ar.filePath = some delta.filePath := by
  obtain ⟨filePath, hp, h⟩ := bind_eq_some_iff.mp h
  obtain ⟨ss, -, h⟩ := bind_eq_some_iff.mp h
  split_ifs at h
  cases h
  exact hp

/-- **A new call on a file without totals** is applied by the daemon in the way of the client. -/
theorem computeDelta_applied {i : Bool} (hn : tracker.toolFileChanges.get? callId = none)
    (hfr : i = false → ∀ b ∈ tracker.toolFileBaselines.get? callId,
      tracker.sessionFileChanges.get? b.filePath = none ∧
      ∀ filePath ∈ ar.filePath, tracker.sessionFileChanges.get? filePath = none) :
    Applied tracker callId (computeDelta tracker ds callId t ar i) := by
  cases i with
  | true =>
    exact reconcile_dropped hn
  | false =>
    rw [computeDelta, if_neg (by decide), onToolCompleted, reconcileToolFileChangeFromBaseline, none_or]
    split
    · rw [hn]
      exact reconcile_applied hn _
    · next b hb =>
      obtain ⟨ho, ha⟩ := hfr rfl b hb
      dsimp only
      split
      · next delta hd =>
        have hp : tracker.sessionFileChanges.get? delta.filePath = none := by
          rcases or_eq_some_iff.mp hd with hc | ⟨-, hf⟩
          · rw [filePath_of_computedDelta hc]
            exact ho
          · exact ha _ (filePath_of_toolArgs hf)
        exact .delta delta (putStats_eq_addDelta hp) rfl
      · exact reconcile_dropped hn

/-! ### Whole runs -/

/-- **The invariant**: the totals agree, and each tracker records changes only under calls with a
forwarded delta. -/
structure InStep (workspace : String) (d : Daemon) : Prop where
  totals : TotalsAgree workspace d
  daemon : ∀ callId, d.tracker.toolFileChanges.get? callId ≠ none → ¬d.Unforwarded callId
  client : ∀ callId, (remote workspace d.forwarded).toolFileChanges.get? callId ≠ none → ¬d.Unforwarded callId

variable {w : String} {d d' : Daemon}

theorem inStep_start (wr dw : String) : InStep wr (start dw) :=
  ⟨rfl, fun _ h => absurd rfl h, fun _ h => absurd rfl h⟩

/-- A step that only drops records of the daemon. -/
theorem InStep.quiet (h : InStep w d) (ht : d'.tracker.sessionFileChanges = d.tracker.sessionFileChanges)
    (hcl : ∀ callId, d'.tracker.toolFileChanges.get? callId ≠ none →
      d.tracker.toolFileChanges.get? callId ≠ none) (hf : d'.forwarded = d.forwarded) : InStep w d' where
  totals := by
    rw [TotalsAgree, hf, ht]
    exact h.totals
  daemon callId hc := by
    rw [Daemon.Unforwarded, hf]
    exact h.daemon callId (hcl callId hc)
  client callId hc := by
    rw [Daemon.Unforwarded, hf]
    rw [hf] at hc
    exact h.client callId hc

theorem captureToolFileBaseline_eq (tracker : SessionDiffTracker) (callId : String) (di : Disk) (tl : String)
    (ag : ToolArgs) :
    (tracker.captureToolFileBaseline callId di tl ag).sessionFileChanges = tracker.sessionFileChanges ∧
      (tracker.captureToolFileBaseline callId di tl ag).toolFileChanges = tracker.toolFileChanges := by
  rw [captureToolFileBaseline]
  split_ifs
  · exact ⟨rfl, rfl⟩
  · split
    · exact ⟨rfl, rfl⟩
    · dsimp only
      split <;> exact ⟨rfl, rfl⟩

/-- A new call: its delta is forwarded, and both add it. -/
theorem InStep.applied (h : InStep w d) (hn : d.Unforwarded callId)
    {r : SessionDiffTracker × Option FileChangeDelta} (hr : Applied d.tracker callId r) :
    InStep w { tracker := r.1, forwarded := d.forwarded ++ (r.2.map (callId, ·)).toList } := by
  cases hr with
  | nothing ht hcl => exact h.quiet ht (fun _ hc => hcl ▸ hc) (by simp)
  | delta delta ht hcl =>
    have hcn : (remote w d.forwarded).toolFileChanges.get? callId = none := by
      by_contra hne
      exact h.client callId hne hn
    have hrm : remote w (d.forwarded ++ [(callId, delta)]) = (remote w d.forwarded).applyRemoteDelta
      callId delta := by
      rw [remote, List.foldl_append]
      rfl
    have hm : ∀ c', c' = callId ∨ ¬d.Unforwarded c' → c' ∈ (d.forwarded ++ [(callId, delta)]).map Prod.fst := by
      rintro c' (rfl | ho)
      · simp
      · rw [List.map_append]
        exact List.mem_append_left _ (not_not.mp ho)
    refine ⟨?_, fun c' hc hu => ?_, fun c' hc hu => ?_⟩
    · change (remote w (d.forwarded ++ [(callId, delta)])).sessionFileChanges = _
      rw [hrm, applyRemoteDelta_totals hcn, h.totals, ht]
    · refine hu (hm c' ?_)
      rcases eq_or_ne c' callId with heq | hne
      · exact .inl heq
      · rw [hcl, get?_insert, if_neg hne] at hc
        exact .inr (h.daemon c' hc)
    · refine hu (hm c' ?_)
      change (remote w (d.forwarded ++ [(callId, delta)])).toolFileChanges.get? c' ≠ none at hc
      rw [hrm] at hc
      exact (get?_applyRemoteDelta_calls hc).imp_right fun ho => h.client c' ho

/-- A completion that is repeated in the turn changes nothing. -/
theorem computeDelta_repeated
    (hb : tracker.toolFileBaselines.get? callId = none) (hc : (tracker.toolFileChanges.get? callId).isSome) :
    computeDelta tracker ds callId t ar false = (tracker, none) := by
  have hn : (tracker.toolFileChanges.get? callId).isNone = false := by simpa using hc
  rw [computeDelta, if_neg (by decide), onToolCompleted, reconcileToolFileChangeFromBaseline, hb]
  simp [hn]

/-- **The step lemma.** -/
theorem InStep.step (h : InStep w d) {l : Disk × DaemonEvent} (ho : OneCallPerFile d l)
    (hs : step d l = some d') : InStep w d' := by
  obtain ⟨ds, e⟩ := l
  cases e with
  | running callId t ar =>
    cases hs
    obtain ⟨ht, hcl⟩ := captureToolFileBaseline_eq d.tracker callId ds t ar
    exact h.quiet ht (fun _ hc => hcl ▸ hc) rfl
  | toolResult callId t ar i =>
    obtain rfl : d' = { tracker := (computeDelta d.tracker ds callId t ar i).1, forwarded := d.forwarded ++
        ((computeDelta d.tracker ds callId t ar i).2.map (callId, ·)).toList } :=
      (some.inj hs).symm
    rcases ho with ⟨rfl, hb, hch⟩ | ⟨hn, hf⟩
    · rw [computeDelta_repeated hb hch]
      exact h.quiet rfl (fun _ hc => hc) (by simp)
    · have hd : d.tracker.toolFileChanges.get? callId = none := by
        by_contra hne
        exact h.daemon callId hne hn
      exact h.applied hn (computeDelta_applied hd hf)
  | loopEnd =>
    cases hs
    exact h.quiet rfl (fun _ hc => absurd rfl hc) rfl

/-- **The client's totals are the daemon's**, in any run whose steps meet the condition. -/
theorem totals_agree_of_run {daemonWorkspace : String}
    (hrun : RunUnder SessionDiff.step OneCallPerFile (start daemonWorkspace) d) (workspace : String) :
    TotalsAgree workspace d :=
  (hrun.invariant (I := InStep workspace) (inStep_start workspace daemonWorkspace) fun h ho hs =>
    h.step ho hs).totals

/-! ### Runs -/

/-- A disk whose files all have the same content. -/
def everywhere (content : String) : Disk := fun _ => .present content

def writeArgs : ToolArgs := { filePath := some "notes.txt", content := some "" }

/-- A call that finds the file with one content and leaves it with another. -/
def fileWrite (callId before after : String) : List (Disk × DaemonEvent) :=
  [(everywhere before, .running callId "file_write" writeArgs),
    (everywhere after, .toolResult callId "file_write" writeArgs false)]

/-- One edit, its completion reported twice, and the end of the turn. -/
theorem totals_agree_of_run_single : ∃ d, RunUnder SessionDiff.step OneCallPerFile (start "/w") d ∧
      d.tracker.sessionFileChanges.get? "notes.txt" = some { additions := 2, deletions := 1 } ∧
      TotalsAgree "/w" d :=
  (exists_run_of_exec _ _ _ _ (fileWrite "1" "a\nb\n" "a\nx\ny\n" ++
      [(everywhere "", .toolResult "1" "file_write" writeArgs false), (everywhere "", .loopEnd)]) (by decide)).imp
    fun d ⟨hr, hs⟩ => ⟨hr, hs, totals_agree_of_run hr "/w"⟩

/-- **A second edit counts twice.** Two calls add a line each: the daemon has two added lines, and
the client three. An edit that undoes the first leaves the daemon without totals, and the client
with those of the first. An error reported after the completion takes the change back in the daemon
only. -/
theorem second_edit_counts_twice : (∃ d, RunUnder SessionDiff.step Always (start "/w") d ∧
      d.tracker.sessionFileChanges.get? "notes.txt" = some { additions := 2 } ∧
      (remote "/w" d.forwarded).sessionFileChanges.get? "notes.txt" = some { additions := 3 } ∧
        ¬TotalsAgree "/w" d) ∧
    (∃ d, RunUnder SessionDiff.step Always (start "/w") d ∧ d.tracker.sessionFileChanges.get? "notes.txt" = none ∧
      (remote "/w" d.forwarded).sessionFileChanges.get? "notes.txt" = some { additions := 1 } ∧
        ¬TotalsAgree "/w" d) ∧
    ∃ d, RunUnder SessionDiff.step Always (start "/w") d ∧ d.tracker.sessionFileChanges.get? "notes.txt" = none ∧
      (remote "/w" d.forwarded).sessionFileChanges.get? "notes.txt" = some { additions := 1 } ∧
      ¬TotalsAgree "/w" d := by
  refine ⟨?_, ?_, ?_⟩
  · exact exists_run_of_exec _ _ _ _ (fileWrite "1" "a\n" "a\nb\n" ++ fileWrite "2" "a\nb\n" "a\nb\nc\n") (by decide)
  · exact exists_run_of_exec _ _ _ _ (fileWrite "1" "a\n" "a\nb\n" ++ fileWrite "2" "a\nb\n" "a\n") (by decide)
  · exact exists_run_of_exec _ _ _ _
      (fileWrite "1" "a\n" "a\nb\n" ++ [(everywhere "a\nb\n", .toolResult "1" "file_write" writeArgs
        true)]) (by decide)

end XiaoO.SessionDiff
