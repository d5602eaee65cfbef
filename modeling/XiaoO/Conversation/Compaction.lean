import XiaoO.Conversation.Messages
import Mathlib.Data.List.Range
import Mathlib.Order.Bounds.Defs

/-!
# Compaction of a conversation

The compaction of `compact/src/compaction.rs` and `ContextManager::auto_compact` of
`compact/src/manager.rs`: when a conversation grows past the budget, a window of old messages is
replaced by one summary message.

## The model

The functions keep the names of the source. The loop of `adjust_keep_start_for_invariants` runs on
fuel, and `adjustLoop_fix` says that the fuel it is given always reaches the fixed point. The
summariser is an LLM call, so `autoCompact` takes it as a function that may fail. The token
estimates of the result are left out.

## What is proved

The start of the kept tail is closed: no message of the window before it has a `ToolUse` answered in
the tail (`adjustKeepStart_closed`), and it is the greatest such start
(`adjustKeepStart_isGreatest`). So the call ids of the dropped messages and of the kept ones are
disjoint, as long as the messages kept by design (`KeptOutright`) share no call id with the others,
and compaction keeps tool pairing (`toolPaired_autoCompact`). Without that condition it does not.

The result is the messages that are no candidates, in order, with at most one message inserted, and
the candidates are neither system messages nor the first user message nor in the tail
(`compaction_conserves`).
-/

namespace XiaoO.Conversation

open XiaoO.Base List Prod

inductive PartialDirection where
  | beforePivot
  | afterPivot
  deriving DecidableEq

structure CompactionBoundary where
  pivotMessageId : String
  direction : PartialDirection

/-- The errors of `CompactError` that compaction itself or its summariser returns. -/
inductive CompactError where
  | boundaryNotFound (pivotMessageId : String)
  | summaryBudgetExhausted (message : String)
  | summaryParse (message : String)
  | llm (message : String)
  deriving DecidableEq

abbrev CompactResult := Except CompactError

structure CompressionMeta where
  lastCompactTurn : Option ℕ := none
  compactSummary : Option String := none

/-- `CompactionWindow`: the messages from `start` up to `stop` may be dropped. -/
structure CompactionWindow where
  start : ℕ
  stop : ℕ

/-! ### The window -/

variable (messages : List ChatMessage) (message : ChatMessage) (preserveTail : ℕ)

/-- `discover_boundary`: the last message before the protected tail that has an id
and some message before it that is not a system message. -/
def discoverBoundary : Option CompactionBoundary :=
  (messages.take (messages.length - preserveTail)).zipIdx.reverse.findSome? fun (message, index) =>
    match message.messageId with
    | none => none
    | some pivotMessageId =>
      if (messages.take index).any (fun m => m.role ≠ .system) then
        some { pivotMessageId, direction := .beforePivot }
      else none

def resolveBoundaryIndex (boundary : CompactionBoundary) : CompactResult ℕ :=
  match messages.findIdx? (fun m => m.messageId = some boundary.pivotMessageId) with
  | some index => .ok index
  | none => .error (.boundaryNotFound boundary.pivotMessageId)

def resolveCompactionWindow (boundary : Option CompactionBoundary) : CompactResult CompactionWindow := do
  let protectedTailStart := messages.length - preserveTail
  let window : CompactionWindow ← match boundary with
    | some boundary => do
      let boundaryIndex ← resolveBoundaryIndex messages boundary
      match boundary.direction with
      | .beforePivot => pure ⟨0, boundaryIndex⟩
      | .afterPivot => pure ⟨boundaryIndex + 1, protectedTailStart⟩
    | none => pure ⟨0, protectedTailStart⟩
  return ⟨min window.start messages.length, min window.stop messages.length⟩

/-! ### The start of the kept tail -/

def messageToolResultIds : List String :=
  message.blocks.filterMap fun
    | .toolResult callId _ _ _ => some callId
    | _ => none

def messageHasToolUseWithIds (toolUseIds : List String) : Bool :=
  message.blocks.any fun
    | .toolUse callId _ _ => toolUseIds.contains callId
    | _ => false

/-- The two inner loops of `find_required_keep_start`: walking down from
`keepStart` to `windowStart`, lower `required` to each index whose message
satisfies `p`. -/
def lowerTo (windowStart keepStart : ℕ) (p : ChatMessage → Bool) (required : ℕ) : ℕ :=
  (List.range' windowStart (keepStart - windowStart)).reverse.foldl
    (fun required index => if (messages[index]?).any p then min required index else required) required

def findRequiredKeepStart (windowStart keepStart : ℕ) : ℕ :=
  let keptMessages := messages.drop keepStart
  let requiredToolUseIds := keptMessages.flatMap messageToolResultIds
  let required :=
    if requiredToolUseIds.isEmpty then keepStart
    else lowerTo messages windowStart keepStart (messageHasToolUseWithIds · requiredToolUseIds) keepStart
  keptMessages.foldl (fun required keptMessage =>
    if keptMessage.role ≠ .assistant then required
    else match keptMessage.messageId with
      | none => required
      | some messageId =>
        lowerTo messages windowStart keepStart
          (fun candidate => candidate.role = .assistant && candidate.messageId = some messageId) required)
    required

/-- The `loop` of `adjust_keep_start_for_invariants`. -/
def adjustLoop (messages : List ChatMessage) (floorStart : ℕ) : ℕ → ℕ → ℕ
  | 0, adjusted => adjusted
  | fuel + 1, adjusted =>
    let required := findRequiredKeepStart messages floorStart adjusted
    if required = adjusted then adjusted else adjustLoop messages floorStart fuel required

def adjustKeepStartForInvariants (keepStart floorStart : ℕ) : ℕ :=
  if keepStart ≤ floorStart ∨ messages.length ≤ keepStart then min keepStart messages.length
  else adjustLoop messages floorStart keepStart keepStart

/-! ### The dropped messages and their replacement -/

def firstUserIndex : Option ℕ := messages.findIdx? (fun m => m.role = .user)

def candidateIndexes (boundary : Option CompactionBoundary) : CompactResult (List ℕ) := do
  let window ← resolveCompactionWindow messages preserveTail boundary
  let adjustedEnd := adjustKeepStartForInvariants messages window.stop window.start
  return messages.zipIdx.filterMap fun (message, index) =>
    if message.role = .system then none
    else if some index = firstUserIndex messages then none
    else if index < window.start ∨ adjustedEnd ≤ index then none
    else some index

def applyCandidateReplacement (candidates : List ℕ) (replacement : Option ChatMessage) : List ChatMessage :=
  messages.zipIdx.flatMap fun (message, index) =>
    (if some index = candidates.min? then replacement.toList else []) ++
      if index ∈ candidates then [] else [message]

def isCompressionSummary : Bool :=
  message.role = .assistant && message.blocks.any fun
    | .text text => "auto_compact:\n".toList.isPrefixOf text.toList
    | _ => false

/-- `CompactionResult`, without the token estimate. -/
structure CompactionResult where
  messages : List ChatMessage
  summary : Option String
  boundary : Option CompactionBoundary
  updatedMeta : CompressionMeta

/-- The summary message of `auto_compact`. -/
def summaryMessage (candidateMessages : List ChatMessage) (summary : String) : ChatMessage where
  role := .assistant
  blocks := [.text ("auto_compact:\n" ++ summary)]
  messageId := candidateMessages.findSome? ChatMessage.messageId
  timestampMs := (candidateMessages.getLast?.map ChatMessage.timestampMs).getD 0

/-- The summary of an earlier compaction, unless its message is dropped too. -/
def previousSummary (cmeta : CompressionMeta) (candidateMessages : List ChatMessage) : Option String :=
  if candidateMessages.any isCompressionSummary then none else cmeta.compactSummary

def autoCompact (summarize : List ChatMessage → Option String → CompactResult String)
    (messages : List ChatMessage) (cmeta : CompressionMeta) (boundary : Option CompactionBoundary)
    (preserveTail : ℕ) : CompactResult CompactionResult := do
  let boundary := boundary.or (discoverBoundary messages preserveTail)
  let candidates ← candidateIndexes messages preserveTail boundary
  if candidates.isEmpty then
    return { messages, summary := cmeta.compactSummary, boundary, updatedMeta := cmeta }
  let candidateMessages := candidates.filterMap (messages[·]?)
  let summary ← summarize candidateMessages (previousSummary cmeta candidateMessages)
  return {
    messages := applyCandidateReplacement messages candidates (some (summaryMessage candidateMessages summary))
    summary := some summary
    boundary
    updatedMeta := {
      compactSummary := some summary
      lastCompactTurn := some (cmeta.lastCompactTurn.getD 0 + 1) } }

/-! ### The kept tail is closed -/

variable {messages : List ChatMessage}

/-- A loop that lowers an index: what stays below the result. -/
theorem le_foldl_iff {α : Type*} {f : ℕ → α → ℕ} {P : α → Prop} {s : ℕ}
    (hf : ∀ r a, s ≤ f r a ↔ s ≤ r ∧ P a) (l : List α)
    (r : ℕ) : s ≤ l.foldl f r ↔ s ≤ r ∧ ∀ a ∈ l, P a := by
  induction l generalizing r with
  | nil => simp
  | cons a l ih => simp [ih, hf, and_assoc]

variable {i ks preserveTail : ℕ} {m replacement : ChatMessage} {c : String}
  {boundary : Option CompactionBoundary} {candidates : List ℕ} {f s : ℕ}

theorem le_lowerTo_iff {p : ChatMessage → Bool} {r : ℕ} : s ≤ lowerTo messages f ks p r ↔
      s ≤ r ∧ ∀ i m, f ≤ i → i < ks → messages[i]? = some m → p m → s ≤ i := by
  rw [lowerTo, le_foldl_iff (P := fun i => (messages[i]?).any p → s ≤ i)]
  · refine and_congr_right fun _ => ⟨fun h i m hf hi hm hp => h i ?_ (by simpa [hm] using hp), fun h i hi hp => ?_⟩
    · simp only [mem_reverse, mem_range'_1]
      omega
    · obtain ⟨m, hm, hp⟩ := (Option.any_eq_true ..).mp hp
      simp only [mem_reverse, mem_range'_1] at hi
      exact h i m hi.1 (by omega) hm hp
  · intro r i
    split_ifs with hp
    · rw [Nat.le_min]
      simp [hp]
    · simp [hp]

theorem mem_messageToolResultIds : c ∈ messageToolResultIds m ↔ .answer c ∈ m.toolEvents := by
  rw [answer_mem_toolEvents]
  simp only [messageToolResultIds, mem_filterMap]
  constructor
  · rintro ⟨b, hb, he⟩
    cases b <;> simp at he
    case toolResult ci n o ie => exact ⟨n, o, ie, he ▸ hb⟩
  · rintro ⟨n, o, ie, hb⟩
    exact ⟨_, hb, rfl⟩

theorem messageHasToolUseWithIds_iff {ids : List String} :
    messageHasToolUseWithIds m ids ↔ ∃ c ∈ ids, .call c ∈ m.toolEvents := by
  simp only [call_mem_toolEvents]
  constructor
  · intro h
    obtain ⟨b, hb, hc⟩ := any_eq_true.mp h
    cases b <;> simp at hc
    case toolUse ci n ip => exact ⟨ci, hc, n, ip, hb⟩
  · rintro ⟨c, hc, n, ip, hb⟩
    exact any_eq_true.mpr ⟨_, hb, by simpa using hc⟩

/-- The messages of a tail need another one: it has a call that is answered in the tail, or it is of
the assistant and there is a message of the assistant with its id. -/
def Needed (tail : List ChatMessage) (m : ChatMessage) : Prop :=
  (∃ c, .call c ∈ m.toolEvents ∧ .answer c ∈ toolEvents tail) ∨
    m.role = .assistant ∧ ∃ k ∈ tail, k.role = .assistant ∧ ∃ id, k.messageId = some id ∧ m.messageId = some id

theorem Needed.mono {tail tail' : List ChatMessage} (h : Needed tail m) (hs : tail ⊆ tail') : Needed tail' m := by
  refine h.imp (fun ⟨c, hc, ha⟩ => ⟨c, hc, ?_⟩) fun ⟨hr, k, hk, h⟩ => ⟨hr, k, hs hk, h⟩
  obtain ⟨k, hk, he⟩ := mem_toolEvents.mp ha
  exact mem_toolEvents.mpr ⟨k, hs hk, he⟩

/-- One round goes down to the first message that the tail needs, and no further. -/
theorem le_findRequiredKeepStart_iff : s ≤ findRequiredKeepStart messages f ks ↔
      s ≤ ks ∧ ∀ i m, f ≤ i → i < ks → messages[i]? = some m → Needed (messages.drop ks) m → s ≤ i := by
  have hid : ∀ c, c ∈ (messages.drop ks).flatMap messageToolResultIds ↔
    .answer c ∈ toolEvents (messages.drop ks) := by
    simp [mem_toolEvents, mem_messageToolResultIds]
  rw [findRequiredKeepStart, le_foldl_iff (P := fun k => k.role = .assistant → ∀ id, k.messageId = some id →
    ∀ i m, f ≤ i → i < ks → messages[i]? = some m → m.role = .assistant ∧ m.messageId = some id → s ≤ i)]
  · have hc : s ≤ (if ((messages.drop ks).flatMap messageToolResultIds).isEmpty then ks else lowerTo messages f ks
          (messageHasToolUseWithIds · ((messages.drop ks).flatMap messageToolResultIds)) ks) ↔
            s ≤ ks ∧ ∀ i m, f ≤ i →
          i < ks → messages[i]? = some m →
            (∃ c, .call c ∈ m.toolEvents ∧ .answer c ∈ toolEvents (messages.drop ks)) →
          s ≤ i := by
      split_ifs with he
      · refine (and_iff_left ?_).symm
        rintro i m - - - ⟨c, -, ha⟩
        rw [← hid, isEmpty_iff.mp he] at ha
        cases ha
      · simp only [le_lowerTo_iff, messageHasToolUseWithIds_iff, hid, and_comm]
    rw [hc, and_assoc]
    refine and_congr_right fun _ => ⟨?_, fun h => ⟨?_, ?_⟩⟩
    · rintro ⟨hc, hk⟩ i m hf hi hm (hn | ⟨hr, k, hkm, hkr, id, hkid, hmid⟩)
      · exact hc i m hf hi hm hn
      · exact hk k hkm hkr id hkid i m hf hi hm ⟨hr, hmid⟩
    · exact fun i m hf hi hm hn => h i m hf hi hm (.inl hn)
    · exact fun k hk hkr id hkid i m hf hi hm hn => h i m hf hi hm (.inr ⟨hn.1, k, hk, hkr, id, hkid, hn.2⟩)
  · intro r k
    split_ifs with hr
    · simp [hr]
    · cases hk : k.messageId <;> simp_all [le_lowerTo_iff]

theorem findRequiredKeepStart_le : findRequiredKeepStart messages f ks ≤ ks :=
    (le_findRequiredKeepStart_iff.mp le_rfl).1

/-- What is kept from `s` on needs no message of the window before it. -/
def ClosedFrom (messages : List ChatMessage) (f s : ℕ) : Prop :=
  ∀ i m, f ≤ i → i < s → messages[i]? = some m → ¬ Needed (messages.drop s) m

/-- **The loop ends at a fixed point**: each round that changes the start lowers it,
so as many rounds as the start is high are enough. -/
theorem adjustLoop_fix (messages : List ChatMessage) (floorStart : ℕ) {fuel adjusted : ℕ} (h : adjusted ≤ fuel) :
    findRequiredKeepStart messages floorStart (adjustLoop messages floorStart fuel adjusted) =
      adjustLoop messages floorStart fuel adjusted := by
  have hle : findRequiredKeepStart messages floorStart adjusted ≤ adjusted := findRequiredKeepStart_le
  induction fuel generalizing adjusted with simp only [adjustLoop]
  | zero => omega
  | succ fuel ih =>
    split_ifs with heq
    · exact heq
    · exact ih (by omega) findRequiredKeepStart_le

theorem adjustLoop_le (messages : List ChatMessage) (f fuel adjusted : ℕ) :
    adjustLoop messages f fuel adjusted ≤ adjusted := by
  induction fuel generalizing adjusted with simp only [adjustLoop]
  | zero => exact le_rfl
  | succ fuel ih =>
    split_ifs
    · exact le_rfl
    · exact (ih _).trans findRequiredKeepStart_le

theorem closedFrom_of_fix (h : findRequiredKeepStart messages f s = s) : ClosedFrom messages f s :=
  fun i m hf hi hm hn => Nat.not_le_of_lt hi ((le_findRequiredKeepStart_iff.mp h.ge).2 i m hf hi hm hn)

/-- **The kept tail is closed.** -/
theorem adjustKeepStart_closed : ClosedFrom messages f (adjustKeepStartForInvariants messages ks f) := by
  unfold adjustKeepStartForInvariants
  split_ifs with he
  · -- Nothing to adjust: the window is empty or there is no tail.
    intro i m hf hi _ hn
    rw [drop_eq_nil_of_le (by omega)] at hn
    simp [Needed] at hn
  · exact closedFrom_of_fix (adjustLoop_fix messages f le_rfl)

/-- No round passes a start from which the tail is closed: a later tail needs no more than it. -/
theorem le_adjustLoop (hs : ClosedFrom messages f s) {fuel adjusted : ℕ} (h : s ≤ adjusted) :
    s ≤ adjustLoop messages f fuel adjusted := by
  induction fuel generalizing adjusted with simp only [adjustLoop]
  | zero => exact h
  | succ fuel ih =>
    split_ifs
    · exact h
    · refine ih (le_findRequiredKeepStart_iff.mpr ⟨h, fun i m hf hi hm hn => ?_⟩)
      by_contra hlt
      exact hs i m hf (Nat.lt_of_not_le hlt) hm (hn.mono (drop_subset_drop_left messages h))

/-- **The start of the kept tail is the greatest from which it is closed**, and the loop has ended
there. -/
theorem adjustKeepStart_isGreatest (messages : List ChatMessage) (f k : ℕ) (hf : f < k) (hk : k < messages.length) :
    IsGreatest {s | f ≤ s ∧ s ≤ k ∧ ClosedFrom messages f s} (adjustKeepStartForInvariants messages k f) ∧
      findRequiredKeepStart messages f (adjustKeepStartForInvariants messages k f) =
        adjustKeepStartForInvariants messages k f := by
  have heq : adjustKeepStartForInvariants messages k f = adjustLoop messages f k k := if_neg (by omega)
  have hfix := adjustLoop_fix messages f (le_refl k)
  have hself : ClosedFrom messages f f := fun i m hf hi => by omega
  rw [heq]
  refine ⟨⟨⟨le_adjustLoop hself hf.le, adjustLoop_le .., closedFrom_of_fix hfix⟩, fun s hs => ?_⟩, hfix⟩
  exact le_adjustLoop hs.2.2 hs.2.1

theorem adjustKeepStart_isGreatest_answered :
    let messages : List ChatMessage := [{ role := .assistant, blocks := [.toolUse "c" "ls" "[]"] },
      .toolResult "c" "ls" "a" false 0, .user "b"]
    IsGreatest {s | 0 ≤ s ∧ s ≤ 1 ∧ ClosedFrom messages 0 s} 0 :=
  (adjustKeepStart_isGreatest _ 0 1 (by decide) (by decide)).1

/-! ### What is dropped and what is kept -/

/-- The message at `index` stands at or before the pivot of an after-pivot boundary. -/
def BeforeWindow (messages : List ChatMessage) (boundary : Option CompactionBoundary) (index : ℕ) : Prop :=
  ∃ b pivot, boundary = some b ∧ b.direction = .afterPivot ∧
    resolveBoundaryIndex messages b = .ok pivot ∧ index ≤ pivot

/-- The message at `index` is kept whatever the protected tail is: it is a system
message, or the first user message, which "carries the original task instructions
and must never be compacted away", or it stands before the window. -/
def KeptOutright (messages : List ChatMessage) (boundary : Option CompactionBoundary) (index : ℕ) : Prop :=
  (∃ m, messages[index]? = some m ∧ m.role = .system) ∨ some index = firstUserIndex messages ∨
    BeforeWindow messages boundary index

/-- No call id is shared between a message that is kept outright and one that is not. -/
def KeptApart (messages : List ChatMessage) (boundary : Option CompactionBoundary) : Prop :=
  ∀ i j m n, messages[i]? = some m → messages[j]? = some n →
    KeptOutright messages boundary i → ¬ KeptOutright messages boundary j →
    ∀ e ∈ m.toolEvents, ∀ f ∈ n.toolEvents, e.id ≠ f.id

theorem lt_window_start_iff
    {window : CompactionWindow} (h : resolveCompactionWindow messages preserveTail boundary = .ok window)
    (hi : i < messages.length) : i < window.start ↔ BeforeWindow messages boundary i := by
  cases boundary with
  | none =>
    obtain rfl : _ = window := Except.ok.inj h
    simp [BeforeWindow]
  | some b =>
    cases hp : resolveBoundaryIndex messages b with
    | error => simp [resolveCompactionWindow, hp, bind, Except.bind] at h
    | ok =>
      cases hd : b.direction <;>
        simp only [resolveCompactionWindow, hp, hd, pure, Except.pure, bind, Except.bind,
          Except.ok.injEq] at h <;> subst h
      · simp [BeforeWindow, hd]
      · simp only [BeforeWindow, Option.some.injEq, exists_and_left, exists_eq_left', hd, true_and,
          hp, Except.ok.injEq]
        omega

/-- The candidates are places of the list, in order. -/
theorem candidateIndexes_eq (h : candidateIndexes messages preserveTail boundary = .ok candidates) :
    ∃ w, resolveCompactionWindow messages preserveTail boundary = .ok w ∧
      candidates = (messages.zipIdx.filter fun x => x.1.role ≠ .system ∧ some x.2 ≠ firstUserIndex messages ∧
        w.start ≤ x.2 ∧ x.2 < adjustKeepStartForInvariants messages w.stop w.start).map snd := by
  unfold candidateIndexes at h
  cases hw : resolveCompactionWindow messages preserveTail boundary with
  | error => simp [hw, bind, Except.bind] at h
  | ok w =>
    simp only [hw, bind, Except.bind, pure, Except.pure, Except.ok.injEq] at h
    refine ⟨w, rfl, h.symm.trans ?_⟩
    rw [← filterMap_eq_map, filterMap_filter]
    exact filterMap_congr fun x _ => by grind

theorem lt_of_mem_candidateIndexes (h : candidateIndexes messages preserveTail boundary = .ok candidates) :
    ∀ i ∈ candidates, i < messages.length := by
  obtain ⟨w, -, rfl⟩ := candidateIndexes_eq h
  intro i hi
  obtain ⟨x, hx, rfl⟩ := mem_map.mp hi
  exact (List.getElem?_eq_some_iff.mp (mk_mem_zipIdx_iff_getElem?.mp (mem_of_mem_filter hx))).1

/-- What `candidate_indexes` returns: the messages before a closed tail that are not
kept outright. -/
theorem candidateIndexes_spec (h : candidateIndexes messages preserveTail boundary = .ok candidates) :
    ∃ e, (∀ i m, messages[i]? = some m → (i ∈ candidates ↔ ¬ KeptOutright messages boundary i ∧ i < e)) ∧
      ∀ i m c, ¬ KeptOutright messages boundary i → i < e → messages[i]? = some m → .call c ∈ m.toolEvents →
        .answer c ∉ toolEvents (messages.drop e) := by
  obtain ⟨w, hw, rfl⟩ := candidateIndexes_eq h
  have hs : ∀ {i m}, messages[i]? = some m → (i < w.start ↔ BeforeWindow messages boundary i) :=
    fun hm => lt_window_start_iff hw (List.getElem?_eq_some_iff.mp hm).1
  refine ⟨adjustKeepStartForInvariants messages w.stop w.start, fun i m hm => ?_,
    fun i m c hk hhi hm hc ha => adjustKeepStart_closed i m ?_ hhi hm (.inl ⟨c, hc, ha⟩)⟩
  · have hk : KeptOutright messages boundary i ↔
        m.role = .system ∨ some i = firstUserIndex messages ∨ i < w.start := by
      simp [KeptOutright, hm, hs hm]
    simp [mk_mem_zipIdx_iff_getElem?, hm, hk, and_assoc]
  · exact not_lt.mp fun hlt => hk (.inr (.inr ((hs hm).mp hlt)))

/-! ### Compaction keeps tool pairing -/

theorem toolEvents_eq_zipIdx (messages : List ChatMessage) :
    toolEvents messages = messages.zipIdx.flatMap fun x => x.1.toolEvents := by
  rw [toolEvents, ← flatMap_map (f := fst), zipIdx_map_fst]

theorem toolEvents_replaced (candidates : List ℕ) (hr : replacement.toolEvents = []) :
    toolEvents (applyCandidateReplacement messages candidates (some replacement)) =
      messages.zipIdx.flatMap fun x => if x.2 ∈ candidates then [] else x.1.toolEvents := by
  rw [applyCandidateReplacement, toolEvents, flatMap_assoc]
  refine flatMap_congr fun x _ => ?_
  rw [flatMap_append]
  split_ifs <;> simp [hr]

/-- Dropping messages whose call ids no kept message has cuts the log of tool blocks
down to the other ids. -/
theorem toolEvents_applyCandidateReplacement (hr : replacement.toolEvents = []) (q : String → Bool)
    (hq : ∀ i m, messages[i]? = some m → ∀ e ∈ m.toolEvents, (q e.id = true ↔ i ∉ candidates)) :
    toolEvents (applyCandidateReplacement messages candidates (some replacement)) =
      (toolEvents messages).filter fun e => q e.id := by
  rw [toolEvents_replaced _ hr, toolEvents_eq_zipIdx, filter_flatMap]
  refine flatMap_congr fun x hx => ?_
  have hm := mk_mem_zipIdx_iff_getElem?.mp hx
  split_ifs with hi
  · exact (filter_eq_nil_iff.mpr fun e he => by simp [hq _ _ hm e he, hi]).symm
  · exact (filter_eq_self.mpr fun e he => (hq _ _ hm e he).mpr hi).symm

section

variable (hp : ToolPaired messages) (ha : KeptApart messages boundary)
  (h : candidateIndexes messages preserveTail boundary = .ok candidates)
include hp ha h

/-- **The call ids of the dropped messages are not those of the kept ones.** -/
theorem dropped_id_ne_kept {j : ℕ} {n : ChatMessage} (hm : messages[i]? = some m) (hn : messages[j]? = some n)
    (hi : i ∈ candidates) (hj : j ∉ candidates)
    {e f : CallEvent String} (he : e ∈ m.toolEvents) (hf : f ∈ n.toolEvents) : e.id ≠ f.id := by
  obtain ⟨s, hmm, hc⟩ := candidateIndexes_spec h
  obtain ⟨hit, hil⟩ := (hmm i m hm).mp hi
  by_cases hjt : KeptOutright messages boundary j
  · exact (ha j i n m hn hm hjt hit f hf e he).symm
  · -- `n` is in the tail: an id on both sides of its start is called before it and answered in it.
    intro hid
    rw [ToolPaired, ← take_append_drop s messages, toolEvents_append] at hp
    have het : e ∈ toolEvents (messages.take s) :=
      mem_toolEvents.mpr ⟨m, mem_take_iff_getElem.mpr (by grind), he⟩
    have hfd : f ∈ toolEvents (messages.drop s) :=
      mem_toolEvents.mpr ⟨n, mem_drop_iff_getElem.mpr ⟨j - s, by grind, by grind⟩, hf⟩
    obtain ⟨hcl, han⟩ := hp.straddle het hfd hid
    obtain ⟨k, hk, hkc⟩ := mem_toolEvents.mp hcl
    obtain ⟨u, hu, rfl⟩ := mem_take_iff_getElem.mp hk
    have hku : messages[u]? = some messages[u] := getElem?_eq_getElem (by omega)
    by_cases hut : KeptOutright messages boundary u
    · exact ha u i _ m hku hm hut hit _ hkc e he rfl
    · exact hc u _ _ hut (by omega) hku hkc han

/-- Replacing the candidate messages by a message without tool blocks keeps tool
pairing. -/
theorem toolPaired_applyCandidateReplacement (hr : replacement.toolEvents = []) :
    ToolPaired (applyCandidateReplacement messages candidates (some replacement)) := by
  let droppedIds := (toolEvents (candidates.filterMap (messages[·]?))).map CallEvent.id
  rw [ToolPaired, toolEvents_applyCandidateReplacement hr (fun c => !droppedIds.contains c)]
  · exact Paired.filter hp fun c => !droppedIds.contains c
  · intro i m hm e he
    have hd : e.id ∈ droppedIds ↔ i ∈ candidates := by
      simp only [droppedIds, mem_map, mem_toolEvents, mem_filterMap]
      constructor
      · rintro ⟨f, ⟨n, ⟨j, hj, hn⟩, hf⟩, hid⟩
        by_contra hi
        exact dropped_id_ne_kept hp ha h hn hm hj hi hf he hid
      · intro hi
        exact ⟨e, ⟨m, ⟨i, hi, hm⟩, he⟩, rfl⟩
    simp [hd]

end

/-! ### The whole compaction -/

/-- The pivot of a discovered boundary is found again, at or before the place where it was
discovered. -/
theorem resolveBoundaryIndex_discoverBoundary {b : CompactionBoundary}
    (h : discoverBoundary messages preserveTail = some b) : b.direction = .beforePivot ∧
      ∃ pv, resolveBoundaryIndex messages b = .ok pv ∧ pv ≤ messages.length - preserveTail := by
  obtain ⟨⟨m, i⟩, hmm, hb⟩ := exists_of_findSome?_eq_some h
  have hi := mk_mem_zipIdx_iff_getElem?.mp (mem_reverse.mp hmm)
  obtain ⟨hlt, hm⟩ := List.getElem?_eq_some_iff.mp hi
  rw [length_take] at hlt
  rw [getElem_take] at hm
  cases hid : m.messageId with
  | none => simp [hid] at hb
  | some p =>
    simp only [hid] at hb
    split_ifs at hb
    obtain rfl : _ = b := Option.some.inj hb
    refine ⟨rfl, ?_⟩
    cases hf : messages.findIdx? (fun m => m.messageId = some p) with
    | none =>
      exact absurd (findIdx?_eq_none_iff.mp hf m (hm ▸ getElem_mem _)) (by simp [hid])
    | some pv =>
      refine ⟨pv, by simp [resolveBoundaryIndex, hf], not_lt.mp fun hgt => ?_⟩
      exact (findIdx?_eq_some_iff_getElem.mp hf).2.2 i (by omega) (by simp [hm, hid])

theorem candidateIndexes_ok (preserveTail : ℕ) (h : ∀ b ∈ boundary, ∃ p, resolveBoundaryIndex messages b = .ok p) :
    ∃ candidates, candidateIndexes messages preserveTail boundary = .ok candidates := by
  cases boundary with
  | none => exact ⟨_, rfl⟩
  | some b =>
    obtain ⟨p, hp⟩ := h b rfl
    cases hd : b.direction <;>
      simp [candidateIndexes, resolveCompactionWindow, hp, hd, bind, Except.bind, pure, Except.pure]

/-- A discovered boundary is a before-pivot one, so it keeps nothing more outright. -/
theorem KeptApart.discover (ha : KeptApart messages boundary)
    (preserveTail : ℕ) : KeptApart messages (boundary.or (discoverBoundary messages preserveTail)) := by
  cases boundary with
  | some => exact ha
  | none =>
    have hs : ∀ i, KeptOutright messages (discoverBoundary messages preserveTail) i ↔
      KeptOutright messages none i := by
      intro i
      have hbf : ¬ BeforeWindow messages (discoverBoundary messages preserveTail) i := by
        rintro ⟨b, p, hb, hd, -⟩
        rw [(resolveBoundaryIndex_discoverBoundary hb).1] at hd
        exact absurd hd (by decide)
      have hnn : ¬ BeforeWindow messages none i := by simp [BeforeWindow]
      simp only [KeptOutright, hbf, hnn]
    intro i j m n hm hn hi hj
    rw [Option.none_or, hs] at hi hj
    exact ha i j m n hm hn hi hj

theorem mem_applyCandidateReplacement
    (h : m ∈ applyCandidateReplacement messages candidates (some replacement)) : m ∈ messages ∨ m = replacement := by
  obtain ⟨⟨k, i⟩, hk, hm⟩ := mem_flatMap.mp h
  rcases mem_append.mp hm with hm | hm
  · split_ifs at hm <;> simp_all
  · split_ifs at hm
    · simp at hm
    · exact .inl ((mem_singleton.mp hm) ▸ fst_mem_of_mem_zipIdx hk)

/-- What a compaction returns: the messages as they were, or with the candidates
replaced by a summary. -/
theorem autoCompact_cases {sm : List ChatMessage → Option String → CompactResult String}
    {cm : CompressionMeta} {r : CompactionResult} (h : autoCompact sm messages cm boundary preserveTail = .ok r) :
    ∃ candidates,
      candidateIndexes messages preserveTail
        (boundary.or (discoverBoundary messages preserveTail)) = .ok candidates ∧
      (candidates = [] ∧ r.messages = messages ∨ candidates ≠ [] ∧ ∃ s,
        sm (candidates.filterMap (messages[·]?))
            (previousSummary cm (candidates.filterMap (messages[·]?))) = .ok s ∧
        r.messages = applyCandidateReplacement messages candidates
          (some (summaryMessage (candidates.filterMap (messages[·]?)) s))) := by
  unfold autoCompact at h
  cases hc : candidateIndexes messages preserveTail (boundary.or (discoverBoundary messages preserveTail)) with
  | error => simp [hc, bind, Except.bind] at h
  | ok candidates =>
    refine ⟨candidates, rfl, ?_⟩
    simp only [hc, bind, Except.bind] at h
    split at h
    · next he => exact .inl ⟨isEmpty_iff.mp he, by rw [← Except.ok.inj h]⟩
    · next hne =>
      split at h
      · simp at h
      · next s hs => exact .inr ⟨by simpa using hne, s, hs, by rw [← Except.ok.inj h]⟩

/-- Whatever the summariser does, a compaction that returns keeps tool pairing. -/
theorem ToolPaired.autoCompact {s : List ChatMessage → Option String → CompactResult String}
    {cm : CompressionMeta} {r : CompactionResult} (hp : ToolPaired messages) (ha : KeptApart messages boundary)
    (h : autoCompact s messages cm boundary preserveTail = .ok r) : ToolPaired r.messages := by
  obtain ⟨candidates, hc, ⟨-, hr⟩ | ⟨-, sm, -, hr⟩⟩ := autoCompact_cases h
  · rwa [hr]
  · rw [hr]
    exact toolPaired_applyCandidateReplacement hp (ha.discover preserveTail) hc rfl

/-- **Compaction keeps tool pairing**, whatever the summary says, when the messages
kept outright share no call id with the others. -/
theorem toolPaired_autoCompact (cmeta : CompressionMeta) (boundary : Option CompactionBoundary)
    (preserveTail : ℕ) (summary : String) (hp : ToolPaired messages) (ha : KeptApart messages boundary)
    (hb : ∀ b ∈ boundary, ∃ pivot, resolveBoundaryIndex messages b = .ok pivot) :
    ∃ r, autoCompact (fun _ _ => .ok summary) messages cmeta boundary preserveTail = .ok r ∧
      ToolPaired r.messages := by
  have hpv : ∀ b ∈ boundary.or (discoverBoundary messages preserveTail),
      ∃ pivot, resolveBoundaryIndex messages b = .ok pivot := by
    intro b hm
    rcases Option.or_eq_some_iff.mp hm with hm | ⟨-, hm⟩
    · exact hb b hm
    · exact (resolveBoundaryIndex_discoverBoundary hm).2.imp fun _ => And.left
  obtain ⟨candidates, hc⟩ := candidateIndexes_ok preserveTail hpv
  have hok : ∃ r, autoCompact (fun _ _ => .ok summary) messages cmeta boundary preserveTail = .ok r := by
    simp only [autoCompact, hc, bind, Except.bind]
    split_ifs <;> exact ⟨_, rfl⟩
  obtain ⟨r, hr⟩ := hok
  exact ⟨r, hr, ToolPaired.autoCompact hp ha hr⟩

/-- A conversation in the shape the loop builds: the task, a tool call with its
result, and an answer. -/
def toolTurn : List ChatMessage :=
  [.user "list the files", { role := .assistant, blocks := [.toolUse "c1" "glob" "\x7b\x7d"] },
    .toolResult "c1" "glob" "a.txt" false 1, .text .assistant "there is one file" 2]

/-- The compaction of that conversation drops the call together with its result. -/
theorem toolPaired_autoCompact_toolTurn :
    ∃ r, autoCompact (fun _ _ => .ok "looked around") toolTurn {} none 1 = .ok r ∧ ToolPaired r.messages := by
  refine toolPaired_autoCompact {} none 1 "looked around" (by decide) ?_ (by simp)
  intro i j m n hm hn hi hj e he f hf
  -- Only the first message is kept outright, and it has no tool block.
  rcases hi with ⟨k, hk, hs⟩ | hfr | ⟨b, p, hb, -⟩
  · have hno : ∀ k ∈ toolTurn, k.role ≠ .system := by decide
    exact absurd hs (hno k (mem_of_getElem? hk))
  · have h0 : firstUserIndex toolTurn = some 0 := by decide
    obtain rfl : i = 0 := by simpa [h0] using hfr
    obtain rfl : _ = m := Option.some.inj hm
    exact absurd he (not_mem_nil)
  · simp at hb

/-- **A result kept without its call**: the first user message may itself carry a
`ToolResult`, as providers that send tool results in user turns do; it is kept by
design while the call it answers is dropped. -/
theorem autoCompact_unpairs_first_user :
    ToolPaired [{ role := .assistant, blocks := [.toolUse "c1" "glob" "\x7b\x7d"] },
        { role := .user, blocks := [.toolResult "c1" "glob" "a.txt" false] },
        .text .assistant "there is one file" 2] ∧
      ∃ r, autoCompact (fun _ _ => .ok "looked around")
          [{ role := .assistant, blocks := [.toolUse "c1" "glob" "\x7b\x7d"] },
            { role := .user, blocks := [.toolResult "c1" "glob" "a.txt" false] },
            .text .assistant "there is one file" 2] {} none 1 = .ok r ∧
        ¬ ToolPaired r.messages := by
  refine ⟨by decide, _, rfl, ?_⟩
  decide

/-! ### Compaction conserves the conversation -/

section

variable (hb : boundary = none ∨ boundary = discoverBoundary messages preserveTail)
include hb

/-- The window ends before the protected tail. -/
theorem window_stop_le {window : CompactionWindow}
    (hw : resolveCompactionWindow messages preserveTail boundary = .ok window) :
    window.stop ≤ messages.length - preserveTail := by
  cases hs : boundary with
  | none =>
    obtain rfl : _ = window := Except.ok.inj (hs ▸ hw)
    exact min_le_left ..
  | some b =>
    have hf : discoverBoundary messages preserveTail = some b := by simpa [hs, eq_comm] using hb
    obtain ⟨hd, p, hp, hle⟩ := resolveBoundaryIndex_discoverBoundary hf
    simp only [hs, resolveCompactionWindow, hp, hd, bind, Except.bind, pure, Except.pure, Except.ok.injEq] at hw
    subst hw
    exact (min_le_left ..).trans hle

/-- What the candidates are, whatever they are summarised to: neither system messages, nor the first
user message, nor in the protected tail. -/
theorem mem_candidates (h : candidateIndexes messages preserveTail boundary = .ok candidates) (hi : i ∈ candidates) :
    ∃ m, messages[i]? = some m ∧ m.role ≠ .system ∧ some i ≠ firstUserIndex messages ∧
      i < messages.length - preserveTail := by
  obtain ⟨w, hw, rfl⟩ := candidateIndexes_eq h
  have hst := window_stop_le hb hw
  have ha : adjustKeepStartForInvariants messages w.stop w.start ≤ w.stop := by
    unfold adjustKeepStartForInvariants
    split_ifs
    · exact min_le_left ..
    · exact adjustLoop_le ..
  simp only [mem_map, mem_filter] at hi
  grind

end

/-- The messages that are not candidates, with their places. -/
def keptMessages (messages : List ChatMessage) (candidates : List ℕ) : List (ChatMessage × ℕ) :=
  messages.zipIdx.filter fun x => x.2 ∉ candidates

/-- Away from the first candidate, `apply_candidate_replacement` keeps what is no candidate. -/
theorem flatMap_replacement {f : Option ℕ} {ins : List ChatMessage} {l : List (ChatMessage × ℕ)}
    (h : ∀ x ∈ l, some x.2 ≠ f) :
    l.flatMap (fun x => (if some x.2 = f then ins else []) ++ if x.2 ∈ candidates then [] else [x.1]) =
      (l.filter fun x => x.2 ∉ candidates).map fst := by
  induction l with
  | nil => rfl
  | cons x l ih =>
    rw [flatMap_cons, ih fun y hy => h y (mem_cons_of_mem x hy), if_neg (h x mem_cons_self), filter_cons]
    by_cases hx : x.2 ∈ candidates <;> simp [hx]

/-- The replacement stands once among the kept messages, where the first candidate was. -/
theorem applyCandidateReplacement_eq (replacement : Option ChatMessage)
    (hlt : ∀ i ∈ candidates, i < messages.length) :
    ∃ b after, (keptMessages messages candidates).map fst = b ++ after ∧
      applyCandidateReplacement messages candidates replacement =
        b ++ (if candidates = [] then [] else replacement.toList) ++ after := by
  cases hf : candidates.min? with
  | none =>
    obtain rfl := min?_eq_none_iff.mp hf
    refine ⟨_, [], (append_nil _).symm, ?_⟩
    rw [if_pos rfl, append_nil, append_nil]
    exact flatMap_replacement (by simp)
  | some k =>
    have hk : k ∈ candidates := (min?_eq_some_iff.mp hf).1
    have hl := hlt k hk
    have hp : (messages[k], k) ∈ messages.zipIdx :=
      mk_mem_zipIdx_iff_getElem?.mpr (getElem?_eq_getElem _)
    obtain ⟨s, t, hsp⟩ := append_of_mem hp
    have hn : (messages.zipIdx.map snd).Nodup := zipIdx_map_snd .. ▸ nodup_range'
    rw [hsp, map_append, map_cons, nodup_middle, nodup_cons, mem_append] at hn
    have hs : ∀ x ∈ s, some x.2 ≠ some k := fun x hx h =>
      hn.1 (.inl (mem_map.mpr ⟨x, hx, Option.some.inj h⟩))
    have ht : ∀ x ∈ t, some x.2 ≠ some k := fun x hx h =>
      hn.1 (.inr (mem_map.mpr ⟨x, hx, Option.some.inj h⟩))
    refine ⟨(s.filter fun x => x.2 ∉ candidates).map fst, (t.filter fun x => x.2 ∉ candidates).map fst,
      by simp [keptMessages, hsp, hk], ?_⟩
    rw [applyCandidateReplacement, hf, hsp, flatMap_append, flatMap_cons]
    refine (congrArg₂ (· ++ ·) (flatMap_replacement hs)
      (congrArg₂ (· ++ ·) ?_ (flatMap_replacement ht))).trans (append_assoc ..).symm
    simp [hk, ne_nil_of_mem hk]

/-- **Compaction conserves what it must keep.** -/
theorem compaction_conserves (messages : List ChatMessage) (preserveTail : ℕ) (boundary : Option CompactionBoundary)
    (replacement : Option ChatMessage) (hb : boundary = none ∨ boundary = discoverBoundary messages preserveTail) :
    ∃ candidates before after, candidateIndexes messages preserveTail boundary = .ok candidates ∧
      -- The result is the kept messages in order, with at most one message inserted.
      applyCandidateReplacement messages candidates replacement =
        before ++ (if candidates = [] then [] else replacement.toList) ++ after ∧
      (keptMessages messages candidates).map Prod.fst = before ++ after ∧
      (before ++ after).Sublist messages ∧
      -- Every message is kept or is a candidate, and not both.
      (∀ i ∈ candidates, i < messages.length) ∧
      (∀ i m, messages[i]? = some m → ((m, i) ∈ keptMessages messages candidates ↔ i ∉ candidates)) ∧
      -- What is always kept.
      ∀ i m, messages[i]? = some m →
        m.role = .system ∨ some i = firstUserIndex messages ∨ messages.length - preserveTail ≤ i →
        (m, i) ∈ keptMessages messages candidates := by
  have hp : ∀ b ∈ boundary, ∃ pivot, resolveBoundaryIndex messages b = .ok pivot := by
    rintro b hmm
    rcases hb with rfl | rfl
    · simp at hmm
    · exact (resolveBoundaryIndex_discoverBoundary hmm).2.imp fun _ => And.left
  obtain ⟨candidates, hc⟩ := candidateIndexes_ok preserveTail hp
  have hlt := lt_of_mem_candidateIndexes hc
  have hk : ∀ i m, messages[i]? = some m → ((m, i) ∈ keptMessages messages candidates ↔ i ∉ candidates) := by
    intro i m hm
    simp [keptMessages, mk_mem_zipIdx_iff_getElem?, hm]
  obtain ⟨before, after, hs, hap⟩ := applyCandidateReplacement_eq replacement hlt
  refine ⟨candidates, before, after, hc, hap, hs, ?_, hlt, hk, fun i m hm ha => ?_⟩
  · rw [← hs]
    exact (filter_sublist.map fst).trans (zipIdx_map_fst .. ▸ List.Sublist.refl _)
  · refine (hk i m hm).mpr fun hi => ?_
    obtain ⟨n, hn, hr, hf, ht⟩ := mem_candidates hb hc hi
    obtain rfl : m = n := Option.some.inj (hm.symm.trans hn)
    rcases ha with h | h | h
    · exact hr h
    · exact hf h
    · omega

/-- A conversation with a tool call, compacted up to its last message: the summary stands between
the task and the answer. -/
theorem compaction_conserves_toolTurn :
    ∃ candidates before after, candidateIndexes toolTurn 1 none = .ok candidates ∧
      applyCandidateReplacement toolTurn candidates (some (.text .assistant "looked around" 3)) =
        before ++ [.text .assistant "looked around" 3] ++ after ∧
      (keptMessages toolTurn candidates).map Prod.fst = before ++ after ∧ (before ++ after).Sublist toolTurn := by
  obtain ⟨candidates, before, after, hc, hap, hk, hs, -⟩ :=
    compaction_conserves toolTurn 1 none (some (.text .assistant "looked around" 3)) (.inl rfl)
  obtain rfl : [1, 2] = candidates := Except.ok.inj hc
  exact ⟨[1, 2], before, after, hc, hap, hk, hs⟩

end XiaoO.Conversation
