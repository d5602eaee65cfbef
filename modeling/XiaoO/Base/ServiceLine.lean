import XiaoO.Base.Runs
import Mathlib.Data.Finset.Card

/-!
# A line in front of a server

Customers `ι` come to a server that takes up one at a time. A customer is counted first, and turned
down if the count has come to the limit; then the customer joins the end of the line, or gives up.
Those at the front of the line are taken up by the server or turned away with an answer; who is
taken up gets an answer later on, and only after that is the server free again. The count goes down
when somebody leaves the line or gives up.

## What is proved

Each step keeps the books (`Kept.step`): the count is the number of those who are counted and have
not left, the order in which customers are taken up is the order in which they joined, nobody is
answered twice, and who is neither in the line nor being served has an answer.
-/

namespace XiaoO.Base

open List Function

variable {ι ρ : Type*} [DecidableEq ι]

/-- How far a customer has come. -/
inductive Stage where
  | before
  /-- Counted, and not in the line yet. -/
  | counted
  /-- In the line, or through with it. -/
  | past
  deriving DecidableEq

/-- The server, the line and its books. -/
structure ServiceLine (ι ρ : Type*) where
  stage : ι → Stage
  count : ℕ
  /-- All who ever joined the line, in their order. -/
  joined : List ι
  line : List ι
  /-- All who were ever taken up, in their order. -/
  served : List ι
  /-- Whom the server is busy with. -/
  busy : Option ι
  /-- Who was taken up and has no answer yet. -/
  unanswered : List ι
  answers : List (ι × ρ)

namespace ServiceLine

def answered (s : ServiceLine ι ρ) : List ι := s.answers.map Prod.fst

/-- What can happen in front of the server. -/
inductive Step (limit : ℕ) (s : ServiceLine ι ρ) : ServiceLine ι ρ → Prop
  | stay : Step limit s s
  /-- A customer comes or goes who is not counted. -/
  | move (i : ι) {stage : Stage} (hbefore : s.stage i ≠ .counted) (hafter : stage ≠ .counted)
      (hback : stage = .before → s.stage i = .before) :
        Step limit s { s with stage := Function.update s.stage i stage }
  | count (i : ι) (hstage : s.stage i = .before) (hlimit : s.count < limit) :
      Step limit s { s with stage := Function.update s.stage i .counted, count := s.count + 1 }
  | join (i : ι) (hstage : s.stage i = .counted) :
      Step limit s { s with
        stage := Function.update s.stage i .past, joined := s.joined ++ [i], line := s.line ++ [i] }
  | giveUp (i : ι) (hstage : s.stage i = .counted) :
      Step limit s { s with stage := Function.update s.stage i .past, count := s.count - 1 }
  | turnAway (away rest : List ι) (r : ρ) (hline : s.line = away ++ rest) :
      Step limit s { s with
        line := rest, count := s.count - away.length, answers := s.answers ++ away.map fun i => (i, r) }
  | takeUp (i : ι) (rest : List ι) (hline : s.line = i :: rest) (hfree : s.busy = none) :
      Step limit s { s with
        line := rest, count := s.count - 1, served := s.served ++ [i], busy := some i, unanswered :=
          i :: s.unanswered }
  | answer (i : ι) (r : ρ) (hserved : i ∈ s.unanswered) :
      Step limit s { s with unanswered := s.unanswered.erase i, answers := s.answers ++ [(i, r)] }
  | done (i : ι) (hbusy : s.busy = some i) (hanswered : i ∉ s.unanswered) : Step limit s { s with busy := none }

/-- Who is counted and has not left. -/
def Outstanding (s : ServiceLine ι ρ) (i : ι) : Prop :=
  (s.stage i = .counted ∨ i ∈ s.joined) ∧ i ∉ s.served ∧ i ∉ s.answered

/-- The books are right. -/
structure Kept (limit : ℕ) (s : ServiceLine ι ρ) : Prop where
  /-- The count is of those who are about to join and of those in the line. -/
  count : ∃ about : Finset ι, (∀ i, i ∈ about ↔ s.stage i = .counted) ∧ s.count = about.card + s.line.length
  count_le : s.count ≤ limit
  past : ∀ i ∈ s.joined, s.stage i = .past
  nodup : s.joined.Nodup
  /-- Who left the line did so from the front, and was taken up or has an answer. -/
  gone : ∃ gone, s.joined = gone ++ s.line ∧ s.served.Sublist gone ∧ s.answered ⊆ gone ∧
    ∀ i ∈ gone, i ∈ s.answered ∨ i ∈ s.unanswered
  once : s.answered.Nodup
  unanswered : ∀ i ∈ s.unanswered, i ∈ s.served ∧ i ∉ s.answered ∧ s.busy = some i
  single : s.unanswered.Nodup

variable {l : ℕ} {s s' : ServiceLine ι ρ} {i : ι}

/-! ### What the books say -/

namespace Kept

omit [DecidableEq ι] in
/-- Who is in the line has joined it, and nothing else has happened to them. -/
theorem mem_line (h : Kept l s) : i ∈ s.line ↔ i ∈ s.joined ∧ i ∉ s.served ∧ i ∉ s.answered := by
  obtain ⟨g, hjn, hs, ha, hg⟩ := h.gone
  have hnd : (g ++ s.line).Nodup := hjn ▸ h.nodup
  have hd : ∀ j ∈ g, j ∉ s.line := fun j hj hl => disjoint_of_nodup_append hnd hj hl
  constructor
  · intro hl
    refine ⟨?_, ?_, ?_⟩
    · rw [hjn]
      exact mem_append_right g hl
    · exact fun hm => hd i (hs.subset hm) hl
    · exact fun hm => hd i (ha hm) hl
  · rintro ⟨hm, hns, hn⟩
    rw [hjn, mem_append] at hm
    rcases hm with hm | hm
    · -- who has left the line was taken up or has an answer
      rcases hg i hm with han | hun
      · exact absurd han hn
      · exact absurd (h.unanswered i hun).1 hns
    · exact hm

omit [DecidableEq ι] in
theorem nodup_line (h : Kept l s) : s.line.Nodup := by
  obtain ⟨g, hj, -⟩ := h.gone
  exact (nodup_append.mp (hj ▸ h.nodup)).2.1

/-- **The count** is the number of those who are counted and have not left. -/
theorem count_eq (h : Kept l s) : ∃ o : Finset ι, (∀ i, i ∈ o ↔ s.Outstanding i) ∧ s.count = o.card := by
  obtain ⟨a, hab, hc⟩ := h.count
  have hj : ∀ i, s.stage i = .counted → i ∉ s.joined := fun i hi hm => by
    rw [h.past i hm] at hi
    cases hi
  have hf : ∀ i, s.stage i = .counted → i ∉ s.served ∧ i ∉ s.answered := fun i hi => by
    obtain ⟨gone, hal, hs, ha, -⟩ := h.gone
    have hg : i ∉ gone := fun hm => hj i hi (hal ▸ mem_append_left _ hm)
    exact ⟨fun hm => hg (hs.subset hm), fun hm => hg (ha hm)⟩
  refine ⟨a ∪ s.line.toFinset, fun i => ?_, ?_⟩
  · rw [Finset.mem_union, hab, mem_toFinset, h.mem_line, Outstanding]
    constructor
    · rintro (hi | ⟨hi, hr⟩)
      · exact ⟨.inl hi, hf i hi⟩
      · exact ⟨.inr hi, hr⟩
    · rintro ⟨hi | hi, hr⟩
      · exact .inl hi
      · exact .inr ⟨hi, hr⟩
  · have hd : Disjoint a s.line.toFinset := by
      refine Finset.disjoint_left.mpr fun i hi hl => ?_
      exact hj i ((hab i).mp hi) (h.mem_line.mp (mem_toFinset.mp hl)).1
    rw [Finset.card_union_of_disjoint hd, toFinset_card_of_nodup h.nodup_line, hc]

section

omit [DecidableEq ι]

/-- The order of the line is kept. -/
theorem served_sublist (h : Kept l s) : s.served.Sublist s.joined := by
  obtain ⟨g, hj, hs, -⟩ := h.gone
  rw [hj]
  exact hs.trans (sublist_append_left g s.line)

theorem answered_subset (h : Kept l s) : s.answered ⊆ s.joined := by
  obtain ⟨g, hjn, -, ha, -⟩ := h.gone
  intro j hj
  rw [hjn]
  exact mem_append_left _ (ha hj)

/-- With nobody in the line and nobody being served, everybody has an answer. -/
theorem all_answered (h : Kept l s) (hl : s.line = []) (hu : s.unanswered = []) : s.joined ⊆ s.answered := by
  obtain ⟨g, hjn, -, -, hg⟩ := h.gone
  intro j hj
  rw [hjn, hl, append_nil] at hj
  rcases hg j hj with ha | hun
  · exact ha
  · rw [hu] at hun
    cases hun

theorem length_le_count (h : Kept l s) : s.line.length ≤ s.count := by
  obtain ⟨a, -, hc⟩ := h.count
  omega

theorem count_pos (h : Kept l s) (hs : s.stage i = .counted) : 0 < s.count := by
  obtain ⟨a, ha, hc⟩ := h.count
  have hp : 0 < a.card := Finset.card_pos.mpr ⟨i, (ha i).mpr hs⟩
  omega

end

/-! ### What a step does to the books -/

variable (h : Kept l s)
include h

theorem move {stage : Stage} (hb : s.stage i ≠ .counted) (haf : stage ≠ .counted)
    (hbc : stage = .before → s.stage i = .before) : Kept l { s with stage := update s.stage i stage } := by
  obtain ⟨about, ha, hc⟩ := h.count
  refine { h with count := ⟨about, fun k => ?_, hc⟩, past := fun k hk => ?_ }
  · by_cases hki : k = i
    · simp [hki, ha, hb, haf]
    · simp [hki, ha]
  · by_cases hki : k = i
    · have hp := h.past k hk
      rw [hki] at hp ⊢
      show update s.stage i stage i = _
      rw [update_self]
      cases stage with
      | before =>
        rw [hbc rfl] at hp
        cases hp
      | counted => exact absurd rfl haf
      | past => rfl
    · show update s.stage i stage k = _
      rw [update_of_ne hki, h.past k hk]

omit [DecidableEq ι] in
/-- Whoever is not past the line has not joined it. -/
theorem not_mem_joined (hs : s.stage i ≠ .past) : i ∉ s.joined :=
  fun hm => hs (h.past i hm)

theorem countIn (hs : s.stage i = .before) (hl : s.count < l) :
    Kept l { s with stage := update s.stage i .counted, count := s.count + 1 } := by
  obtain ⟨about, ha, hc⟩ := h.count
  have hn : i ∉ about := by simp [ha, hs]
  have hj : i ∉ s.joined := h.not_mem_joined (by simp [hs])
  refine { h with count := ⟨insert i about, fun k => ?_, ?_⟩, count_le := hl, past := fun k hk => ?_ }
  · by_cases hki : k = i
    · simp [hki]
    · simp [hki, ha]
  · show s.count + 1 = _ + s.line.length
    rw [Finset.card_insert_of_notMem hn, hc]
    omega
  · have hki : k ≠ i := fun heq => hj (heq ▸ hk)
    show update s.stage i .counted k = _
    rw [update_of_ne hki, h.past k hk]

theorem count_erase (hs : s.stage i = .counted) :
    ∃ about : Finset ι, (∀ k, k ∈ about ↔ update s.stage i .past k = .counted) ∧
      s.count = about.card + 1 + s.line.length := by
  obtain ⟨about, ha, hc⟩ := h.count
  have hm : i ∈ about := (ha i).mpr hs
  refine ⟨about.erase i, fun k => ?_, ?_⟩
  · by_cases hki : k = i
    · simp [hki]
    · simp [hki, ha]
  · have hp : 0 < about.card := Finset.card_pos.mpr ⟨i, hm⟩
    rw [Finset.card_erase_of_mem hm, hc]
    omega

theorem past_update : ∀ k ∈ s.joined, update s.stage i .past k = .past := by
  intro k hk
  by_cases hki : k = i
  · rw [hki, update_self]
  · rw [update_of_ne hki, h.past k hk]

theorem join (hs : s.stage i = .counted) : Kept l { s with
      stage := update s.stage i .past, joined := s.joined ++ [i], line := s.line ++ [i] } := by
  obtain ⟨about, hab, hc⟩ := h.count_erase hs
  obtain ⟨gone, hj, hsr, ha, hg⟩ := h.gone
  have hn : i ∉ s.joined := h.not_mem_joined (by simp [hs])
  refine { h with
    count := ⟨about, hab, ?_⟩
    past := fun k hk => ?_
    nodup := ?_
    gone := ⟨gone, ?_, hsr, ha, hg⟩ }
  · simp only [length_append, length_singleton]
    omega
  · rcases mem_append.mp hk with hk | hk
    · exact h.past_update k hk
    · rw [mem_singleton.mp hk]
      exact update_self i .past s.stage
  · exact nodup_append_comm.mp (nodup_cons.mpr ⟨hn, h.nodup⟩)
  · show s.joined ++ [i] = gone ++ (s.line ++ [i])
    rw [hj, append_assoc]

theorem giveUp (hs : s.stage i = .counted) :
    Kept l { s with stage := update s.stage i .past, count := s.count - 1 } := by
  obtain ⟨about, ha, hc⟩ := h.count_erase hs
  refine { h with
    count := ⟨about, ha, ?_⟩
    count_le := (Nat.sub_le _ _).trans h.count_le
    past := h.past_update }
  show s.count - 1 = _ + s.line.length
  omega

omit [DecidableEq ι] in
theorem turnAway {away rest : List ι} (r : ρ) (hl : s.line = away ++ rest) : Kept l { s with
      line := rest, count := s.count - away.length, answers := s.answers ++ away.map fun i => (i, r) } := by
  obtain ⟨about, hab, hc⟩ := h.count
  obtain ⟨gone, hj, hs, han, hg⟩ := h.gone
  have hn : ∀ i ∈ away, i ∉ s.served ∧ i ∉ s.answered := fun i hi =>
    (h.mem_line.mp (hl ▸ mem_append_left rest hi)).2
  have ha : (s.answers ++ away.map fun i => (i, r)).map Prod.fst = s.answered ++ away := by
    rw [map_append, map_map, answered]
    congr 1
    exact map_id' away
  have hnd : away.Nodup := (nodup_append.mp (hl ▸ h.nodup_line)).1
  refine { h with
    count := ⟨about, hab, ?_⟩
    count_le := (Nat.sub_le _ _).trans h.count_le
    gone := ⟨gone ++ away, ?_, hs.trans (sublist_append_left gone away), ?_, fun i hi => ?_⟩
    once := ?_
    unanswered := fun i hi => ?_ }
  · show s.count - away.length = about.card + rest.length
    rw [hc, hl, length_append]
    omega
  · show s.joined = gone ++ away ++ rest
    rw [hj, hl, append_assoc]
  · intro i hi
    rw [answered, ha, mem_append] at hi
    exact mem_append.mpr (hi.imp (@han i) id)
  · rw [answered, ha, mem_append]
    rcases mem_append.mp hi with hi | hi
    · exact (hg i hi).imp .inl id
    · exact .inl (.inr hi)
  · rw [answered, ha]
    exact List.Nodup.append h.once hnd fun i hi hi' => (hn i hi').2 hi
  · obtain ⟨hsv, hna, hb⟩ := h.unanswered i hi
    refine ⟨hsv, ?_, hb⟩
    rw [answered, ha, mem_append]
    rintro (hm | hm)
    · exact hna hm
    · exact (hn i hm).1 hsv

omit [DecidableEq ι] in
theorem takeUp {rest : List ι} (hl : s.line = i :: rest) (hf : s.busy = none) : Kept l { s with
      line := rest, count := s.count - 1, served := s.served ++ [i], busy := some i
      unanswered := i :: s.unanswered } := by
  obtain ⟨about, hab, hc⟩ := h.count
  obtain ⟨gone, hj, hs, ha, hg⟩ := h.gone
  obtain ⟨-, -, hna⟩ := h.mem_line.mp (hl ▸ mem_cons_self)
  -- a free server has nobody to answer
  have hn : s.unanswered = [] := eq_nil_iff_forall_not_mem.mpr fun k hk => by
    have hb := (h.unanswered k hk).2.2
    rw [hf] at hb
    cases hb
  refine { h with
    count := ⟨about, hab, ?_⟩
    count_le := (Nat.sub_le _ _).trans h.count_le
    gone := ⟨gone ++ [i], ?_, hs.append (List.Sublist.refl [i]), ?_, fun k hk => ?_⟩
    unanswered := fun k hk => ?_
    single := ?_ }
  · show s.count - 1 = about.card + rest.length
    rw [hc, hl, length_cons]
    omega
  · show s.joined = gone ++ [i] ++ rest
    rw [hj, hl, append_assoc]
    rfl
  · exact fun k hk => mem_append_left _ (ha hk)
  · rcases mem_append.mp hk with hk | hk
    · exact (hg k hk).imp id (mem_cons_of_mem i)
    · rw [mem_singleton.mp hk]
      exact .inr mem_cons_self
  · simp only [hn, mem_singleton] at hk
    subst hk
    exact ⟨mem_append_right _ (mem_singleton.mpr rfl), hna, rfl⟩
  · simp [hn]

theorem answer (r : ρ) (hsr : i ∈ s.unanswered) :
    Kept l { s with unanswered := s.unanswered.erase i, answers := s.answers ++ [(i, r)] } := by
  obtain ⟨gone, hj, hs, han, hg⟩ := h.gone
  obtain ⟨hsv, hna, -⟩ := h.unanswered i hsr
  have ha : (s.answers ++ [(i, r)]).map Prod.fst = s.answered ++ [i] := map_append
  refine { h with
    gone := ⟨gone, hj, hs, fun k hk => ?_, fun k hk => ?_⟩
    once := ?_
    unanswered := fun k hk => ?_
    single := h.single.erase i }
  · rw [answered, ha] at hk
    rcases mem_append.mp hk with hk | hk
    · exact han hk
    · rw [mem_singleton.mp hk]
      exact hs.subset hsv
  · rw [answered, ha, mem_append, mem_singleton]
    by_cases hki : k = i
    · exact .inl (.inr hki)
    · exact (hg k hk).imp .inl (mem_erase_of_ne hki).mpr
  · rw [answered, ha]
    exact nodup_append_comm.mp (nodup_cons.mpr ⟨hna, h.once⟩)
  · obtain ⟨hki, hk⟩ := h.single.mem_erase_iff.mp hk
    obtain ⟨hsk, hn, hb⟩ := h.unanswered k hk
    refine ⟨hsk, ?_, hb⟩
    rw [answered, ha, mem_append, mem_singleton]
    rintro (hm | hm)
    · exact hn hm
    · exact hki hm

/-- **A step keeps the books.** -/
theorem step (hst : Step l s s') : Kept l s' := by
  cases hst with
  | stay => exact h
  | move i hb haf hbc => exact h.move hb haf hbc
  | count i hs hlm => exact h.countIn hs hlm
  | join i hs => exact h.join hs
  | giveUp i hs => exact h.giveUp hs
  | turnAway a rs r hl => exact h.turnAway r hl
  | takeUp i rs hl hf => exact h.takeUp hl hf
  | answer i r hsr => exact h.answer r hsr
  | done i hbs ha =>
    refine { h with unanswered := fun k hk => ?_ }
    -- whoever is without an answer is the one the server is busy with
    obtain ⟨-, -, hk'⟩ := h.unanswered k hk
    have hki : k = i := Option.some.inj (hk'.symm.trans hbs)
    exact absurd (hki ▸ hk) ha

end Kept

end ServiceLine

end XiaoO.Base
