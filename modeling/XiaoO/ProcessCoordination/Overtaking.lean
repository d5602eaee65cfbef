import XiaoO.ProcessCoordination.Coordinator

/-!
# How long a request waits

A request that was queued waits for at most two batches: the one that holds when it arrives, and, if
that is of its own group and the other group has a queue too, the one that follows. Nobody else is
admitted in between, as a batch is sealed from the moment when somebody waits, and the queue of a
group is let in as a whole.

## What is proved

What a step does to somebody who waits (`waiting_step`), and from it, by induction over the steps
after the arrival: when the request is admitted at the latest, and who is admitted before
(`bounded_overtaking`).
-/

namespace XiaoO.ProcessCoordination

open XiaoO.Base List SortedMap Option

variable {s t u : State} {a : Act} {as : List Act} {r : ℕ} {group : Group}

/-- The release brings the holders to 0. -/
def State.empties (s : State) : Act → Bool
  | .drop id => (s.entries.get? id).any fun entry => (s.remove id entry).holders = 0
  | _ => false

/-- How many releases of a run bring the holders to 0. -/
def emptyings (s : State) : List Act → ℕ
  | [] => 0
  | a :: as =>
    match step s a with
    | none => 0
    | some t => (if s.empties a then 1 else 0) + emptyings t as

/-- The batch that the first of these lets in. -/
def nextBatch (s : State) : List Act → List ℕ
  | [] => []
  | a :: as =>
    match step s a with
    | none => []
    | some t => if s.empties a then t.holding else nextBatch t as

/-! ### Sealed batches -/

/-- Who waits has sealed the batch, and comes after those of the group who hold. -/
structure Sealed (s : State) : Prop where
  sealed : ∀ {group}, s.queues group ≠ [] → s.sealed = true
  later : ∀ {i r entry}, s.entries.get? i = some entry → entry.admitted = true → r ∈ s.queues entry.group → i < r

theorem sealed_default : Sealed {} where
  sealed hq := absurd rfl hq
  later he := by cases he

theorem Consistent.mem_queues (h : Consistent s) :
    r ∈ s.queues group ↔ ∃ e, s.entries.get? r = some e ∧ e.group = group ∧ e.admitted = false := by
  rw [h.queued, mem_waiting]

/-- Who leaves makes no queue longer. -/
theorem Consistent.queues_remove_subset (h : Consistent s) {id : ℕ} {en : Entry}
    (he : s.entries.get? id = some en) : (s.remove id en).queues group ⊆ s.queues group := by
  intro r hr
  obtain ⟨e, hg, hk⟩ := (h.remove he).mem_queues.mp hr
  rw [remove_entries, get?_erase] at hg
  split_ifs at hg
  exact h.mem_queues.mpr ⟨e, hg, hk⟩

/-- Nobody is active only if nobody holds. -/
theorem Inv.exists_active (h : Inv s) (hr : r ∈ s.queues group) : ∃ previous, s.active = some previous := by
  have hh : s.holding ≠ [] := fun hn => by
    have hz : s.holders = 0 := by rw [h.holders, hn]; rfl
    rw [h.stranded hz] at hr
    cases hr
  obtain ⟨i, hi⟩ := exists_mem_of_ne_nil _ hh
  obtain ⟨e, he, ha⟩ := mem_holding.mp hi
  exact ⟨e.group, h.active he ha⟩

/-- While somebody of the group waits, no request of it is admitted at once. -/
theorem Inv.closed (h : Inv s) (hs : Sealed s) {g' : Group} (hr : r ∈ s.queues group) :
    ¬(s.active = none ∨ s.active = some g' ∧ s.sealed = false) := by
  rintro (hn | ⟨-, ho⟩)
  · obtain ⟨p, ha⟩ := h.exists_active hr
    cases hn.symm.trans ha
  · rw [hs.sealed (ne_nil_of_mem hr)] at ho
    cases ho

theorem Sealed.step (h : Inv s) (hs : Sealed s) (hst : step s a = some t) : Sealed t := by
  have hin := h.step hst
  cases step_effect hst with
  | admitted hop =>
    refine ⟨fun hq => hs.sealed hq, fun {i r en} hg ha hr => ?_⟩
    exact absurd hop (h.closed hs hr)
  | queued =>
    refine ⟨fun _ => rfl, fun {i r en} hg ha hr => ?_⟩
    rw [get?_insert] at hg
    split_ifs at hg with hi
    · cases hg
      cases ha
    · obtain ⟨e, hr', hk⟩ := hin.mem_queues.mp hr
      rw [get?_insert] at hr'
      split_ifs at hr' with hnw
      · exact hnw ▸ h.fresh hg
      · exact hs.later hg ha (h.mem_queues.mpr ⟨e, hr', hk⟩)
  | ready => exact hs
  | pending he hw =>
    refine ⟨fun hq => hs.sealed hq, fun {i r en} hg ha hr => ?_⟩
    rw [get?_insert] at hg
    split_ifs at hg with hi
    · cases hg
      rw [hw] at ha
      cases ha
    · exact hs.later hg ha hr
  | left he =>
    have hsm : ∀ id en, (s.remove id en).sealed = s.sealed := by
      intro id en
      rw [State.remove]
      split_ifs <;> rfl
    refine ⟨fun {group} hq => ?_, fun {i r e} hg ha hr => ?_⟩
    · obtain ⟨r, hr⟩ := exists_mem_of_ne_nil _ hq
      rw [hsm]
      exact hs.sealed (ne_nil_of_mem (h.queues_remove_subset he hr))
    · rw [remove_entries, get?_erase] at hg
      split_ifs at hg
      exact hs.later hg ha (h.queues_remove_subset he hr)
  | handedOver he hh ho =>
    refine ⟨fun _ => ho.sealed, fun {i r e} hg ha hr => ?_⟩
    -- the queue of those who hold has been let in
    have hgr := ho.active.symm.trans (hin.active hg ha)
    rw [← some.inj hgr, ho.queues, Function.update_self] at hr
    cases hr
  | emptied he hh hn =>
    refine ⟨fun hq => absurd (next?_eq_none hn _) hq, fun {i r e} hg ha hr => ?_⟩
    rw [show State.queues _ e.group = [] from next?_eq_none hn _] at hr
    cases hr

/-- What holds between the steps of a run. -/
structure Steady (s : State) : Prop extends Inv s, Sealed s

theorem Steady.step (h : Steady s) (hst : ProcessCoordination.step s a = some t) : Steady t where
  toInv := h.toInv.step hst
  toSealed := h.toSealed.step h.toInv hst

theorem steady_of_run (hr : RunUnder step Always s u) (h : Steady s) : Steady u := hr.invariant h fun h _ => h.step

/-! ### Who waits and who holds -/

/-- Who holds and does not leave goes on holding. -/
theorem holding_step (h : Inv s) (hr : r ∈ s.holding) (hs : a ≠ .drop r) (hst : step s a = some t) :
    r ∈ t.holding := by
  obtain ⟨entry, hg, ha⟩ := mem_holding.mp hr
  have ho : r ≠ s.nextId := (h.fresh hg).ne
  have hrm {id : ℕ} {e : Entry} (hid : a = .drop id) : (s.remove id e).entries.get? r = some entry := by
    have hne : r ≠ id := fun heq => hs (heq ▸ hid)
    rw [remove_entries, get?_erase, if_neg hne, hg]
  cases step_effect hst with
  | admitted | queued =>
    rw [mem_holding, get?_insert, if_neg ho]
    exact ⟨entry, hg, ha⟩
  | ready => exact hr
  | pending he hw =>
    rw [mem_holding, get?_insert]
    split_ifs with hid
    · subst hid
      rw [hg] at he
      cases he
      rw [hw] at ha
      cases ha
    · exact ⟨entry, hg, ha⟩
  | left | emptied => exact mem_holding.mpr ⟨entry, hrm rfl, ha⟩
  | handedOver he hh hov =>
    rw [mem_holding, hov.entries, hrm rfl]
    split_ifs
    · exact ⟨entry.letIn, rfl, rfl⟩
    · exact ⟨entry, rfl, ha⟩

/-- Who waits goes on waiting, and nobody else is admitted. -/
structure StillWaits (r : ℕ) (group : Group) (s t : State) : Prop where
  waits : r ∈ t.waiting group
  active : t.active = s.active
  holding : t.holding ⊆ s.holding

/-- Who waits sees the other group come. -/
structure OtherGroupFirst (r : ℕ) (group : Group) (s t : State) : Prop where
  waits : r ∈ t.waiting group
  before : s.active = some group
  after : t.active = some group.opposite

theorem Group.eq_or_eq_opposite (g g' : Group) : g = g' ∨ g = g'.opposite := by
  cases g <;> cases g' <;> decide

theorem Group.opposite_opposite (g : Group) : g.opposite.opposite = g := by
  cases g <;> rfl

/-- The batch after the last holder has left is the queue of the one who waits, or else that of the
other group. -/
theorem HandedOver.cases {p next : Group} (ho : HandedOver s p next t) (h : Consistent s)
    (hr : r ∈ s.waiting group) :
    r ∈ t.holding ∨ r ∈ t.waiting group ∧ p = group ∧ t.active = some group.opposite := by
  obtain ⟨e, hgt, hg, hw⟩ := mem_waiting.mp hr
  have hq : r ∈ s.queues group := h.queued group ▸ hr
  rcases Group.eq_or_eq_opposite next group with rfl | rfl
  · left
    rw [mem_holding, ho.entries, if_pos hq, hgt]
    exact ⟨e.letIn, rfl, rfl⟩
  · right
    have hnt : r ∉ s.queues group.opposite := by
      intro hop
      obtain ⟨e', hgt', hg', -⟩ := h.mem_queues.mp hop
      rw [hgt] at hgt'
      cases hgt'
      rw [hg] at hg'
      cases group <;> cases hg'
    refine ⟨?_, ?_, ho.active⟩
    · rw [mem_waiting, ho.entries, if_neg hnt]
      exact ⟨e, hgt, hg, hw⟩
    · rcases (next?_eq_some ho.next).2 with hn | ⟨hn, he⟩
      · rw [← Group.opposite_opposite p, ← hn, Group.opposite_opposite]
      · rw [← hn, Group.opposite_opposite] at he
        rw [he] at hq
        cases hq

theorem holding_insert_subset {id : ℕ} {en : Entry} (ht : t.entries = s.entries.insert id en)
    (hw : en.admitted = false) : t.holding ⊆ s.holding := by
  intro i hi
  obtain ⟨e, hg, ha⟩ := mem_holding.mp hi
  rw [ht, get?_insert] at hg
  split_ifs at hg
  · cases hg
    cases hw.symm.trans ha
  · exact mem_holding.mpr ⟨e, hg, ha⟩

/-- **What a step does to somebody who waits.** -/
theorem waiting_step (h : Steady s) (hr : r ∈ s.waiting group) (hst : a ≠ .drop r) (hsp : step s a = some t) :
    s.empties a = false ∧ StillWaits r group s t ∨
      s.empties a = true ∧ (r ∈ t.holding ∨ OtherGroupFirst r group s t) := by
  have hq : r ∈ s.queues group := h.queued group ▸ hr
  obtain ⟨en, hg, hk⟩ := mem_waiting.mp hr
  have hrm {id : ℕ} {e : Entry} (hid : a = .drop id) : r ∈ (s.remove id e).waiting group := by
    have hne : r ≠ id := fun heq => hst (heq ▸ hid)
    rw [mem_waiting, remove_entries, get?_erase, if_neg hne]
    exact ⟨en, hg, hk⟩
  cases step_effect hsp with
  | admitted hop => exact absurd hop (h.closed h.toSealed hq)
  | queued =>
    refine .inl ⟨rfl, ?_, rfl, holding_insert_subset rfl rfl⟩
    rw [mem_waiting, get?_insert, if_neg (h.fresh hg).ne]
    exact ⟨en, hg, hk⟩
  | ready => exact .inl ⟨rfl, hr, rfl, List.Subset.refl _⟩
  | pending he hw =>
    refine .inl ⟨rfl, ?_, rfl, holding_insert_subset rfl hw⟩
    rw [mem_waiting, get?_insert]
    split_ifs with hid
    · subst hid
      rw [hg] at he
      cases he
      exact ⟨_, rfl, hk⟩
    · exact ⟨en, hg, hk⟩
  | left he hh =>
    refine .inl ⟨by simp [State.empties, he, hh], hrm rfl, remove_active s _ _, fun i hi => ?_⟩
    obtain ⟨e, hi, had⟩ := mem_holding.mp hi
    rw [remove_entries, get?_erase] at hi
    split_ifs at hi
    exact mem_holding.mpr ⟨e, hi, had⟩
  | handedOver he hh ho =>
    refine .inr ⟨by simp [State.empties, he, hh], ?_⟩
    obtain ⟨p, ha⟩ := h.exists_active hq
    rw [ha, getD_some] at ho
    rcases ho.cases (h.remove he) (hrm rfl) with hhl | ⟨hw, rfl, haf⟩
    · exact .inl hhl
    · exact .inr ⟨hw, ha, haf⟩
  | emptied he hh hn =>
    have hem := next?_eq_none hn group
    rw [(h.remove he).queued] at hem
    exact absurd (hem ▸ hrm rfl) not_mem_nil

/-! ### The course of a run -/

theorem holding_run (h : Inv s) (hr : r ∈ s.holding) (hst : .drop r ∉ as) (hrn : exec step Always as s = some u) :
    r ∈ u.holding := by
  induction as generalizing s with
  | nil =>
    cases hrn
    exact hr
  | cons a as ih =>
    obtain ⟨hf, hl⟩ := ne_and_not_mem_of_not_mem_cons hst
    obtain ⟨-, t, hs, hrs⟩ := exec_cons_eq_some.mp hrn
    exact ih (h.step hs) (holding_step h hr (Ne.symm hf) hs) hl hrs

theorem waiting_not_holding (hw : r ∈ s.waiting group) : r ∉ s.holding := by
  intro hh
  obtain ⟨e, hg, -, hn⟩ := mem_waiting.mp hw
  obtain ⟨e', hg', ha⟩ := mem_holding.mp hh
  rw [hg] at hg'
  cases hg'
  rw [hn] at ha
  cases ha

section

variable (h : Steady s) (hr : r ∈ s.waiting group) (hst : .drop r ∉ as) (hrn : exec step Always as s = some u)
include h hr hst hrn

/-- The second release that brings the holders to 0 is always enough, and under the other group the
first one. -/
theorem admitted_of_emptyings
    (hc : 2 ≤ emptyings s as ∨ s.active = some group.opposite ∧ 1 ≤ emptyings s as) : r ∈ u.holding := by
  induction as generalizing s with
  | nil => rcases hc with hc | ⟨-, hc⟩ <;> cases hc
  | cons a as ih =>
    obtain ⟨hf, hl⟩ := ne_and_not_mem_of_not_mem_cons hst
    obtain ⟨-, t, hs, hrs⟩ := exec_cons_eq_some.mp hrn
    rw [emptyings, hs] at hc
    rcases waiting_step h hr (Ne.symm hf) hs with ⟨he, hw⟩ | ⟨he, hh | ho⟩
    · refine ih (h.step hs) hw.waits hl hrs ?_
      rw [hw.active]
      simpa [he] using hc
    · exact holding_run (h.toInv.step hs) hh hl hrs
    · refine ih (h.step hs) ho.waits hl hrs (.inr ⟨ho.after, ?_⟩)
      simp only [he, if_true] at hc
      rcases hc with hc | ⟨ha, -⟩
      · omega
      · have hg := some.inj (ha.symm.trans ho.before)
        cases group <;> cases hg

/-- Until then it waits. -/
theorem waiting_of_no_emptying (hc : emptyings s as = 0) : StillWaits r group s u := by
  induction as generalizing s with
  | nil =>
    cases hrn
    exact ⟨hr, rfl, List.Subset.refl _⟩
  | cons a as ih =>
    obtain ⟨hf, hl⟩ := ne_and_not_mem_of_not_mem_cons hst
    obtain ⟨-, t, hs, hrs⟩ := exec_cons_eq_some.mp hrn
    rw [emptyings, hs] at hc
    rcases waiting_step h hr (Ne.symm hf) hs with ⟨he, hw⟩ | ⟨he, -⟩
    · obtain ⟨hen, ha, hh⟩ := ih (h.step hs) hw.waits hl hrs (by simpa [he] using hc)
      exact ⟨hen, ha.trans hw.active, List.Subset.trans hh hw.holding⟩
    · simp [he] at hc

/-- Who holds while the request waits held at the start, or is of the next batch. -/
theorem holding_subset (hw : r ∈ u.waiting group) : u.holding ⊆ s.holding ++ nextBatch s as := by
  induction as generalizing s with
  | nil =>
    cases hrn
    exact subset_append_left _ _
  | cons a as ih =>
    obtain ⟨hf, hl⟩ := ne_and_not_mem_of_not_mem_cons hst
    obtain ⟨-, t, hs, hrs⟩ := exec_cons_eq_some.mp hrn
    rw [nextBatch, hs]
    rcases waiting_step h hr (Ne.symm hf) hs with ⟨he, hwt⟩ | ⟨he, hh | ho⟩
    · have hsb := ih (h.step hs) hwt.waits hl hrs
      simp only [he]
      intro i hi
      rcases mem_append.mp (hsb hi) with hol | hn
      · exact mem_append_left _ (hwt.holding hol)
      · exact mem_append_right _ hn
    · exact absurd (holding_run (h.toInv.step hs) hh hl hrs) (waiting_not_holding hw)
    · -- the other group came, and there was no further release that brought the holders to 0
      have hz : emptyings t as = 0 := by
        by_contra hne
        refine waiting_not_holding hw ?_
        exact admitted_of_emptyings (h.step hs) ho.waits hl hrs (.inr ⟨ho.after, Nat.pos_of_ne_zero hne⟩)
      have hsm := waiting_of_no_emptying (h.step hs) ho.waits hl hrs hz
      simp only [he, if_true]
      exact List.Subset.trans hsm.holding (subset_append_right _ _)

end

theorem nextBatch_append_subset (as bs : List Act) : nextBatch s as ⊆ nextBatch s (as ++ bs) := by
  induction as generalizing s with
  | nil => exact nil_subset _
  | cons a as ih =>
    rw [cons_append, nextBatch, nextBatch]
    split
    · exact List.Subset.refl _
    · split_ifs
      · exact List.Subset.refl _
      · exact ih

/-- **Bounded overtaking**, of a request of a group by the steps after its arrival in the state `s`,
up to `t`. -/
structure Overtaking (r : ℕ) (group : Group) (s : State) (as : List Act) (t : State) : Prop where
  /-- It is admitted at the latest at the second release that brings the holders to 0, -/
  second : 2 ≤ emptyings s as → r ∈ t.holding
  /-- and at the first one if the other group is active then. -/
  first : ∀ {before a after u}, as = before ++ a :: after → exec step Always before s = some u →
    emptyings s before = 0 → u.empties a = true → u.active = some group.opposite → r ∈ t.holding
  /-- Who is admitted before it held at its arrival, or is of one further batch, -/
  batch : ∀ {before after u}, as = before ++ after → exec step Always before s = some u → r ∈ u.waiting group →
    ∀ i ∈ u.holding, i ∈ s.holding ∨ i ∈ nextBatch s as
  /-- and is not of its group if it came later. -/
  inOrder : ∀ {before after u}, as = before ++ after → exec step Always before s = some u → r ∈ u.waiting group →
    ∀ {i entry}, u.entries.get? i = some entry → entry.group = group → r < i → entry.admitted = false

/-- **Bounded overtaking**: whatever happens after a request was queued, if it is not dropped. -/
theorem bounded_overtaking {s₀ : State} (hrun : RunUnder step Always {} s₀)
    (harrival : step s₀ (.request group) = some s) (hqueued : s₀.nextId ∈ s.waiting group)
    (hafter : exec step Always as s = some t) (hstay : .drop s₀.nextId ∉ as) :
      Overtaking s₀.nextId group s as t := by
  have hs : Steady s := (steady_of_run hrun ⟨inv_default, sealed_default⟩).step harrival
  have hsb {before af : List Act} (heq : as = before ++ af) : .drop s₀.nextId ∉ before := by
    intro hm
    exact hstay (heq ▸ mem_append_left _ hm)
  refine ⟨fun hc => ?_, fun {before a af u} heq hb hnn he hac => ?_, fun {before af u} heq hb hw i hi => ?_,
    fun {before af u} heq hb hw i e hen hg hl => ?_⟩
  · exact admitted_of_emptyings hs hqueued hstay hafter (.inl hc)
  · have hw := waiting_of_no_emptying hs hqueued (hsb heq) hb hnn
    rw [heq, exec_append, hb, bind_some] at hafter
    have hc : 1 ≤ emptyings u (a :: af) := by
      obtain ⟨-, v, hst, -⟩ := exec_cons_eq_some.mp hafter
      rw [emptyings, hst]
      simp [he]
    refine admitted_of_emptyings (steady_of_run (runUnder_of_exec hb) hs) hw.waits (fun hm => hstay ?_) hafter
      (.inr ⟨hac, hc⟩)
    exact heq ▸ mem_append_right _ hm
  · have hsu := holding_subset hs hqueued (hsb heq) hb hw
    rcases mem_append.mp (hsu hi) with ho | hn
    · exact .inl ho
    · exact .inr (heq ▸ nextBatch_append_subset before af hn)
  · have hu := steady_of_run (runUnder_of_exec hb) hs
    refine Bool.eq_false_of_not_eq_true fun ha => ?_
    have hq : s₀.nextId ∈ u.queues e.group := by
      rw [hg, hu.queued]
      exact hw
    have her := hu.later hen ha hq
    omega

/-- A writer comes when a writer holds and a creator waits: the creator is first, and then the
writer. -/
theorem bounded_overtaking_second_batch :
    ∃ s₀ s t, RunUnder step Always {} s₀ ∧ step s₀ (.request .write) = some s ∧ s₀.nextId ∈ s.waiting .write ∧
      exec step Always [.drop 0, .request .write, .drop 1] s = some t ∧
      (emptyings s [.drop 0, .request .write, .drop 1] = 2 ∧ nextBatch s [.drop 0, .request .write, .drop 1] = [1]) ∧
      Overtaking s₀.nextId .write s [.drop 0, .request .write, .drop 1] t := by
  obtain ⟨s₀, hr, hid, hs⟩ := exists_run_of_exec step Always {} (fun s₀ => s₀.nextId = 2 ∧
    ((step s₀ (.request .write)).any fun s => s₀.nextId ∈ s.waiting .write ∧
      emptyings s [.drop 0, .request .write, .drop 1] = 2 ∧ nextBatch s [.drop 0, .request .write, .drop 1] = [1] ∧
      (exec step Always [.drop 0, .request .write, .drop 1] s).isSome) = true)
    [.request .write, .request .spawn] (by decide)
  obtain ⟨s, ha, hs⟩ := any_eq_true _ _ |>.mp hs
  obtain ⟨hq, hc, hb, hsm⟩ := of_decide_eq_true hs
  obtain ⟨t, haf⟩ := isSome_iff_exists.mp hsm
  refine ⟨s₀, s, t, hr, ha, hq, haf, ⟨hc, hb⟩, ?_⟩
  exact bounded_overtaking hr ha hq haf (by rw [hid]; decide)

end XiaoO.ProcessCoordination
