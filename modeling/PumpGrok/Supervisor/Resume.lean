import PumpGrok.Supervisor.Timeline

/-!
A serve that is stopped and restarted from its ledger: which candidates the new process takes for
attempted.
-/

namespace PumpGrok

namespace Serve

variable (r : Recording)

def IsRestart : ServeAction → Prop
  | .restart _ => True
  | _ => False

/-- Whatever the process does until it is stopped, it attempts no candidate whose order row an
earlier process appended. -/
def Quiet (s : Serve) : Prop :=
  ∀ cs, (∀ a ∈ cs, ¬ IsRestart a) → (Runs.after (step r) s cs).again = ∅

/-- At a restart, every candidate with an order row that the loaded filter still buys has an order
row of its mint stamped at its own tick. -/
def Recognised (s : Serve) : ServeAction → Prop
  | .restart cfg => ∀ i ∈ s.earlier ∪ s.placed, ∀ c ∈ (evaluateCandidates r.ticks cfg)[i]?,
      c.verdict.decision = .buy → ⟨c.ts, some c.mint⟩ ∈ s.rows
  | _ => True

instance (s : Serve) (a : ServeAction) : Decidable (s.Recognised r a) :=
  match a with
  | .restart _ => by unfold Recognised; infer_instance
  | .tick _ | .hold | .elapse _ | .row | .attempt .. | .sell _ | .reload _ => .isTrue trivial

/-! ### What the ledger tells -/

/-- Rows come in the order of their stamps, none after the clock, and the order row of a candidate
is stamped at least one step of virtual time after its tick. -/
structure Logged (s : Serve) : Prop where
  sorted : s.rows.Pairwise fun a b => a.ts ≤ b.ts
  past : ∀ row ∈ s.rows, row.ts ≤ s.clock
  late : ∀ i ∈ s.earlier ∪ s.placed, ∃ e ∈ r.ticks[i]?, ∃ row ∈ s.rows,
    row.buyOf = some e.mint ∧ e.stamp + virtualStep ≤ row.ts

variable {r} {s : Serve}

lemma candidates_get {cfg : FilterSettings} {i : ℕ} {c : CandidateVerdict}
    (h : (evaluateCandidates r.ticks cfg)[i]? = some c) :
    ∃ e, r.ticks[i]? = some e ∧ c = candidateOf cfg e := by
  rw [evaluateCandidates, List.getElem?_map, Option.map_eq_some_iff] at h
  obtain ⟨e, he, rfl⟩ := h
  exact ⟨e, he, rfl⟩

/-- Rows no earlier than the clock go to the end. -/
lemma Logged.sorted_snoc (h : s.Logged r) {row : TimelineRow} (hrow : s.clock ≤ row.ts) :
    (s.rows ++ [row]).Pairwise fun a b => a.ts ≤ b.ts := by
  refine List.pairwise_append.mpr ⟨h.sorted, List.pairwise_singleton _ _, fun a ha b hb => ?_⟩
  obtain rfl := List.mem_singleton.mp hb
  exact (h.past a ha).trans hrow

lemma Logged.elapsed (h : s.Logged r) {clock : ℤ} (hc : s.clock ≤ clock) :
    ({ s with clock := clock } : Serve).Logged r :=
  ⟨h.sorted, fun row hrow => (h.past row hrow).trans hc, h.late⟩

lemma Logged.append (h : s.Logged r) (row : TimelineRow) (clock : ℤ) (hrow : s.clock ≤ row.ts)
    (hc : row.ts ≤ clock) :
    ({ s with clock := clock, rows := s.rows ++ [row] } : Serve).Logged r := by
  refine ⟨h.sorted_snoc hrow, fun x hx => ?_, fun i hi => ?_⟩
  · rcases List.mem_append.mp hx with hx | hx
    · exact ((h.past x hx).trans hrow).trans hc
    · rw [List.mem_singleton.mp hx]
      exact hc
  · obtain ⟨e, he, x, hx, hxe⟩ := h.late i hi
    exact ⟨e, he, x, List.mem_append_left _ hx, hxe⟩

/-- Every row is stamped by the resume stamp. -/
lemma Logged.resumeStamp_le (h : s.Logged r) {row : TimelineRow} (hrow : row ∈ s.rows) :
    ∃ t, resumeStamp s.rows = some t ∧ row.ts ≤ t := by
  rcases hlast : s.rows.getLast? with - | last
  · rw [List.getLast?_eq_none_iff] at hlast
    simp [hlast] at hrow
  · refine ⟨last.ts, by rw [resumeStamp, hlast]; rfl, ?_⟩
    obtain ⟨front, hfront⟩ := List.getLast?_eq_some_iff.mp hlast
    have hs := h.sorted
    rw [hfront] at hs hrow
    rcases List.mem_append.mp hrow with hrow | hrow
    · exact (List.pairwise_append.mp hs).2.2 row hrow last (by simp)
    · rw [List.mem_singleton.mp hrow]

lemma logged_attempt (h : s.Logged r) (index : ℕ) (o : Outcome) :
    (s.attempt r index o).Logged r := by
  unfold attempt
  split
  · exact h
  · next c hc =>
    obtain ⟨hget, -, -, hle⟩ := eligible_some hc
    have hu := clock_lt_checkTime s o
    have hstep : s.clock + virtualStep ≤ s.checkTime o := le_max_right _ _
    rcases hp : o.placed with - | -
    · have hlater := h.elapsed (hu.le.trans (le_max_right o.settledAt _))
      exact ⟨hlater.sorted, hlater.past, hlater.late⟩
    · have hrows := h.append ⟨s.checkTime o, some c.mint⟩ (max o.settledAt (s.checkTime o))
        hu.le (le_max_right _ _)
      refine ⟨hrows.sorted, hrows.past, fun i hi => ?_⟩
      have hi' : i = index ∨ i ∈ s.earlier ∪ s.placed := by
        simp only [if_true, Finset.mem_union, Finset.mem_insert] at hi ⊢
        tauto
      rcases hi' with rfl | hi'
      · obtain ⟨e, he, rfl⟩ := candidates_get hget
        refine ⟨e, he, ⟨s.checkTime o, some e.mint⟩, by simp [candidateOf], rfl, ?_⟩
        have hstamp : (candidateOf s.cfg e).ts = e.stamp := rfl
        rw [hstamp] at hle
        exact (by omega : e.stamp + virtualStep ≤ s.checkTime o)
      · exact hrows.late i hi'

lemma logged_step (h : s.Logged r) (a : ServeAction) : (s.step r a).Logged r := by
  cases a with
  | tick at' =>
    simp only [step, tick]
    split_ifs with ht
    · refine h.elapsed ?_
      have := ht.2
      unfold Skips at this
      push Not at this
      exact this.1
    · exact h
  | hold => exact h.elapsed (by unfold tickStep; omega)
  | elapse d => exact h.elapsed (by omega)
  | row => exact h.append ⟨s.clock, none⟩ s.clock le_rfl le_rfl
  | attempt index o => exact logged_attempt h index o
  | sell o =>
    have hu := clock_lt_checkTime s o
    simp only [step, sell]
    rcases o.placed with - | -
    · exact h.elapsed (hu.le.trans (le_max_right _ _))
    · exact h.append ⟨s.checkTime o, none⟩ _ hu.le (le_max_right _ _)
  | reload cfg => exact ⟨h.sorted, h.past, h.late⟩
  | restart cfg =>
    refine ⟨h.sorted, fun row hrow => ?_, fun i hi => h.late i (by simpa [step, restart] using hi)⟩
    obtain ⟨t, ht, hle⟩ := h.resumeStamp_le hrow
    simp only [step, restart, ht, Option.getD_some]
    exact hle.trans (le_max_right _ _)

/-! ### What a restarted process attempts -/

/-- Every candidate an earlier process placed counts as attempted, where the filter buys it. -/
def Closed (r : Recording) (s : Serve) : Prop :=
  ∀ i ∈ s.earlier, ∀ c ∈ (s.candidates r)[i]?, c.verdict.decision = .buy → i ∈ s.attempted

/-- A closed process attempts nothing again, and stays closed. -/
lemma closed_step (hl : s.Logged r) (h : s.Closed r) (hagain : s.again = ∅) {a : ServeAction}
    (ha : ¬ IsRestart a) : (s.step r a).Closed r ∧ (s.step r a).again = ∅ := by
  cases a with
  | restart cfg => exact absurd trivial ha
  | tick at' =>
    simp only [step, tick]
    split_ifs
    · exact ⟨h, hagain⟩
    · exact ⟨h, hagain⟩
  | hold => exact ⟨h, hagain⟩
  | elapse d => exact ⟨h, hagain⟩
  | row => exact ⟨h, hagain⟩
  | sell o => exact ⟨h, hagain⟩
  | reload cfg =>
    refine ⟨fun i hi c hc _ => ?_, hagain⟩
    have hget : (evaluateCandidates r.ticks cfg)[i]? = some c := hc
    obtain ⟨e, he, rfl⟩ := candidates_get hget
    obtain ⟨e', he', row, hrow, -, hlate⟩ := hl.late i (Finset.mem_union_left _ hi)
    have hee : e' = e := by
      rw [Option.mem_def, he] at he'
      exact (Option.some.inj he').symm
    have hpast := hl.past row hrow
    have hstep : (0 : ℤ) < virtualStep := by decide
    refine Finset.mem_union_right _ (Finset.mem_filter.mpr ⟨?_, fun c hc' => ?_⟩)
    · exact Finset.mem_range.mpr (List.getElem?_eq_some_iff.mp hc).1
    · obtain rfl := Option.some.inj (hc'.symm.trans hc)
      have hts : (candidateOf cfg e).ts = e.stamp := rfl
      rw [hts, ← hee]
      omega
  | attempt index o =>
    simp only [step, attempt]
    split
    · exact ⟨h, hagain⟩
    · next c hc =>
      obtain ⟨hget, hbuy, hnot, -⟩ := eligible_some hc
      have hfresh : index ∉ s.earlier := fun hin => hnot (h index hin c hget hbuy)
      refine ⟨fun i hi d hd hb => Finset.mem_insert_of_mem (h i hi d hd hb), ?_⟩
      rw [if_neg hfresh]
      exact hagain

lemma quiet_iff (hl : s.Logged r) : s.Quiet r ↔ s.again = ∅ ∧ s.Closed r := by
  constructor
  · intro h
    refine ⟨h [] (by simp), fun i hi c hc hb => ?_⟩
    by_contra hnot
    -- the candidate is open: its tick is past, so that the next pass attempts it
    obtain ⟨e, he, row, hrow, -, hlate⟩ := hl.late i (Finset.mem_union_left _ hi)
    obtain ⟨e', he', rfl⟩ := candidates_get hc
    have hee : e = e' := Option.some.inj (Option.mem_def.mp he ▸ he')
    have hpast := hl.past row hrow
    have hts : (candidateOf s.cfg e').ts = e'.stamp := rfl
    have hstep : (0 : ℤ) < virtualStep := by decide
    have helig : s.eligible r i = some (candidateOf s.cfg e') := by
      have hc' : (s.candidates r)[i]? = some (candidateOf s.cfg e') := hc
      simp only [eligible, hc']
      rw [if_neg (by simp [hb, hnot]), if_neg (by rw [hts, ← hee]; omega)]
    have hrun := h [.attempt i {}] (by simp [IsRestart])
    simp only [Runs.after_cons, Runs.after_nil, step, attempt, helig, if_pos hi] at hrun
    exact Finset.insert_ne_empty _ _ hrun
  · rintro ⟨hagain, hclosed⟩ cs hcs
    induction cs generalizing s with
    | nil => exact hagain
    | cons a cs ih =>
      have ha := hcs a (by simp)
      obtain ⟨hclosed', hagain'⟩ := closed_step hl hclosed hagain ha
      exact ih (logged_step hl a) hagain' hclosed' fun b hb => hcs b (by simp [hb])

lemma closed_restart (cfg : FilterSettings) :
    (s.restart r cfg).Closed r ↔ s.Recognised r (.restart cfg) := by
  have hmem : ∀ i c, (evaluateCandidates r.ticks cfg)[i]? = some c → c.verdict.decision = .buy →
      (i ∈ recognised s.rows (evaluateCandidates r.ticks cfg) ↔ ⟨c.ts, some c.mint⟩ ∈ s.rows) := by
    intro i c hc hb
    obtain ⟨hlt, rfl⟩ := List.getElem?_eq_some_iff.mp hc
    simp [recognised, hlt, hb]
  constructor
  · intro h i hi c hc hb
    exact (hmem i c hc hb).mp (h i hi c hc hb)
  · intro h i hi c hc hb
    exact (hmem i c hc hb).mpr (h i hi c hc hb)

lemma quiet_step (hl : s.Logged r) (h : s.Quiet r) (a : ServeAction) :
    (s.step r a).Quiet r ↔ s.Recognised r a := by
  by_cases ha : IsRestart a
  · cases a with
    | restart cfg =>
      have hagain : (s.restart r cfg).again = ∅ := h [] (by simp)
      have hquiet := quiet_iff (logged_step hl (.restart cfg))
      exact hquiet.trans ((and_iff_right hagain).trans (closed_restart cfg))
    | _ => exact absurd ha id
  · have hnext : (s.step r a).Quiet r := fun cs hcs =>
      h (a :: cs) fun b hb => by
        rcases List.mem_cons.mp hb with rfl | hb
        · exact ha
        · exact hcs b hb
    refine iff_of_true hnext ?_
    cases a with
    | restart cfg => exact absurd trivial ha
    | _ => trivial

/-- **Restarts and placed buys.** In every run over every recording, with restarts anywhere, no
process ever attempts a candidate whose order row an earlier one appended exactly when, at each
restart, every such candidate has an order row of its mint stamped at its own tick. Its own order
row is stamped later. -/
theorem quiet_iff_recognised (r : Recording) (cfg : FilterSettings) (as : List ServeAction) :
    (∀ bs, bs <+: as → (Runs.after (step r) (start r cfg) bs).Quiet r) ↔
      Runs.Along (step r) (Recognised r) (start r cfg) as := by
  have hl : (start r cfg).Logged r := ⟨by simp [start], by simp [start], by simp [start]⟩
  have hq : (start r cfg).Quiet r := (quiet_iff hl).mpr ⟨rfl, by simp [Closed, start]⟩
  exact Runs.always_iff_along (J := Logged r) (P := Quiet r) (fun _ a h => logged_step h a)
    (fun _ a hj hp => quiet_step hj hp a) hl hq as

/-- A process that is stopped after its first order and restarted places it again. -/
theorem restart_buys_again :
    ¬ ∀ bs, bs <+: [ServeAction.tick 200000000, .attempt 0 {}, .restart {}] →
      (Runs.after (step closeTicks) (start closeTicks {}) bs).Quiet closeTicks := by
  intro h
  have hagain := h _ (List.prefix_refl _) [.attempt 0 {}] (by simp [IsRestart])
  revert hagain
  decide +kernel

end Serve

end PumpGrok
