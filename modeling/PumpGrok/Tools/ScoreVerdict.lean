import PumpGrok.Tools.ScoreReport

/-!
What the verdict of a safety report can be trusted with: an override of the thresholds only makes
it more severe, and short of a kill the required checks that were selected have been made.
-/

namespace PumpGrok

namespace Safety

/-! ### Tighter thresholds -/

/-- Each value at least as strict, in its own direction. -/
def Tighter (v v' : ThresholdKey → ℚ) : Prop :=
  ∀ k, (higherIsStricter k = true → v k ≤ v' k) ∧ (higherIsStricter k = false → v' k ≤ v k)

lemma Tighter.refl (v : ThresholdKey → ℚ) : Tighter v v :=
  fun _ => ⟨fun _ => le_rfl, fun _ => le_rfl⟩

lemma Tighter.trans {u v w : ThresholdKey → ℚ} (h : Tighter u v) (h' : Tighter v w) :
    Tighter u w := fun k =>
  ⟨fun hk => ((h k).1 hk).trans ((h' k).1 hk), fun hk => ((h' k).2 hk).trans ((h k).2 hk)⟩

lemma mergeEntry_tighter (v : ThresholdKey → ℚ) (e : Text × ℚ) : Tighter v (mergeEntry v e) := by
  intro k
  unfold mergeEntry stricter
  split_ifs with hkey hdir
  · exact ⟨fun _ => le_max_left _ _, fun hk => by simp [hk] at hdir⟩
  · exact ⟨fun hk => absurd hk hdir, fun _ => min_le_left _ _⟩
  · exact ⟨fun _ => le_rfl, fun _ => le_rfl⟩

lemma merge_tighter (v : ThresholdKey → ℚ) (es : List (Text × ℚ)) :
    Tighter v (es.foldl mergeEntry v) := by
  induction es generalizing v with
  | nil => exact Tighter.refl v
  | cons e es ih => exact (mergeEntry_tighter v e).trans (ih (mergeEntry v e))

lemma validate_ok {v : ThresholdKey → ℚ} {t : Thresholds} (h : Thresholds.validate v = .ok t) :
    t.value = v := by
  unfold Thresholds.validate at h
  split_ifs at h
  rw [← Except.ok.inj h]

/-- An accepted override tightens the configured thresholds. -/
lemma resolveThresholds_tighter {override : Dict Text ℚ} {base active : Thresholds}
    (h : resolveThresholds override (some base) = .ok active) :
    Tighter base.value active.value := by
  unfold resolveThresholds at h
  dsimp only at h
  split_ifs at h with hempty hknown
  · rw [← Except.ok.inj h]
    exact Tighter.refl _
  · rw [validate_ok h]
    exact merge_tighter _ _

/-! ### Harsher rows -/

def Status.rank : Status → ℕ
  | .pass | .blind => 0
  | .warn => 1
  | .fail => 2

/-- At least as severe; a blind row stays blind. -/
structure Status.Harsher (s s' : Status) : Prop where
  blind : s = .blind ↔ s' = .blind
  rank : s.rank ≤ s'.rank

/-- The same check, at least as severe. -/
def HarsherRow (r r' : CheckResult) : Prop := r.id = r'.id ∧ r.status.Harsher r'.status

lemma HarsherRow.refl (r : CheckResult) : HarsherRow r r := ⟨rfl, Iff.rfl, le_rfl⟩

lemma penalty_le {s s' : Status} (h : s.Harsher s') : penalty s ≤ penalty s' := by
  have hrank := h.rank
  cases s <;> cases s' <;> simp_all [penalty, Status.rank]

section Checks

variable {t t' : Thresholds}

lemma checkTop10_harsher (h : Tighter t.value t'.value) (top : TopReading) :
    HarsherRow (checkTop10Concentration top t) (checkTop10Concentration top t') := by
  have hfail := (h .top10ConcentrationFailPct).2 rfl
  have hwarn := (h .top10ConcentrationWarnPct).2 rfl
  refine ⟨rfl, ?_⟩
  unfold checkTop10Concentration
  dsimp only
  by_cases hfails : t.value .top10ConcentrationFailPct ≤ top.top10Share * 100
  · rw [if_pos hfails, if_pos (hfail.trans hfails)]
    exact ⟨Iff.rfl, le_rfl⟩
  rw [if_neg hfails]
  by_cases hfails' : t'.value .top10ConcentrationFailPct ≤ top.top10Share * 100
  · rw [if_pos hfails']
    split_ifs <;> exact ⟨by simp, by simp [Status.rank]⟩
  rw [if_neg hfails']
  by_cases hwarns : t.value .top10ConcentrationWarnPct ≤ top.top10Share * 100
  · rw [if_pos hwarns, if_pos (hwarn.trans hwarns)]
    exact ⟨Iff.rfl, le_rfl⟩
  rw [if_neg hwarns]
  split_ifs <;> exact ⟨by simp, by simp [Status.rank]⟩

lemma checkLiquidityDepth_harsher (h : Tighter t.value t'.value) (liquidity : ℤ) (size : ℕ) :
    HarsherRow (checkLiquidityDepth liquidity size t) (checkLiquidityDepth liquidity size t') := by
  have hmin := (h .liquidityMultipleMin).1 rfl
  have hrec := (h .liquidityMultipleRecommended).1 rfl
  unfold checkLiquidityDepth
  dsimp only
  by_cases hnone : liquidity ≤ 0
  · rw [if_pos hnone, if_pos hnone]
    exact ⟨rfl, Iff.rfl, le_rfl⟩
  rw [if_neg hnone, if_neg hnone]
  by_cases hsize : size = 0
  · rw [if_pos hsize, if_pos hsize]
    exact ⟨rfl, Iff.rfl, le_rfl⟩
  rw [if_neg hsize, if_neg hsize]
  by_cases hfail : (liquidity : ℚ) / size < t.value .liquidityMultipleMin
  · rw [if_pos hfail, if_pos (hfail.trans_le hmin)]
    exact ⟨rfl, Iff.rfl, le_rfl⟩
  rw [if_neg hfail]
  by_cases hfail' : (liquidity : ℚ) / size < t'.value .liquidityMultipleMin
  · rw [if_pos hfail']
    split_ifs <;> exact ⟨rfl, by simp, by simp [Status.rank]⟩
  rw [if_neg hfail']
  by_cases hwarn : (liquidity : ℚ) / size < t.value .liquidityMultipleRecommended
  · rw [if_pos hwarn, if_pos (hwarn.trans_le hrec)]
    exact ⟨rfl, Iff.rfl, le_rfl⟩
  rw [if_neg hwarn]
  split_ifs <;> exact ⟨rfl, by simp, by simp [Status.rank]⟩

end Checks

/-! ### Harsher reports -/

section Reports

abbrev HarsherRows (rows rows' : List RowEvidence) : Prop :=
  List.Forall₂ (fun x x' => HarsherRow x.1 x'.1) rows rows'

lemma harsherRows_refl (rows : List RowEvidence) : HarsherRows rows rows :=
  List.forall₂_same.mpr fun x _ => HarsherRow.refl x.1

lemma harsherRows_ite {c : Prop} [Decidable c] {x x' : RowEvidence} (h : HarsherRow x.1 x'.1) :
    HarsherRows (if c then [x] else []) (if c then [x'] else []) := by
  split_ifs
  · exact .cons h .nil
  · exact .nil

lemma harsher_readerRow {ρ : Type} {id : CheckId} {evaluate evaluate' : ρ → CheckResult}
    (h : ∀ r, HarsherRow (evaluate r) (evaluate' r)) (reading : Option ρ) (weight : ℚ)
    (reason : String) :
    HarsherRow (readerRow id reading evaluate weight reason).1
      (readerRow id reading evaluate' weight reason).1 := by
  cases reading with
  | none => exact HarsherRow.refl _
  | some r => exact h r

variable {t t' : Thresholds}

/-- Only the concentration and the depth rows look at a threshold. -/
lemma readerRows_harsher (h : Tighter t.value t'.value) (inp : ScoreReportIn)
    (runnable : List CheckId) (readings : Readers) :
    HarsherRows (readerRows inp runnable readings t) (readerRows inp runnable readings t') := by
  have htop : HarsherRows
      (if .top10Concentration ∈ runnable then
        [readerRow .top10Concentration readings.top (checkTop10Concentration · t) (15 / 100)
          "holder sample unreadable"] else [])
      (if .top10Concentration ∈ runnable then
        [readerRow .top10Concentration readings.top (checkTop10Concentration · t') (15 / 100)
          "holder sample unreadable"] else []) :=
    harsherRows_ite (harsher_readerRow (checkTop10_harsher h) _ _ _)
  have hdepth : HarsherRows
      (if .liquidityDepth ∈ runnable then
        [readerRow .liquidityDepth readings.liquidityLamports
          (checkLiquidityDepth · inp.intendedSizeLamports t) (15 / 100) "liquidity unreadable"]
        else [])
      (if .liquidityDepth ∈ runnable then
        [readerRow .liquidityDepth readings.liquidityLamports
          (checkLiquidityDepth · inp.intendedSizeLamports t') (15 / 100) "liquidity unreadable"]
        else []) :=
    harsherRows_ite
      (harsher_readerRow (fun l => checkLiquidityDepth_harsher h l inp.intendedSizeLamports) _ _ _)
  unfold readerRows
  refine List.rel_append (List.rel_append (List.rel_append (List.rel_append
    (harsherRows_refl _) htop) (harsherRows_refl _)) (harsherRows_refl _)) hdepth

variable {rows rows' : List CheckResult}

lemma score_le (h : List.Forall₂ HarsherRow rows rows') : score rows' ≤ score rows := by
  have hfold : ∀ s s' : ℤ, s' ≤ s →
      rows'.foldl (fun s row => s - penalty row.status) s' ≤
        rows.foldl (fun s row => s - penalty row.status) s := by
    induction h with
    | nil => exact fun s s' hs => hs
    | cons hrow _ ih =>
      intro s s' hs
      exact ih _ _ (sub_le_sub hs (penalty_le hrow.2))
  exact max_le_max le_rfl (hfold 100 100 le_rfl)

/-- A harsher row for each row. -/
lemma exists_harsher (h : List.Forall₂ HarsherRow rows rows') {r : CheckResult} (hr : r ∈ rows) :
    ∃ r' ∈ rows', HarsherRow r r' := by
  induction h with
  | nil => simp at hr
  | @cons a b as bs hrow _ ih =>
    rcases List.mem_cons.mp hr with rfl | hr
    · exact ⟨b, List.mem_cons_self, hrow⟩
    · obtain ⟨r', hr', hh⟩ := ih hr
      exact ⟨r', List.mem_cons_of_mem _ hr', hh⟩

def Verdict.severity : Verdict → ℕ
  | .clear => 0
  | .conditional => 1
  | .kill => 2

lemma verdict_severity_le (h : Tighter t.value t'.value) {s s' : ℤ} (hs : s' ≤ s) {f f' : Bool}
    (hf : f = true → f' = true) : (verdict s f t).severity ≤ (verdict s' f' t').severity := by
  have hkill := (h .killBelowScore).1 rfl
  have hcond := (h .conditionalBelowScore).1 rfl
  have hcast : (s' : ℚ) ≤ s := by exact_mod_cast hs
  unfold verdict
  by_cases hforced : f = true ∨ (s : ℚ) < t.value .killBelowScore
  · have hforced' : f' = true ∨ (s' : ℚ) < t'.value .killBelowScore :=
      hforced.imp hf fun hlt => (hcast.trans_lt hlt).trans_le hkill
    rw [if_pos hforced, if_pos hforced']
  · rw [if_neg hforced]
    by_cases hlow : (s : ℚ) < t.value .conditionalBelowScore
    · rw [if_pos hlow, if_pos ((hcast.trans_lt hlow).trans_le hcond)]
      split_ifs <;> simp [Verdict.severity]
    · rw [if_neg hlow]
      exact Nat.zero_le _

/-- The rows that force a kill. -/
lemma blindRequired_ne_nil {paidRecorded : Bool} :
    ((rows.filter fun r => r.status = .blind).filter fun r =>
        r.id ∈ requiredIds ∧ exempt paidRecorded r.id = false) ≠ [] ↔
      ∃ r ∈ rows, r.status = .blind ∧ r.id ∈ requiredIds ∧ exempt paidRecorded r.id = false := by
  rw [ne_eq, List.filter_eq_nil_iff]
  simp only [List.mem_filter, decide_eq_true_eq, not_forall, not_not, and_assoc, exists_prop]

/-- **A report under tighter thresholds** is at least as severe in every respect. -/
lemma reportOf_harsher (h : Tighter t.value t'.value) {xs xs' : List RowEvidence}
    (hxs : HarsherRows xs xs') (readings : Readers) (paidRecorded : Bool) :
    (reportOf readings xs t paidRecorded).verdictRecommendation.severity ≤
        (reportOf readings xs' t' paidRecorded).verdictRecommendation.severity ∧
      (reportOf readings xs' t' paidRecorded).score ≤ (reportOf readings xs t paidRecorded).score ∧
      ((reportOf readings xs t paidRecorded).hardVeto = true →
        (reportOf readings xs' t' paidRecorded).hardVeto = true) ∧
      List.Forall₂ HarsherRow (reportOf readings xs t paidRecorded).checks
        (reportOf readings xs' t' paidRecorded).checks := by
  have hrows : List.Forall₂ HarsherRow (xs.map Prod.fst) (xs'.map Prod.fst) := by
    rw [List.forall₂_map_left_iff, List.forall₂_map_right_iff]
    exact hxs
  have hveto : (reportOf readings xs t paidRecorded).hardVeto = true →
      (reportOf readings xs' t' paidRecorded).hardVeto = true := by
    simp only [reportOf, Option.any_eq_true, decide_eq_true_eq]
    rintro ⟨top, htop, hshare⟩
    exact ⟨top, htop, ((h .top5ShareVeto).2 rfl).trans_lt hshare⟩
  refine ⟨verdict_severity_le h (score_le hrows) fun hf => ?_, score_le hrows, hveto, hrows⟩
  rw [Bool.or_eq_true, decide_eq_true_eq, blindRequired_ne_nil] at hf ⊢
  refine hf.imp hveto ?_
  rintro ⟨r, hr, hblind, hrequired, hexempt⟩
  obtain ⟨r', hr', hid, hharsh⟩ := exists_harsher hrows hr
  exact ⟨r', hr', hharsh.blind.mp hblind, hid ▸ hrequired, hid ▸ hexempt⟩

end Reports

/-! ### Overrides -/

/-- What a run of the tool returns. -/
lemma runScoreReport_ok_iff {inp : ScoreReportIn} {readers : Readers}
    {thresholds : Option Thresholds} {paidRecorded : Bool} {r : ScoreReportOut} :
    runScoreReport inp readers thresholds paidRecorded = .ok r ↔
      ∃ active, resolveThresholds inp.thresholds thresholds = .ok active ∧
        unknownChecks inp = [] ∧
        r = reportOf (readAll inp readers ((wantedChecks inp).filter (· ∉ advisoryIds)))
          (readerRows inp ((wantedChecks inp).filter (· ∉ advisoryIds))
            (readAll inp readers ((wantedChecks inp).filter (· ∉ advisoryIds))) active ++
            advisoryRows (wantedChecks inp)) active paidRecorded := by
  unfold runScoreReport
  rcases resolveThresholds inp.thresholds thresholds with e | active
  · simp [bind, Except.bind]
  · by_cases hunknown : unknownChecks inp = []
    · simp [bind, Except.bind, hunknown, eq_comm]
    · simp [bind, Except.bind, hunknown]

/-- **Caller thresholds only tighten the verdict.** Next to the report without it, the report under
an accepted override has a verdict and rows at least as severe, no higher score, and every hard
veto. -/
theorem override_only_tightens (inp : ScoreReportIn) (readers : Readers) (base : Thresholds)
    (paidRecorded : Bool) (r' : ScoreReportOut)
    (h : runScoreReport inp readers (some base) paidRecorded = .ok r') :
    ∃ r, runScoreReport { inp with thresholds := ∅ } readers (some base) paidRecorded = .ok r ∧
      r.verdictRecommendation.severity ≤ r'.verdictRecommendation.severity ∧
      r'.score ≤ r.score ∧ (r.hardVeto = true → r'.hardVeto = true) ∧
      List.Forall₂ (fun row row' => row.id = row'.id ∧ row.status.Harsher row'.status)
        r.checks r'.checks := by
  obtain ⟨active, hactive, hunknown, rfl⟩ := runScoreReport_ok_iff.mp h
  have htighter := resolveThresholds_tighter hactive
  refine ⟨_, runScoreReport_ok_iff.mpr ⟨base, rfl, hunknown, rfl⟩, ?_⟩
  exact reportOf_harsher htighter
    (List.rel_append (readerRows_harsher htighter inp _ _) (harsherRows_refl _)) _ _

/-! ### A sample token -/

def sampleReaders : Readers where
  auth := some { hasMintAuthority := false, hasFreezeAuthority := false }
  lp := some .bondingCurve
  extensions := some []
  top := some { top5Share := 1 / 10, top10Share := 12 / 100 }
  deployer := some { tokensSeen := 1 }
  liquidityLamports := some 30000000000

def sampleIn : ScoreReportIn where
  mint := List.replicate 32 'm'
  curveAccount := List.replicate 32 'c'
  creator := some (List.replicate 32 'd')
  intendedSizeLamports := 100000000

def sampleOverride : Dict Text ℚ :=
  ((∅ : Dict Text ℚ).set "top10_concentration_fail_pct".toList 5).set "kill_below_score".toList 80

/-- A stricter concentration limit and score turn a clear token into a kill. -/
theorem override_only_tightens_sample :
    ∃ r' : ScoreReportOut, r'.verdictRecommendation = .kill ∧ ∃ r,
      runScoreReport { sampleIn with thresholds := ∅ } sampleReaders (some Thresholds.default)
          false = .ok r ∧
        r.verdictRecommendation.severity ≤ r'.verdictRecommendation.severity ∧
        r'.score ≤ r.score ∧ (r.hardVeto = true → r'.hardVeto = true) ∧
        List.Forall₂ (fun row row' => row.id = row'.id ∧ row.status.Harsher row'.status)
          r.checks r'.checks := by
  have hrun : (match runScoreReport { sampleIn with thresholds := sampleOverride } sampleReaders
        (some Thresholds.default) false with
      | .ok r => decide (r.verdictRecommendation = .kill)
      | .error _ => false) = true := by decide +kernel
  rcases hr : runScoreReport { sampleIn with thresholds := sampleOverride } sampleReaders
    (some Thresholds.default) false with e | r'
  · rw [hr] at hrun
    cases hrun
  · rw [hr] at hrun
    exact ⟨r', of_decide_eq_true hrun,
      override_only_tightens { sampleIn with thresholds := sampleOverride } _ _ _ r' hr⟩

/-! ### Required data -/

lemma mem_ite_singleton {c : Prop} [Decidable c] {x y : RowEvidence} :
    x ∈ (if c then [y] else []) ↔ c ∧ x = y := by
  split_ifs with h <;> simp [h]

/-- A row of a reader: of its own check, and with evidence unless it is blind. -/
structure Evaluated (c : CheckId) (x : RowEvidence) : Prop where
  id : x.1.id = c
  evidence : x.1.status ≠ .blind → { check := c, source := .solanaRpc } ∈ x.2

lemma evaluated_readerRow {ρ : Type} {c : CheckId} {evaluate : ρ → CheckResult}
    (h : ∀ r, (evaluate r).id = c) (reading : Option ρ) (weight : ℚ) (reason : String) :
    Evaluated c (readerRow c reading evaluate weight reason) := by
  cases reading with
  | none => exact ⟨rfl, fun hs => absurd rfl hs⟩
  | some r => exact ⟨h r, fun _ => List.mem_singleton.mpr rfl⟩

/-- Every selected check with a reader has its row. -/
lemma exists_readerRow {c : CheckId} (hc : c ∈ requiredIds) {inp : ScoreReportIn}
    {runnable : List CheckId} (hr : c ∈ runnable) (readings : Readers) (t : Thresholds) :
    ∃ x ∈ readerRows inp runnable readings t, Evaluated c x := by
  have hmint : ∀ a, (checkMintAuthority a).id = .mintAuthority := fun _ => rfl
  have hfreeze : ∀ a, (checkFreezeAuthority a).id = .freezeAuthority := fun _ => rfl
  have hlp : ∀ l, (checkLpStatus l).id = .lpStatus := fun _ => rfl
  have htop : ∀ top, (checkTop10Concentration top t).id = .top10Concentration := fun _ => rfl
  have hext : ∀ x, (checkToken2022Extensions x).id = .token2022Extensions := fun _ => rfl
  have hdeployer : ∀ dep, (checkDeployerHistory dep).id = .deployerHistory := fun dep => by
    unfold checkDeployerHistory
    split_ifs <;> rfl
  have hdepth : ∀ l, (checkLiquidityDepth l inp.intendedSizeLamports t).id = .liquidityDepth :=
    fun l => by
      unfold checkLiquidityDepth
      dsimp only
      split_ifs <;> rfl
  have hblind : Evaluated .deployerHistory
      (blindRow .deployerHistory (10 / 100) "creator not supplied; window unscanned", []) :=
    ⟨rfl, fun hs => absurd rfl hs⟩
  simp only [readerRows, List.mem_append, mem_ite_singleton]
  cases c with
  | mintAuthority =>
    exact ⟨readerRow .mintAuthority readings.auth checkMintAuthority (15 / 100)
      "mint authority unreadable", by simp [hr], evaluated_readerRow hmint _ _ _⟩
  | freezeAuthority =>
    exact ⟨readerRow .freezeAuthority readings.auth checkFreezeAuthority (15 / 100)
      "freeze authority unreadable", by simp [hr], evaluated_readerRow hfreeze _ _ _⟩
  | lpStatus =>
    exact ⟨readerRow .lpStatus readings.lp checkLpStatus (15 / 100) "curve account unreadable",
      by simp [hr], evaluated_readerRow hlp _ _ _⟩
  | top10Concentration =>
    exact ⟨readerRow .top10Concentration readings.top (checkTop10Concentration · t) (15 / 100)
      "holder sample unreadable", by simp [hr], evaluated_readerRow htop _ _ _⟩
  | deployerHistory =>
    refine ⟨if inp.creator = none then
        (blindRow .deployerHistory (10 / 100) "creator not supplied; window unscanned", [])
      else readerRow .deployerHistory readings.deployer checkDeployerHistory (10 / 100)
        "creator window unreadable", by simp [hr], ?_⟩
    split_ifs
    · exact hblind
    · exact evaluated_readerRow hdeployer _ _ _
  | token2022Extensions =>
    exact ⟨readerRow .token2022Extensions readings.extensions checkToken2022Extensions (5 / 100)
      "mint metadata unreadable", by simp [hr], evaluated_readerRow hext _ _ _⟩
  | liquidityDepth =>
    exact ⟨readerRow .liquidityDepth readings.liquidityLamports
      (checkLiquidityDepth · inp.intendedSizeLamports t) (15 / 100) "liquidity unreadable",
      by simp [hr], evaluated_readerRow hdepth _ _ _⟩
  | transferTax | honeypot | bundlerCluster => simp [requiredIds] at hc

/-- **Missing required data forces a kill**, of the checks that were selected: short of one, each
of them outside the exemption has a row, from a live reading, and none of its rows is blind. -/
theorem verdict_needs_data (inp : ScoreReportIn) (readers : Readers)
    (thresholds : Option Thresholds) (paidRecorded : Bool) (r : ScoreReportOut)
    (h : runScoreReport inp readers thresholds paidRecorded = .ok r)
    (hv : r.verdictRecommendation ≠ .kill) :
    ∀ c ∈ requiredIds, c ∈ wantedChecks inp → exempt paidRecorded c = false →
      (∃ row ∈ r.checks, row.id = c) ∧ { check := c, source := .solanaRpc } ∈ r.evidence ∧
        ∀ row ∈ r.checks, row.id = c → row.status ≠ .blind := by
  intro c hc hw he
  obtain ⟨active, -, -, rfl⟩ := runScoreReport_ok_iff.mp h
  have hrunnable : c ∈ (wantedChecks inp).filter (· ∉ advisoryIds) := by
    have hnot : ∀ d ∈ requiredIds, d ∉ advisoryIds := by decide
    simp [hw, hnot c hc]
  have hsighted : ∀ row ∈ (reportOf (readAll inp readers ((wantedChecks inp).filter
      (· ∉ advisoryIds))) (readerRows inp ((wantedChecks inp).filter (· ∉ advisoryIds))
        (readAll inp readers ((wantedChecks inp).filter (· ∉ advisoryIds))) active ++
        advisoryRows (wantedChecks inp)) active paidRecorded).checks,
      row.id = c → row.status ≠ .blind := by
    intro row hrow hid hblind
    refine hv (if_pos (.inl ?_))
    rw [Bool.or_eq_true, decide_eq_true_eq, blindRequired_ne_nil]
    exact .inr ⟨row, hrow, hblind, hid ▸ hc, hid ▸ he⟩
  obtain ⟨x, hx, hrow⟩ := exists_readerRow hc hrunnable
    (readAll inp readers ((wantedChecks inp).filter (· ∉ advisoryIds))) active
  have hmem : x.1 ∈ (reportOf (readAll inp readers ((wantedChecks inp).filter
      (· ∉ advisoryIds))) (readerRows inp ((wantedChecks inp).filter (· ∉ advisoryIds))
        (readAll inp readers ((wantedChecks inp).filter (· ∉ advisoryIds))) active ++
        advisoryRows (wantedChecks inp)) active paidRecorded).checks :=
    List.mem_map_of_mem (List.mem_append_left _ hx)
  refine ⟨⟨x.1, hmem, hrow.id⟩, ?_, hsighted⟩
  exact List.mem_flatMap.mpr
    ⟨x, List.mem_append_left _ hx, hrow.evidence (hsighted x.1 hmem hrow.id)⟩

/-- The sample token is clear on all its data. -/
theorem verdict_needs_data_sample :
    ∃ r : ScoreReportOut, r.verdictRecommendation = .clear ∧
      ∀ c ∈ requiredIds, c ∈ wantedChecks sampleIn → exempt true c = false →
        (∃ row ∈ r.checks, row.id = c) ∧ { check := c, source := .solanaRpc } ∈ r.evidence ∧
          ∀ row ∈ r.checks, row.id = c → row.status ≠ .blind := by
  have hrun : (match runScoreReport sampleIn sampleReaders none true with
      | .ok r => decide (r.verdictRecommendation = .clear)
      | .error _ => false) = true := by decide +kernel
  rcases hr : runScoreReport sampleIn sampleReaders none true with e | r
  · rw [hr] at hrun
    cases hrun
  · rw [hr] at hrun
    have hclear := of_decide_eq_true hrun
    exact ⟨r, hclear, verdict_needs_data _ _ _ _ r hr (by rw [hclear]; decide)⟩

/-- A caller that selects no check is told the token is clear, with every reader failing. -/
theorem unselected_is_clear :
    ¬ ∀ (inp : ScoreReportIn) (readers : Readers) (thresholds : Option Thresholds)
      (paidRecorded : Bool) (r : ScoreReportOut),
      runScoreReport inp readers thresholds paidRecorded = .ok r →
        r.verdictRecommendation ≠ .kill → ∀ c ∈ requiredIds, exempt paidRecorded c = false →
          ∃ row ∈ r.checks, row.id = c ∧ row.status ≠ .blind := by
  intro h
  have hrun : (match runScoreReport { sampleIn with checks := some [] }
        ⟨none, none, none, none, none, none⟩ none true with
      | .ok r => decide (r.verdictRecommendation = .clear ∧ r.checks = [])
      | .error _ => false) = true := by decide +kernel
  rcases hr : runScoreReport { sampleIn with checks := some [] }
      ⟨none, none, none, none, none, none⟩ none true with e | r
  · rw [hr] at hrun
    cases hrun
  · rw [hr] at hrun
    obtain ⟨hclear, hempty⟩ := of_decide_eq_true hrun
    obtain ⟨row, hrow, -⟩ := h _ _ _ _ r hr (by rw [hclear]; decide) .mintAuthority (by decide) rfl
    rw [hempty] at hrow
    simp at hrow

end Safety

end PumpGrok
